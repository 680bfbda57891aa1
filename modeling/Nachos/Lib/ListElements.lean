import Nachos.Foundation.Chain
import Nachos.Lib.List

/-!
# The elements of a `List`

`List<T>` of `lib/list.cc` with its `ListElement`s, the pointers `first` and
`last` and the counter `numInList`.  A loop that follows `next` is given as many
turns as there are elements.
-/

namespace Nachos

open Foundation

abbrev ListElement (Item : Type) := Node Nat Item

/-- `List`.  An address is the number of elements allocated before. -/
structure LinkedList (Item : Type) where
  elements : Store Nat Item
  allocated : Nat
  first : Option Nat
  last : Option Nat
  numInList : Int

namespace LinkedList

variable {Item : Type}

def new : LinkedList Item :=
  ⟨fun _ => none, 0, none, none, 0⟩

def element (list : LinkedList Item) (pointer : Option Nat) :
    Except Fault (ListElement Item) :=
  match pointer.bind list.elements with
  | some element => .ok element
  | none => .error .badObject

def newElement (list : LinkedList Item) (item : Item) : LinkedList Item :=
  { list with
    elements := Function.update list.elements list.allocated (some ⟨item, none⟩)
    allocated := list.allocated + 1 }

def setNext (list : LinkedList Item) (pointer next : Option Nat) :
    Except Fault (LinkedList Item) :=
  match pointer with
  | none => .error .badObject
  | some address =>
    match list.elements address with
    | none => .error .badObject
    | some element =>
      .ok { list with
        elements :=
          Function.update list.elements address (some ⟨element.item, next⟩) }

def delete (list : LinkedList Item) (pointer : Option Nat) : LinkedList Item :=
  match pointer with
  | none => list
  | some address =>
    { list with elements := Function.update list.elements address none }

def isEmpty (list : LinkedList Item) : Bool :=
  list.numInList = 0

/-- `prev` is made to point past the element after it, which is deleted. -/
def skip (list : LinkedList Item) (prev : Option Nat) (address : Nat)
    (next : Option Nat) : Except Fault (LinkedList Item) := do
  let linked ← list.setNext prev next
  let linked := if next = none then { linked with last := prev } else linked
  return { linked.delete (some address) with
    numInList := linked.numInList - 1 }

def linkLast (list : LinkedList Item) (element : Nat) :
    Except Fault (LinkedList Item) :=
  if list.isEmpty then
    .ok { list with first := some element, last := some element }
  else do
    let linked ← list.setNext list.last (some element)
    return { linked with last := some element }

def linkFirst (list : LinkedList Item) (element : Nat) :
    Except Fault (LinkedList Item) :=
  if list.isEmpty then
    .ok { list with first := some element, last := some element }
  else do
    let linked ← list.setNext (some element) list.first
    return { linked with first := some element }

def removeFront (list : LinkedList Item) :
    Except Fault (Item × LinkedList Item) := do
  let element := list.first
  assertThat (!list.isEmpty) .listRemoveFront
  let front ← list.element element
  let rest :=
    if list.first = list.last then
      { list with first := none, last := none }
    else
      { list with first := front.next }
  return (front.item,
    { rest.delete element with numInList := list.numInList - 1 })

def countToLast (list : LinkedList Item) :
    Nat → Int → Option Nat → Except Fault Int
  | turns, numFound, pointer =>
    if pointer = list.last then
      .ok numFound
    else
      match turns with
      | 0 => .error .endlessLoop
      | turns + 1 => do
        assertThat (numFound + 1 ≤ list.numInList) .listSanity
        let element ← list.element pointer
        list.countToLast turns (numFound + 1) element.next

/-- `List::SanityCheck`.  The check in the loop lets it make fewer than
`numInList` turns. -/
def sanityCheck (list : LinkedList Item) : Except Fault Unit := do
  if list.first = none then
    assertThat (list.numInList = 0 ∧ list.last = none) .listSanity
  else if list.first = list.last then
    let last ← list.element list.last
    assertThat (list.numInList = 1 ∧ last.next = none) .listSanity
  else
    let numFound ← list.countToLast list.numInList.toNat 1 list.first
    assertThat (numFound = list.numInList) .listSanity
    let last ← list.element list.last
    assertThat (last.next = none) .listSanity

variable [DecidableEq Item]

def isInListFrom (list : LinkedList Item) (item : Item) :
    Nat → Option Nat → Except Fault Bool
  | _, none => .ok false
  | 0, some _ => .error .endlessLoop
  | turns + 1, some address => do
    let element ← list.element (some address)
    if item = element.item then
      .ok true
    else
      list.isInListFrom item turns element.next

def isInList (list : LinkedList Item) (item : Item) : Except Fault Bool :=
  list.isInListFrom item list.allocated list.first

def append (list : LinkedList Item) (item : Item) :
    Except Fault (LinkedList Item) := do
  let element := list.allocated
  let list := list.newElement item
  let isIn ← list.isInList item
  assertThat (!isIn) .listAppend
  let list ← list.linkLast element
  let list := { list with numInList := list.numInList + 1 }
  let isIn ← list.isInList item
  assertThat isIn .listAppended
  return list

def prepend (list : LinkedList Item) (item : Item) :
    Except Fault (LinkedList Item) := do
  let element := list.allocated
  let list := list.newElement item
  let isIn ← list.isInList item
  assertThat (!isIn) .listPrepend
  let list ← list.linkFirst element
  let list := { list with numInList := list.numInList + 1 }
  let isIn ← list.isInList item
  assertThat isIn .listPrepended
  return list

def unlink (list : LinkedList Item) (item : Item) :
    Nat → Option Nat → Option Nat → Except Fault (LinkedList Item)
  | _, _, none => .error (.assertion .listRemoved)
  | 0, _, some _ => .error .endlessLoop
  | turns + 1, prev, some address => do
    let element ← list.element (some address)
    if item = element.item then
      list.skip prev address element.next
    else
      list.unlink item turns (some address) element.next

def takeOut (list : LinkedList Item) (item : Item) :
    Except Fault (LinkedList Item) := do
  let front ← list.element list.first
  if item = front.item then
    let (removed, rest) ← list.removeFront
    assertThat (item = removed) .listRemoved
    return rest
  else
    list.unlink item list.allocated list.first front.next

def remove (list : LinkedList Item) (item : Item) :
    Except Fault (LinkedList Item) := do
  let isIn ← list.isInList item
  assertThat isIn .listRemove
  let list ← list.takeOut item
  let isIn ← list.isInList item
  assertThat (!isIn) .listRemoved
  return list

end LinkedList

structure ListIterator where
  current : Option Nat

namespace ListIterator

variable {Item : Type}

def new (list : LinkedList Item) : ListIterator :=
  ⟨list.first⟩

def isDone (iterator : ListIterator) : Bool :=
  iterator.current = none

def item (list : LinkedList Item) (iterator : ListIterator) :
    Except Fault Item := do
  assertThat (!iterator.isDone) .listIterator
  let element ← list.element iterator.current
  return element.item

def next (list : LinkedList Item) (iterator : ListIterator) :
    Except Fault ListIterator := do
  let element ← list.element iterator.current
  return ⟨element.next⟩

end ListIterator

namespace LinkedList

variable {Item : Type}

/-! ## What a list holds -/

structure Threads (list : LinkedList Item) (path : List (Nat × Item)) :
    Prop where
  linked : Linked list.elements list.first path none
  apart : (path.map Prod.fst).Nodup
  allocated : ∀ address ∈ path.map Prod.fst, address < list.allocated
  isLast : list.last = (path.map Prod.fst).getLast?
  counted : list.numInList = path.length
  once : (path.map Prod.snd).Nodup

def Holds (list : LinkedList Item) (items : List Item) : Prop :=
  ∃ path, list.Threads path ∧ path.map Prod.snd = items

variable {list : LinkedList Item} {path : List (Nat × Item)} {items : List Item}

theorem holds_new : (new : LinkedList Item).Holds [] :=
  ⟨[], ⟨rfl, List.nodup_nil, by simp, rfl, rfl, List.nodup_nil⟩, rfl⟩

theorem Holds.nodup (holds : list.Holds items) : items.Nodup := by
  obtain ⟨path, threads, rfl⟩ := holds
  exact threads.once

theorem Holds.numInList (holds : list.Holds items) :
    list.numInList = items.length := by
  obtain ⟨path, threads, rfl⟩ := holds
  rw [threads.counted, List.length_map]

theorem Holds.isEmpty_iff (holds : list.Holds items) :
    list.isEmpty = true ↔ items = [] := by
  unfold isEmpty
  rw [holds.numInList, decide_eq_true_iff]
  simp

theorem Threads.length_le (threads : list.Threads path) :
    path.length ≤ list.allocated := by
  have subset : path.map Prod.fst ⊆ List.range list.allocated := by
    intro address member
    exact List.mem_range.mpr (threads.allocated address member)
  have short := (List.subperm_of_subset threads.apart subset).length_le
  rwa [List.length_map, List.length_range] at short

theorem Threads.newElement (threads : list.Threads path) (item : Item) :
    (list.newElement item).Threads path := by
  refine ⟨threads.linked.update_of_notMem ?_ _, threads.apart, ?_,
    threads.isLast, threads.counted, threads.once⟩
  · intro member
    exact absurd (threads.allocated _ member) (Nat.lt_irrefl _)
  · intro address member
    exact (threads.allocated address member).trans (Nat.lt_succ_self _)

theorem element_of_linked
    {address : Nat} {item : Item} {start stop : Option Nat}
    (linked : Linked list.elements start ((address, item) :: path) stop) :
    ∃ next, list.element start = .ok ⟨item, next⟩ ∧
      Linked list.elements next path stop := by
  obtain ⟨rfl, next, stored, linked⟩ := linked
  refine ⟨next, ?_, linked⟩
  unfold element
  rw [Option.bind_some, stored]

theorem setNext_eq
    {address : Nat} {item : Item} {old : Option Nat}
    (stored : list.elements address = some ⟨item, old⟩) (next : Option Nat) :
    list.setNext (some address) next =
      .ok { list with
        elements :=
          Function.update list.elements address (some ⟨item, next⟩) } := by
  unfold setNext
  dsimp only
  rw [stored]

theorem ne_getLast?
    {address other : Nat} {addresses : List Nat}
    (apart : (address :: other :: addresses).Nodup) :
    some address ≠ (address :: other :: addresses).getLast? := by
  rw [List.getLast?_cons_cons]
  intro same
  exact (List.nodup_cons.mp apart).1 (List.mem_of_getLast? same.symm)

/-! ## Sanity -/

theorem countToLast_eq
    {rest : List (Nat × Item)} {turns : Nat} {numFound : Int}
    {pointer : Option Nat}
    (linked : Linked list.elements pointer rest none)
    (apart : (rest.map Prod.fst).Nodup)
    (isLast : list.last = (rest.map Prod.fst).getLast?) (nonempty : rest ≠ [])
    (counted : numFound + rest.length = list.numInList + 1)
    (enough : rest.length ≤ turns + 1) :
    list.countToLast turns numFound pointer = .ok list.numInList := by
  induction rest generalizing turns numFound pointer with
  | nil =>
    exact absurd rfl nonempty
  | cons entry rest ih =>
    obtain ⟨address, item⟩ := entry
    obtain ⟨next, isElement, linkedRest⟩ := element_of_linked linked
    have isPointer : pointer = some address := linked.1
    unfold countToLast
    cases rest with
    | nil =>
      rw [if_pos (by rw [isPointer, isLast]; rfl)]
      have isCount : numFound = list.numInList := by
        simp only [List.length_singleton] at counted
        omega
      rw [isCount]
    | cons entry' rest =>
      have other : pointer ≠ list.last := by
        rw [isPointer, isLast]
        exact ne_getLast? apart
      simp only [List.length_cons] at counted enough
      rw [if_neg other]
      match turns with
      | 0 => omega
      | turns + 1 =>
        dsimp only
        rw [decide_eq_true (show numFound + 1 ≤ list.numInList by omega),
          assertThat_true, ok_bind, isElement, ok_bind]
        refine ih linkedRest (List.nodup_cons.mp apart).2 isLast (by simp) ?_ ?_
        · simp only [List.length_cons]
          omega
        · simp only [List.length_cons]
          omega

theorem Threads.element_last
    (threads : list.Threads path) (nonempty : path ≠ []) :
    ∃ item, list.element list.last = .ok ⟨item, none⟩ := by
  obtain ⟨front, ⟨address, item⟩, rfl⟩ :=
    (List.eq_nil_or_concat' path).resolve_left nonempty
  obtain ⟨middle, _, linked⟩ := Linked.append_iff.mp threads.linked
  obtain ⟨next, isElement, isEnd⟩ := element_of_linked linked
  have isLast : list.last = middle := by
    rw [threads.isLast, linked.1, List.map_append, List.map_singleton,
      List.getLast?_concat]
  rw [Linked.nil_iff] at isEnd
  rw [isEnd, ← isLast] at isElement
  exact ⟨item, isElement⟩

theorem Threads.numInList_of_single
    {entry : Nat × Item} (threads : list.Threads (entry :: path))
    (single : list.first = list.last) :
    list.numInList = 1 := by
  cases path with
  | nil =>
    exact threads.counted
  | cons entry' path =>
    have isLast := threads.isLast
    rw [← single, threads.linked.1] at isLast
    exact absurd isLast (ne_getLast? threads.apart)

theorem Holds.sanityCheck_eq (holds : list.Holds items) :
    list.sanityCheck = .ok () := by
  obtain ⟨path, threads, _⟩ := holds
  unfold sanityCheck
  match path, threads with
  | [], threads =>
    have isFirst : list.first = none := threads.linked
    rw [if_pos isFirst]
    exact congrArg (assertThat · _)
      (decide_eq_true ⟨threads.counted, threads.isLast⟩)
  | (address, item) :: rest, threads =>
    have isFirst : list.first = some address := threads.linked.1
    obtain ⟨_, isElement⟩ := threads.element_last (by simp)
    rw [if_neg (by rw [isFirst]; simp)]
    by_cases single : list.first = list.last
    · rw [if_pos single, isElement, ok_bind]
      exact congrArg (assertThat · _)
        (decide_eq_true ⟨threads.numInList_of_single single, rfl⟩)
    · rw [if_neg single,
        countToLast_eq threads.linked threads.apart threads.isLast (by simp)
          (by rw [threads.counted]; omega)
          (by rw [threads.counted]; simp), ok_bind, decide_eq_true rfl,
        assertThat_true, ok_bind, isElement]
      rfl

/-! ## Operations -/

theorem Holds.removeFront_eq
    {item : Item} (holds : list.Holds (item :: items)) :
    ∃ rest, list.removeFront = .ok (item, rest) ∧ rest.Holds items := by
  obtain ⟨path, threads, isPath⟩ := holds
  match path, threads, isPath with
  | (address, item) :: path, threads, rfl =>
    obtain ⟨next, isElement, linked⟩ := element_of_linked threads.linked
    obtain ⟨fresh, apart⟩ := List.nodup_cons.mp threads.apart
    have isFirst : list.first = some address := threads.linked.1
    have counted := threads.counted
    have occupied : list.isEmpty = false := by
      unfold isEmpty
      rw [counted]
      apply decide_eq_false
      simp only [List.length_cons]
      omega
    unfold removeFront
    rw [occupied, Bool.not_false, assertThat_true, ok_bind, isElement, ok_bind]
    cases path with
    | nil =>
      have single : list.first = list.last := by
        rw [isFirst, threads.isLast]
        rfl
      rw [if_pos single, isFirst]
      refine ⟨_, rfl, [], ⟨rfl, apart, by simp, rfl, ?_, List.nodup_nil⟩, rfl⟩
      change list.numInList - 1 = 0
      rw [counted]
      rfl
    | cons entry path =>
      have several : list.first ≠ list.last := by
        rw [isFirst, threads.isLast]
        exact ne_getLast? threads.apart
      rw [if_neg several, isFirst]
      refine ⟨_, rfl, entry :: path,
        ⟨linked.update_of_notMem fresh none, apart, ?_, threads.isLast, ?_,
          (List.nodup_cons.mp threads.once).2⟩, rfl⟩
      · intro other member
        exact threads.allocated other (List.mem_cons_of_mem _ member)
      · change list.numInList - 1 = ((entry :: path).length : Int)
        rw [counted, List.length_cons]
        omega

theorem Threads.fresh (threads : list.Threads path) :
    list.allocated ∉ path.map Prod.fst := by
  intro member
  exact absurd (threads.allocated _ member) (Nat.lt_irrefl _)

theorem Threads.grow
    {longer : LinkedList Item} {longerPath : List (Nat × Item)}
    (threads : list.Threads path) {item : Item}
    (absent : item ∉ path.map Prod.snd)
    (grown : longerPath.Perm ((list.allocated, item) :: path))
    (linked : Linked longer.elements longer.first longerPath none)
    (allocated : longer.allocated = list.allocated + 1)
    (isLast : longer.last = (longerPath.map Prod.fst).getLast?)
    (counted : longer.numInList = list.numInList + 1) :
    longer.Threads longerPath := by
  refine ⟨linked, ?_, ?_, isLast, ?_, ?_⟩
  · rw [(grown.map Prod.fst).nodup_iff, List.map_cons]
    exact List.nodup_cons.mpr ⟨threads.fresh, threads.apart⟩
  · intro address member
    rw [(grown.map Prod.fst).mem_iff, List.map_cons, List.mem_cons] at member
    rw [allocated]
    rcases member with isNew | earlier
    · omega
    · exact (threads.allocated address earlier).trans (Nat.lt_succ_self _)
  · rw [counted, threads.counted, grown.length_eq, List.length_cons]
    rfl
  · rw [(grown.map Prod.snd).nodup_iff, List.map_cons]
    exact List.nodup_cons.mpr ⟨absent, threads.once⟩

theorem Threads.only
    (threads : list.Threads []) {item : Item} :
    { list.newElement item with
        first := some list.allocated
        last := some list.allocated
        numInList := list.numInList + 1 }.Threads
      [(list.allocated, item)] := by
  refine threads.grow (by simp) (List.Perm.refl _) ⟨rfl, none, ?_, rfl⟩ rfl rfl
    rfl
  exact Function.update_self _ _ _

theorem Threads.isEmpty_eq
    (threads : list.Threads path) (nonempty : path ≠ []) :
    list.isEmpty = false := by
  apply decide_eq_false
  rw [threads.counted, Int.natCast_eq_zero, List.length_eq_zero_iff]
  exact nonempty

theorem Threads.linkLast_eq
    (threads : list.Threads path) {item : Item}
    (absent : item ∉ path.map Prod.snd) :
    ∃ longer, (list.newElement item).linkLast list.allocated = .ok longer ∧
      { longer with numInList := longer.numInList + 1 }.Threads
        (path ++ [(list.allocated, item)]) := by
  unfold linkLast
  rcases List.eq_nil_or_concat' path with rfl | ⟨front, ⟨address, held⟩, rfl⟩
  · have nothing : (list.newElement item).isEmpty = true :=
      decide_eq_true threads.counted
    rw [if_pos nothing]
    exact ⟨_, rfl, threads.only⟩
  · have occupied : (list.newElement item).isEmpty = false :=
      (threads.newElement item).isEmpty_eq (by simp)
    have isLast : (list.newElement item).last = some address := by
      rw [(threads.newElement item).isLast, List.map_append, List.map_singleton,
        List.getLast?_concat]
    obtain ⟨next, stored, isEnd, linked⟩ :=
      threads.linked.insertAfter threads.apart threads.fresh item
    obtain rfl : next = none := Linked.nil_iff.mp isEnd
    have other : address ≠ list.allocated := by
      rintro rfl
      exact threads.fresh (by simp)
    have isElement :
        (list.newElement item).elements address = some ⟨held, none⟩ :=
      (Function.update_of_ne other _ _).trans stored
    rw [occupied, if_neg Bool.false_ne_true, isLast, setNext_eq isElement,
      ok_bind]
    refine ⟨_, rfl, threads.grow absent (List.perm_append_singleton _ _) ?_ rfl
      ?_ rfl⟩
    · rw [List.append_assoc]
      exact linked
    · rw [List.map_append, List.map_singleton, List.getLast?_concat]

theorem Threads.linkFirst_eq
    (threads : list.Threads path) {item : Item}
    (absent : item ∉ path.map Prod.snd) :
    ∃ longer, (list.newElement item).linkFirst list.allocated = .ok longer ∧
      { longer with numInList := longer.numInList + 1 }.Threads
        ((list.allocated, item) :: path) := by
  unfold linkFirst
  cases path with
  | nil =>
    have nothing : (list.newElement item).isEmpty = true :=
      decide_eq_true threads.counted
    rw [if_pos nothing]
    exact ⟨_, rfl, threads.only⟩
  | cons entry path =>
    have occupied : (list.newElement item).isEmpty = false :=
      (threads.newElement item).isEmpty_eq (by simp)
    have stored :
        (list.newElement item).elements list.allocated = some ⟨item, none⟩ :=
      Function.update_self _ _ _
    rw [occupied, if_neg Bool.false_ne_true, setNext_eq stored, ok_bind]
    refine ⟨_, rfl, threads.grow absent (List.Perm.refl _) ?_ rfl ?_ rfl⟩
    · refine ⟨rfl, list.first, Function.update_self _ _ _, ?_⟩
      exact (threads.newElement item).linked.update_of_notMem threads.fresh _
    · rw [List.map_cons, List.map_cons, List.getLast?_cons_cons]
      exact threads.isLast

theorem Threads.skip_eq
    {front rest : List (Nat × Item)} {prev address : Nat} {before held : Item}
    {next : Option Nat}
    (threads : list.Threads (front ++ (prev, before) :: (address, held) :: rest))
    (linkedRest : Linked list.elements next rest none) :
    ∃ shorter, list.skip (some prev) address next = .ok shorter ∧
      shorter.Threads (front ++ (prev, before) :: rest) := by
  have kept :
      (front ++ (prev, before) :: rest).Sublist
        (front ++ (prev, before) :: (address, held) :: rest) :=
    ((List.sublist_cons_self _ _).cons_cons _).append_left front
  obtain ⟨middle, linkedFront, isPrev, after, storedPrev, _⟩ :=
    Linked.append_iff.mp threads.linked
  have linkedPrev :
      Linked list.elements list.first (front ++ [(prev, before)]) after :=
    Linked.append_iff.mpr ⟨middle, linkedFront, isPrev, after, storedPrev, rfl⟩
  have apart := threads.apart
  simp only [List.map_append, List.map_cons, List.nodup_append,
    List.nodup_cons, List.mem_cons] at apart
  obtain ⟨_, ⟨prevFresh, addressFresh, _⟩, frontApart⟩ := apart
  have prevApart : prev ∉ front.map Prod.fst := fun member =>
    frontApart prev member prev (Or.inl rfl) rfl
  have joined :
      Linked (Function.update list.elements prev (some ⟨before, next⟩)) list.first
        (front ++ (prev, before) :: rest) none := by
    rw [← List.singleton_append, ← List.append_assoc]
    refine Linked.append_iff.mpr ⟨next, linkedPrev.redirect prevApart next, ?_⟩
    exact linkedRest.update_of_notMem (fun member => prevFresh (Or.inr member)) _
  have addressApart :
      address ∉ (front ++ (prev, before) :: rest).map Prod.fst := by
    simp only [List.map_append, List.map_cons, List.mem_append, List.mem_cons,
      not_or]
    exact ⟨fun member => frontApart address member address (by simp) rfl,
      fun same => prevFresh (Or.inl same.symm), addressFresh⟩
  have isLast :
      (if next = none then some prev else list.last) =
        ((front ++ (prev, before) :: rest).map Prod.fst).getLast? := by
    cases rest with
    | nil =>
      rw [if_pos (Linked.nil_iff.mp linkedRest)]
      simp
    | cons entry rest =>
      rw [if_neg (by rw [linkedRest.1]; simp), threads.isLast]
      simp [List.getLast?_append]
  unfold skip
  rw [setNext_eq storedPrev, ok_bind]
  refine ⟨_, rfl, ?_, threads.apart.sublist (kept.map _), ?_, ?_, ?_,
    threads.once.sublist (kept.map _)⟩
  · have linked := joined.update_of_notMem addressApart none
    split_ifs <;> exact linked
  · intro other member
    have below := threads.allocated other ((kept.map _).subset member)
    split_ifs <;> exact below
  · split_ifs at isLast ⊢ <;> exact isLast
  · have counted :
        list.numInList - 1 = (front ++ (prev, before) :: rest).length := by
      rw [threads.counted]
      simp only [List.length_append, List.length_cons]
      omega
    split_ifs <;> exact counted

section Items

variable [DecidableEq Item]

theorem isInListFrom_eq
    {turns : Nat} {pointer : Option Nat}
    (linked : Linked list.elements pointer path none)
    (enough : path.length ≤ turns) (item : Item) :
    list.isInListFrom item turns pointer = .ok (item ∈ path.map Prod.snd) := by
  induction path generalizing turns pointer with
  | nil =>
    rw [Linked.nil_iff.mp linked]
    cases turns <;> rfl
  | cons entry path ih =>
    obtain ⟨address, stored⟩ := entry
    obtain ⟨next, isElement, linkedRest⟩ := element_of_linked linked
    obtain rfl : pointer = some address := linked.1
    match turns, enough with
    | turns + 1, enough =>
      unfold isInListFrom
      rw [isElement, ok_bind]
      by_cases same : item = stored
      · rw [if_pos same, List.map_cons,
          decide_eq_true (List.mem_cons.mpr (Or.inl same))]
      · rw [if_neg same,
          ih linkedRest (Nat.le_of_succ_le_succ enough)]
        congr 1
        simp only [List.map_cons, List.mem_cons, same, false_or]

theorem Threads.isInList_eq (threads : list.Threads path) (item : Item) :
    list.isInList item = .ok (item ∈ path.map Prod.snd) :=
  isInListFrom_eq threads.linked threads.length_le item

theorem Holds.isInList_eq (holds : list.Holds items) (item : Item) :
    list.isInList item = .ok (item ∈ items) := by
  obtain ⟨path, threads, rfl⟩ := holds
  exact threads.isInList_eq item

theorem Holds.append_eq
    (holds : list.Holds items) {item : Item} (absent : item ∉ items) :
    ∃ longer, list.append item = .ok longer ∧ longer.Holds (items ++ [item]) := by
  obtain ⟨path, threads, rfl⟩ := holds
  obtain ⟨longer, isLonger, threads'⟩ := threads.linkLast_eq absent
  refine ⟨{ longer with numInList := longer.numInList + 1 }, ?_,
    path ++ [(list.allocated, item)], threads', by simp⟩
  unfold append
  dsimp only
  rw [(threads.newElement item).isInList_eq, ok_bind, decide_eq_false absent,
    Bool.not_false, assertThat_true, ok_bind, isLonger, ok_bind,
    threads'.isInList_eq, ok_bind, decide_eq_true (by simp)]
  rfl

theorem Holds.prepend_eq
    (holds : list.Holds items) {item : Item} (absent : item ∉ items) :
    ∃ longer, list.prepend item = .ok longer ∧ longer.Holds (item :: items) := by
  obtain ⟨path, threads, rfl⟩ := holds
  obtain ⟨longer, isLonger, threads'⟩ := threads.linkFirst_eq absent
  refine ⟨{ longer with numInList := longer.numInList + 1 }, ?_,
    (list.allocated, item) :: path, threads', by simp⟩
  unfold prepend
  dsimp only
  rw [(threads.newElement item).isInList_eq, ok_bind, decide_eq_false absent,
    Bool.not_false, assertThat_true, ok_bind, isLonger, ok_bind,
    threads'.isInList_eq, ok_bind, decide_eq_true (by simp)]
  rfl

theorem unlink_eq
    {front rest : List (Nat × Item)} {prev : Nat} {before : Item} {turns : Nat}
    {pointer : Option Nat} {item : Item}
    (threads : list.Threads (front ++ (prev, before) :: rest))
    (linked : Linked list.elements pointer rest none)
    (enough : rest.length ≤ turns) (present : item ∈ rest.map Prod.snd) :
    ∃ shorter, list.unlink item turns (some prev) pointer = .ok shorter ∧
      shorter.Holds
        (front.map Prod.snd ++ before :: (rest.map Prod.snd).erase item) := by
  induction rest generalizing front prev before turns pointer with
  | nil =>
    cases present
  | cons entry rest ih =>
    obtain ⟨address, stored⟩ := entry
    obtain ⟨next, isElement, linkedRest⟩ := element_of_linked linked
    obtain rfl : pointer = some address := linked.1
    match turns, enough with
    | turns + 1, enough =>
      unfold unlink
      rw [isElement, ok_bind]
      by_cases same : item = stored
      · obtain ⟨shorter, isShorter, shorterThreads⟩ :=
          threads.skip_eq linkedRest
        rw [if_pos same]
        refine ⟨shorter, isShorter, front ++ (prev, before) :: rest,
          shorterThreads, ?_⟩
        rw [same, List.map_append, List.map_cons, List.map_cons,
          List.erase_cons_head]
      · have threads' :
            list.Threads ((front ++ [(prev, before)]) ++
              (address, stored) :: rest) := by
          rw [List.append_assoc]
          exact threads
        obtain ⟨shorter, isShorter, holds⟩ :=
          ih threads' linkedRest
            (Nat.le_of_succ_le_succ enough)
            ((List.mem_cons.mp present).resolve_left same)
        rw [if_neg same]
        refine ⟨shorter, isShorter, ?_⟩
        rw [List.map_cons, List.erase_cons_tail (by simpa using Ne.symm same)]
        rw [List.map_append, List.append_assoc] at holds
        exact holds

theorem Holds.takeOut_eq
    (holds : list.Holds items) {item : Item} (present : item ∈ items) :
    ∃ shorter, list.takeOut item = .ok shorter ∧
      shorter.Holds (items.erase item) := by
  unfold takeOut
  match items, holds, present with
  | front :: items, holds, present =>
    obtain ⟨path, threads, isPath⟩ := holds
    match path, threads, isPath with
    | (address, front) :: path, threads, rfl =>
      obtain ⟨next, isElement, linked⟩ := element_of_linked threads.linked
      rw [isElement, ok_bind]
      by_cases same : item = front
      · obtain ⟨rest, isRest, restHolds⟩ :=
          Holds.removeFront_eq ⟨_, threads, List.map_cons⟩
        rw [if_pos same, isRest, ok_bind]
        dsimp only
        rw [decide_eq_true same, same, List.erase_cons_head]
        exact ⟨rest, rfl, restHolds⟩
      · obtain ⟨shorter, isShorter, shorterHolds⟩ :=
          @unlink_eq _ list _ [] path address front list.allocated next item
            threads linked (Nat.le_of_succ_le threads.length_le)
            ((List.mem_cons.mp present).resolve_left same)
        rw [if_neg same, threads.linked.1,
          List.erase_cons_tail (by simpa using Ne.symm same)]
        exact ⟨shorter, isShorter, shorterHolds⟩

theorem Holds.remove_eq
    (holds : list.Holds items) {item : Item} (present : item ∈ items) :
    ∃ shorter, list.remove item = .ok shorter ∧
      shorter.Holds (items.erase item) := by
  obtain ⟨shorter, isShorter, shorterHolds⟩ := holds.takeOut_eq present
  have gone : item ∉ items.erase item := by
    rw [holds.nodup.mem_erase_iff]
    exact fun both => both.1 rfl
  refine ⟨shorter, ?_, shorterHolds⟩
  unfold remove
  rw [holds.isInList_eq, ok_bind, decide_eq_true present, assertThat_true,
    ok_bind, isShorter, ok_bind, shorterHolds.isInList_eq, ok_bind,
    decide_eq_false gone]
  rfl

end Items

end LinkedList

end Nachos
