import Nachos.Foundation.StableQueue
import Nachos.Lib.ListCalls

/-!
# `SortedList`

`SortedList<T>` of `lib/list.cc` with its elements.  With a comparison function
that orders the items, a list that `Insert`, `RemoveFront` and `Remove` are
called on is a stable priority queue.
-/

namespace Nachos

open Foundation

namespace SortedList

variable {Item : Type}

/-- The loop of `Insert`, from the element at `ptr` on.  The new element is
linked in before the first one that is bigger, if there is one. -/
def linkBefore
    (compare : Item → Item → Int) (list : LinkedList Item) (item : Item)
    (element : Nat) :
    Nat → Option Nat → Except Fault (Option (LinkedList Item))
  | 0, _ => .error .endlessLoop
  | turns + 1, ptr => do
    let current ← list.element ptr
    match current.next with
    | none => return none
    | some address =>
      let bigger ← list.element (some address)
      if compare item bigger.item < 0 then
        let list ← list.setNext (some element) (some address)
        let list ← list.setNext ptr (some element)
        return some { list with numInList := list.numInList + 1 }
      else
        linkBefore compare list item element turns (some address)

def inOrderFrom
    (compare : Item → Item → Int) (list : LinkedList Item) :
    Nat → Item → Option Nat → Except Fault Unit
  | _, _, none => .ok ()
  | 0, _, some _ => .error .endlessLoop
  | turns + 1, previous, some address => do
    let element ← list.element (some address)
    assertThat (compare previous element.item ≤ 0) .sortedListSanity
    inOrderFrom compare list turns element.item element.next

def sanityCheck (compare : Item → Item → Int) (list : LinkedList Item) :
    Except Fault Unit := do
  list.sanityCheck
  if list.first ≠ list.last then
    let front ← list.element list.first
    inOrderFrom compare list list.allocated front.item front.next

variable [DecidableEq Item]

/-- The end of `Insert`, which an item put in the middle does not reach. -/
def finishInsert (list : LinkedList Item) (item : Item) :
    Except Fault (LinkedList Item) := do
  let list := { list with numInList := list.numInList + 1 }
  let isIn ← list.isInList item
  assertThat isIn .sortedListInserted
  return list

def insert
    (compare : Item → Item → Int) (list : LinkedList Item) (item : Item) :
    Except Fault (LinkedList Item) := do
  let element := list.allocated
  let list := list.newElement item
  let isIn ← list.isInList item
  assertThat (!isIn) .sortedListInsert
  if list.isEmpty then
    finishInsert { list with first := some element, last := some element } item
  else
    let front ← list.element list.first
    if compare item front.item < 0 then
      let list ← list.setNext (some element) list.first
      finishInsert { list with first := some element } item
    else
      match ← linkBefore compare list item element list.allocated list.first with
      | some list => return list
      | none =>
        let list ← list.setNext list.last (some element)
        finishInsert { list with last := some element } item

/-! ## Insertion -/

variable {compare : Item → Item → Int} {list : LinkedList Item}
variable {items : List Item} {item : Item}

omit [DecidableEq Item] in
theorem linkBetween_eq
    {front rest : List (Nat × Item)} {prev address : Nat} {before held : Item}
    (threads :
      list.Threads (front ++ (prev, before) :: (address, held) :: rest))
    (absent :
      item ∉ (front ++ (prev, before) :: (address, held) :: rest).map
        Prod.snd) :
    ∃ linked longer,
      (list.newElement item).setNext (some list.allocated) (some address) =
          .ok linked ∧
        linked.setNext (some prev) (some list.allocated) = .ok longer ∧
        { longer with numInList := longer.numInList + 1 }.Threads
          (front ++ (prev, before) :: (list.allocated, item) ::
            (address, held) :: rest) := by
  obtain ⟨next, stored, isNext, linked⟩ :=
    threads.linked.insertAfter threads.apart threads.fresh item
  obtain rfl : next = some address := isNext.1
  have other : prev ≠ list.allocated := by
    rintro rfl
    exact threads.fresh (by simp)
  have isNew :
      (list.newElement item).elements list.allocated = some ⟨item, none⟩ :=
    Function.update_self _ _ _
  have isElements :
      Function.update (list.newElement item).elements list.allocated
          (some ⟨item, some address⟩) =
        Function.update list.elements list.allocated
          (some ⟨item, some address⟩) :=
    Function.update_idem _ _ _
  have isPrev :
      Function.update (list.newElement item).elements list.allocated
          (some ⟨item, some address⟩) prev = some ⟨before, some address⟩ := by
    rw [isElements, Function.update_of_ne other]
    exact stored
  refine ⟨_, _, LinkedList.setNext_eq isNew _, LinkedList.setNext_eq isPrev _,
    threads.grow absent ?_ ?_ rfl ?_ rfl⟩
  · exact ((List.Perm.swap _ _ _).append_left front).trans List.perm_middle
  · dsimp only
    rw [isElements]
    exact linked
  · refine threads.isLast.trans ?_
    simp [List.getLast?_append]

omit [DecidableEq Item] in
/-- The loop of `Insert` finds the place before the first bigger item, or there
is none. -/
theorem linkBefore_eq
    {front rest : List (Nat × Item)} {prev : Nat} {before : Item} {turns : Nat}
    (threads : list.Threads (front ++ (prev, before) :: rest))
    (absent : item ∉ (front ++ (prev, before) :: rest).map Prod.snd)
    (enough : rest.length < turns) :
    (∃ longer,
        linkBefore compare (list.newElement item) item list.allocated turns
            (some prev) = .ok (some longer) ∧
          longer.Holds
            (front.map Prod.snd ++ before ::
              (rest.map Prod.snd).orderedInsert
                (fun new old => compare new old < 0) item)) ∨
      (linkBefore compare (list.newElement item) item list.allocated turns
          (some prev) = .ok none ∧
        (rest.map Prod.snd).orderedInsert (fun new old => compare new old < 0)
          item = rest.map Prod.snd ++ [item]) := by
  obtain ⟨turns, rfl⟩ := Nat.exists_eq_succ_of_ne_zero (Nat.ne_zero_of_lt enough)
  induction rest generalizing front prev before turns with
  | nil =>
    right
    obtain ⟨middle, _, linked⟩ :=
      Linked.append_iff.mp (threads.newElement item).linked
    obtain ⟨next, isElement, isEnd⟩ := LinkedList.element_of_linked linked
    obtain rfl : middle = some prev := linked.1
    obtain rfl : next = none := Linked.nil_iff.mp isEnd
    refine ⟨?_, rfl⟩
    unfold linkBefore
    rw [isElement]
    rfl
  | cons entry rest ih =>
    obtain ⟨address, held⟩ := entry
    obtain ⟨middle, _, linked⟩ :=
      Linked.append_iff.mp (threads.newElement item).linked
    obtain ⟨next, isElement, linkedRest⟩ := LinkedList.element_of_linked linked
    obtain rfl : middle = some prev := linked.1
    obtain rfl : next = some address := linkedRest.1
    obtain ⟨_, isBigger, _⟩ := LinkedList.element_of_linked linkedRest
    have enough : rest.length < turns := Nat.lt_of_succ_lt_succ enough
    unfold linkBefore
    rw [isElement, ok_bind]
    dsimp only
    rw [isBigger, ok_bind, List.map_cons, List.orderedInsert_cons]
    dsimp only
    by_cases smaller : compare item held < 0
    · left
      obtain ⟨linked, longer, isLinked, isLonger, longerThreads⟩ :=
        linkBetween_eq threads absent
      rw [if_pos smaller, if_pos smaller, isLinked, ok_bind, isLonger]
      exact ⟨_, rfl, _, longerThreads, by simp⟩
    · obtain ⟨turns, rfl⟩ :=
        Nat.exists_eq_succ_of_ne_zero (Nat.ne_zero_of_lt enough)
      rw [if_neg smaller, if_neg smaller]
      rw [List.append_cons] at threads absent
      rcases ih threads absent turns enough with
        ⟨longer, isLonger, holds⟩ | ⟨nothing, isEnd⟩
      · left
        refine ⟨longer, isLonger, ?_⟩
        rw [List.map_append, List.append_assoc] at holds
        exact holds
      · right
        exact ⟨nothing, by rw [isEnd]; rfl⟩

theorem finishInsert_eq
    {path : List (Nat × Item)}
    (threads : { list with numInList := list.numInList + 1 }.Threads path)
    (present : item ∈ path.map Prod.snd) :
    finishInsert list item =
      .ok { list with numInList := list.numInList + 1 } := by
  unfold finishInsert
  dsimp only
  rw [threads.isInList_eq, ok_bind, decide_eq_true present]
  rfl

/-- `Insert` links the new element in where the ordered list has it. -/
theorem insert_eq
    (holds : list.Holds items) (absent : item ∉ items) :
    ∃ longer, insert compare list item = .ok longer ∧
      longer.Holds
        (items.orderedInsert (fun new old => compare new old < 0) item) := by
  obtain ⟨path, threads, rfl⟩ := holds
  unfold insert
  dsimp only
  rw [(threads.newElement item).isInList_eq, ok_bind, decide_eq_false absent,
    Bool.not_false, assertThat_true, ok_bind]
  match path, threads, absent with
  | [], threads, absent =>
    have nothing : (list.newElement item).isEmpty = true :=
      decide_eq_true threads.counted
    rw [if_pos nothing, finishInsert_eq threads.only (by simp)]
    exact ⟨_, rfl, _, threads.only, rfl⟩
  | (address, first) :: path, threads, absent =>
    have occupied : (list.newElement item).isEmpty = false :=
      (threads.newElement item).isEmpty_eq (by simp)
    obtain ⟨next, isElement, _⟩ :=
      LinkedList.element_of_linked (threads.newElement item).linked
    rw [occupied, if_neg Bool.false_ne_true, isElement, ok_bind,
      List.map_cons, List.orderedInsert_cons]
    dsimp only
    by_cases smaller : compare item first < 0
    · obtain ⟨longer, isLonger, longerThreads⟩ := threads.linkFirst_eq absent
      unfold LinkedList.linkFirst at isLonger
      rw [occupied, if_neg Bool.false_ne_true] at isLonger
      obtain ⟨linked, isLinked, isResult⟩ := exists_of_bind_eq_ok isLonger
      obtain rfl := Except.ok.inj isResult
      rw [if_pos smaller, if_pos smaller, isLinked, ok_bind,
        finishInsert_eq longerThreads (by simp)]
      exact ⟨_, rfl, _, longerThreads, by simp⟩
    · rw [if_neg smaller, if_neg smaller]
      have isFirst : (list.newElement item).first = some address :=
        threads.linked.1
      have enough : path.length < (list.newElement item).allocated :=
        Nat.lt_succ_of_lt threads.length_le
      rw [isFirst]
      rcases @linkBefore_eq _ compare list item [] path address first _ threads
          absent enough with
        ⟨longer, isLonger, holds⟩ | ⟨nothing, isEnd⟩
      · rw [isLonger, ok_bind]
        exact ⟨longer, rfl, holds⟩
      · obtain ⟨longer, isLonger, longerThreads⟩ := threads.linkLast_eq absent
        unfold LinkedList.linkLast at isLonger
        rw [occupied, if_neg Bool.false_ne_true] at isLonger
        obtain ⟨linked, isLinked, isResult⟩ := exists_of_bind_eq_ok isLonger
        obtain rfl := Except.ok.inj isResult
        rw [nothing, ok_bind]
        dsimp only
        rw [isLinked, ok_bind, finishInsert_eq longerThreads (by simp), isEnd]
        exact ⟨_, rfl, _, longerThreads, by simp⟩

/-! ## Sorted lists as queues -/

/-- `compare` is a total preorder: its sign tells the smaller of two items. -/
structure IsOrder (compare : Item → Item → Int) : Prop where
  opposite : ∀ first second, compare first second < 0 ↔ 0 < compare second first
  trans :
    ∀ first second third,
      compare first second ≤ 0 → compare second third ≤ 0 →
        compare first third ≤ 0

abbrev NoBigger (compare : Item → Item → Int) (first second : Item) : Prop :=
  compare first second ≤ 0

omit [DecidableEq Item] in
theorem IsOrder.total (order : IsOrder compare) :
    Std.Total (NoBigger compare) := by
  constructor
  intro first second
  have opposite := order.opposite second first
  unfold NoBigger
  omega

omit [DecidableEq Item] in
theorem IsOrder.isTrans (order : IsOrder compare) :
    IsTrans Item (NoBigger compare) :=
  ⟨order.trans⟩

omit [DecidableEq Item] in
theorem IsOrder.lt_zero_iff
    (order : IsOrder compare) (new old : Item) :
    compare new old < 0 ↔ ¬ NoBigger compare old new := by
  rw [order.opposite, NoBigger, not_le]

omit [DecidableEq Item] in
theorem inOrderFrom_eq
    {path : List (Nat × Item)} {turns : Nat} {previous : Item}
    {pointer : Option Nat}
    (linked : Linked list.elements pointer path none)
    (enough : path.length ≤ turns)
    (sorted : (previous :: path.map Prod.snd).Pairwise (NoBigger compare)) :
    inOrderFrom compare list turns previous pointer = .ok () := by
  induction path generalizing turns previous pointer with
  | nil =>
    rw [Linked.nil_iff.mp linked]
    cases turns <;> rfl
  | cons entry path ih =>
    obtain ⟨address, held⟩ := entry
    obtain ⟨next, isElement, linkedRest⟩ := LinkedList.element_of_linked linked
    obtain rfl : pointer = some address := linked.1
    obtain ⟨least, restSorted⟩ := List.pairwise_cons.mp sorted
    match turns, enough with
    | turns + 1, enough =>
      unfold inOrderFrom
      rw [isElement, ok_bind]
      dsimp only
      rw [decide_eq_true (least held List.mem_cons_self), assertThat_true,
        ok_bind]
      exact ih linkedRest (Nat.le_of_succ_le_succ enough) restSorted

omit [DecidableEq Item] in
theorem sanityCheck_eq
    (holds : list.Holds items) (sorted : items.Pairwise (NoBigger compare)) :
    sanityCheck compare list = .ok () := by
  unfold sanityCheck
  rw [holds.sanityCheck_eq, ok_bind]
  obtain ⟨path, threads, rfl⟩ := holds
  cases path with
  | nil =>
    have single : list.first = list.last := threads.linked.trans
      threads.isLast.symm
    rw [if_neg (not_not.mpr single)]
    rfl
  | cons entry path =>
    obtain ⟨address, held⟩ := entry
    obtain ⟨next, isElement, linked⟩ :=
      LinkedList.element_of_linked threads.linked
    split_ifs with several
    · rw [isElement, ok_bind]
      exact inOrderFrom_eq linked (Nat.le_of_succ_le threads.length_le) sorted
    · rfl

def perform (compare : Item → Item → Int) (list : LinkedList Item) :
    StableQueue.Call Item → Except Fault (Option Item × LinkedList Item)
  | .insert item => do return (none, ← insert compare list item)
  | .removeFront => do
    let (item, list) ← list.removeFront
    return (some item, list)
  | .remove item => do return (none, ← list.remove item)

def Queues (compare : Item → Item → Int) (list : LinkedList Item)
    (arrivals : List Item) : Prop :=
  ∃ items, list.Holds items ∧
    StableQueue.StablySorted (NoBigger compare) arrivals items

/-- Every call on a `SortedList` is answered as by a stable queue. -/
theorem perform_implements (order : IsOrder compare) :
    Implements (perform compare)
      (StableQueue.specification (NoBigger compare)) (Queues compare) := by
  intro list arrivals call queues permitted
  obtain ⟨items, holds, stably⟩ := queues
  have := order.total
  have := order.isTrans
  cases call with
  | insert item =>
    have absent : item ∉ items := fun member =>
      permitted (stably.perm.mem_iff.mp member)
    obtain ⟨longer, isLonger, held⟩ := @insert_eq _ _ compare _ _ _ holds absent
    refine ⟨longer, ?_, _, held, stably.insert order.lt_zero_iff item⟩
    rw [perform, isLonger]
    rfl
  | removeFront =>
    cases items with
    | nil =>
      exact absurd stably.perm.symm.eq_nil permitted
    | cons front rest =>
      obtain ⟨shorter, isShorter, held⟩ := holds.removeFront_eq
      have isNext := stably.next_eq
      have left := stably.erase holds.nodup front
      rw [List.erase_cons_head] at left
      refine ⟨shorter, ?_, rest, held, ?_⟩
      · simp only [perform, isShorter, StableQueue.specification, isNext]
        rfl
      · simp only [StableQueue.specification, isNext]
        exact left
  | remove item =>
    have present : item ∈ items := stably.perm.mem_iff.mpr permitted
    obtain ⟨shorter, isShorter, held⟩ := holds.remove_eq present
    refine ⟨shorter, ?_, _, held, stably.erase holds.nodup item⟩
    rw [perform, isShorter]
    rfl

/-- Every sequence of calls returns, without a failed `ASSERT`, what a stable
priority queue answers.  The list then has the items that were inserted and not
removed, smallest first and equal ones in the order of their insertion, and
both `SanityCheck`s find it in order. -/
theorem calls_serveStably
    {compare : Item → Item → Int} (order : IsOrder compare)
    (calls : List (StableQueue.Call Item))
    (permitted :
      (StableQueue.specification (NoBigger compare)).PermitsAll [] calls) :
    ∃ list items answers arrivals,
      (StableQueue.specification (NoBigger compare)).answerAll [] calls =
          (answers, arrivals) ∧
        performAll (perform compare) LinkedList.new calls =
          .ok (answers, list) ∧
        list.itemsFrom list.numInList.toNat list.first = items ∧
        StableQueue.StablySorted (NoBigger compare) arrivals items ∧
        (items ++ StableQueue.removed calls answers).Perm
          (StableQueue.inserted calls) ∧
        list.WellLinked ∧
        list.sanityCheck = .ok () ∧
        sanityCheck compare list = .ok () := by
  obtain ⟨list, answered, items, holds, stably⟩ :=
    (perform_implements order).performAll_eq
      ⟨[], LinkedList.holds_new, StableQueue.stablySorted_nil⟩ permitted
  refine ⟨list, items, _, _, rfl, answered, holds.itemsFrom_eq, stably, ?_,
    holds.wellLinked, holds.sanityCheck_eq, sanityCheck_eq holds stably.sorted⟩
  exact (stably.perm.append_right _).trans (StableQueue.answerAll_perm permitted)

def compareTens (first second : Nat) : Int :=
  (first / 10 : Nat) - (second / 10 : Nat)

theorem isOrder_compareTens : IsOrder compareTens := by
  constructor
  · intro first second
    unfold compareTens
    omega
  · intro first second third
    unfold compareTens
    omega

/-- An item goes to the front, behind an equal one, to the middle and to the
end. -/
theorem calls_serveStably_by_tens :
    ∃ list items answers arrivals,
      (StableQueue.specification (NoBigger compareTens)).answerAll []
            [.insert 21, .insert 13, .insert 11, .insert 25, .removeFront,
              .remove 25, .insert 20, .removeFront] =
          (answers, arrivals) ∧
        performAll (perform compareTens) LinkedList.new
            [.insert 21, .insert 13, .insert 11, .insert 25, .removeFront,
              .remove 25, .insert 20, .removeFront] =
          .ok (answers, list) ∧
        list.itemsFrom list.numInList.toNat list.first = items ∧
        StableQueue.StablySorted (NoBigger compareTens) arrivals items ∧
        (items ++ StableQueue.removed
            [.insert 21, .insert 13, .insert 11, .insert 25, .removeFront,
              .remove 25, .insert 20, .removeFront] answers).Perm
          [21, 13, 11, 25, 20] ∧
        list.WellLinked ∧
        list.sanityCheck = .ok () ∧
        sanityCheck compareTens list = .ok () :=
  calls_serveStably isOrder_compareTens _ (by decide)

end SortedList

end Nachos
