import Nachos.Lib.Hash

/-!
# What a `HashTable` holds
-/

namespace Nachos

open Foundation

/-! ## Iterators over a list -/

namespace ListIterator

variable {Item : Type} {list : LinkedList Item} {iterator : ListIterator}
variable {path : List (Nat × Item)}

def At (list : LinkedList Item) (path : List (Nat × Item))
    (iterator : ListIterator) : Prop :=
  Linked list.elements iterator.current path none

theorem at_new (threads : list.Threads path) : At list path (new list) :=
  threads.linked

theorem At.isDone_iff (isAt : At list path iterator) :
    iterator.isDone = true ↔ path = [] := by
  unfold isDone
  rw [decide_eq_true_iff]
  cases path with
  | nil =>
    exact iff_of_true isAt rfl
  | cons entry path =>
    rw [isAt.1]
    simp

theorem At.turn
    {address : Nat} {stored : Item}
    (isAt : At list ((address, stored) :: path) iterator) :
    iterator.isDone = false ∧ iterator.item list = .ok stored ∧
      ∃ following, iterator.next list = .ok following ∧
        At list path following := by
  have undone : iterator.isDone = false := by
    rw [Bool.eq_false_iff, ne_eq, isAt.isDone_iff]
    simp
  obtain ⟨address', isElement, linked⟩ := LinkedList.element_of_linked isAt
  refine ⟨undone, ?_, ⟨address'⟩, ?_, linked⟩
  · unfold item
    rw [undone, Bool.not_false, assertThat_true, ok_bind, isElement]
    rfl
  · unfold next
    rw [isElement]
    rfl

end ListIterator

namespace HashTable

def placeOf {Key Item : Type} (getKey : Item → Key) (hash : Key → Word)
    (size : Nat) (item : Item) : Nat :=
  (hash (getKey item)).toNat % size

structure Arranged {Key Item : Type} (getKey : Item → Key) (hash : Key → Word)
    (table : HashTable Item) (contents : List (List Item)) : Prop where
  size : table.buckets.length = contents.length
  numBuckets : table.numBuckets = contents.length
  positive : 0 < contents.length
  bucket : ∀ (index : Nat) (list : LinkedList Item) (items : List Item),
    table.buckets[index]? = some list → contents[index]? = some items →
    list.Holds items
  spread : Spread (placeOf getKey hash contents.length) contents
  unique : (contents.flatten.map getKey).Nodup

structure Holds {Key Item : Type} (getKey : Item → Key) (hash : Key → Word)
    (table : HashTable Item) (contents : List (List Item)) : Prop
    extends Arranged getKey hash table contents where
  numItems : table.numItems = contents.flatten.length

section Buckets

variable {Key Item : Type} {getKey : Item → Key} {hash : Key → Word}
variable {table : HashTable Item} {contents : List (List Item)}

theorem flatten_replicate_nil (size : Nat) :
    (List.replicate size ([] : List Item)).flatten = [] := by
  rw [List.flatten_eq_nil_iff]
  intro items member
  exact List.eq_of_mem_replicate member

theorem arranged_initBuckets
    (getKey : Item → Key) (hash : Key → Word) (table : HashTable Item)
    {size : Nat} (positive : 0 < size) :
    Arranged getKey hash (table.initBuckets size) (List.replicate size []) := by
  refine ⟨?_, ?_, ?_, ?_, Spread.empty _ _, ?_⟩
  · simp [initBuckets]
  · simp [initBuckets]
  · rwa [List.length_replicate]
  · intro index list items isList isItems
    simp only [initBuckets, List.getElem?_replicate] at isList isItems
    split_ifs at isList isItems
    cases isList
    cases isItems
    exact LinkedList.holds_new
  · rw [flatten_replicate_nil]
    exact List.nodup_nil

theorem holds_new (getKey : Item → Key) (hash : Key → Word) :
    Holds getKey hash new (List.replicate initialBuckets []) := by
  refine ⟨arranged_initBuckets getKey hash _ (by decide), ?_⟩
  rw [flatten_replicate_nil]
  rfl

theorem Arranged.hashValue_eq
    (arranged : Arranged getKey hash table contents) (key : Key) :
    table.hashValue hash key = .ok ((hash key).toNat % contents.length) := by
  have positive := arranged.positive
  unfold hashValue
  rw [arranged.numBuckets, if_neg (by omega)]
  dsimp only
  rw [decide_eq_true (Nat.mod_lt _ positive)]
  rfl

theorem Arranged.bucket_eq
    (arranged : Arranged getKey hash table contents) {index : Nat}
    {items : List Item} (isItems : contents[index]? = some items) :
    ∃ list, table.bucket index = .ok list ∧ table.buckets[index]? = some list ∧
      list.Holds items := by
  have inside : index < table.buckets.length := by
    rw [arranged.size]
    exact (List.getElem?_eq_some_iff.mp isItems).1
  have isList := List.getElem?_eq_getElem inside
  refine ⟨_, ?_, isList, arranged.bucket _ _ _ isList isItems⟩
  unfold HashTable.bucket
  rw [isList]

theorem Arranged.exists_bucket
    (arranged : Arranged getKey hash table contents) (key : Key) :
    ∃ items, contents[(hash key).toNat % contents.length]? = some items :=
  ⟨_, List.getElem?_eq_getElem (Nat.mod_lt _ arranged.positive)⟩

theorem Arranged.eq_of_key
    (arranged : Arranged getKey hash table contents) {item other : Item}
    (inTable : item ∈ contents.flatten) (otherInTable : other ∈ contents.flatten)
    (sameKey : getKey item = getKey other) :
    item = other :=
  List.inj_on_of_nodup_map arranged.unique inTable otherInTable sameKey

theorem Arranged.set
    (arranged : Arranged getKey hash table contents) {index : Nat}
    {list : LinkedList Item} {items : List Item} (holds : list.Holds items)
    (placed : ∀ item ∈ items,
      placeOf getKey hash contents.length item = index)
    (unique : ((contents.set index items).flatten.map getKey).Nodup) :
    Arranged getKey hash
      { table with buckets := table.buckets.set index list }
      (contents.set index items) := by
  refine ⟨?_, ?_, ?_, ?_, ?_, unique⟩
  · rw [List.length_set, List.length_set, arranged.size]
  · rw [List.length_set]
    exact arranged.numBuckets
  · rw [List.length_set]
    exact arranged.positive
  · intro other list' items' isList isItems
    rw [List.getElem?_set] at isList isItems
    split_ifs at isList isItems
    · cases isList
      cases isItems
      exact holds
    · exact arranged.bucket _ _ _ isList isItems
  · rw [List.length_set]
    exact arranged.spread.set placed

theorem Arranged.recount
    (arranged : Arranged getKey hash table contents) (numItems : Int) :
    Arranged getKey hash { table with numItems := numItems } contents :=
  ⟨arranged.size, arranged.numBuckets, arranged.positive, arranged.bucket,
    arranged.spread, arranged.unique⟩

/-! ## Loops over the buckets -/

theorem forBuckets_eq
    {State : Type} {body : Nat → LinkedList Item → State → Except Fault State}
    {kept : Nat → State → Prop}
    (arranged : Arranged getKey hash table contents)
    (turn : ∀ index list items state, contents[index]? = some items →
      list.Holds items → kept index state →
      ∃ next, body index list state = .ok next ∧ kept (index + 1) next)
    {turns index : Nat} {state : State} (initially : kept index state)
    (all : index + turns = contents.length) :
    ∃ last, table.forBuckets body turns index state = .ok last ∧
      kept contents.length last := by
  induction turns generalizing index state with
  | zero =>
    obtain rfl : index = contents.length := all
    exact ⟨state, rfl, initially⟩
  | succ turns ih =>
    have isItems := List.getElem?_eq_getElem (show index < contents.length by omega)
    obtain ⟨list, isBucket, _, holds⟩ := arranged.bucket_eq isItems
    obtain ⟨next, isNext, keptNext⟩ := turn index list _ state isItems holds initially
    obtain ⟨last, isLast, keptLast⟩ := ih keptNext (by omega)
    refine ⟨last, ?_, keptLast⟩
    unfold forBuckets
    rw [isBucket, ok_bind, isNext, ok_bind, isLast]

theorem Arranged.checkFrom_eq
    (arranged : Arranged getKey hash table contents) {index : Nat}
    {list : LinkedList Item} {path : List (Nat × Item)}
    (placed : ∀ item ∈ path.map Prod.snd,
      placeOf getKey hash contents.length item = index)
    {turns : Nat} {iterator : ListIterator} (isAt : iterator.At list path)
    (enough : path.length ≤ turns) :
    table.checkFrom getKey hash index list turns iterator = .ok () := by
  induction path generalizing turns iterator with
  | nil =>
    unfold checkFrom
    rw [if_pos (isAt.isDone_iff.mpr rfl)]
  | cons entry path ih =>
    obtain ⟨address, item⟩ := entry
    obtain ⟨undone, isItem, following, isNext, isAt'⟩ := isAt.turn
    have isIndex : (hash (getKey item)).toNat % contents.length = index :=
      placed item List.mem_cons_self
    unfold checkFrom
    rw [undone, if_neg Bool.false_ne_true]
    match turns, enough with
    | turns + 1, enough =>
      dsimp only
      rw [isItem, ok_bind, arranged.hashValue_eq, ok_bind,
        decide_eq_true isIndex.symm, assertThat_true, ok_bind, isNext, ok_bind,
        ih
          (fun other member => placed other (List.mem_cons_of_mem _ member))
          isAt' (Nat.le_of_succ_le_succ enough)]

theorem Holds.sanityCheck_eq (holds : Holds getKey hash table contents) :
    table.sanityCheck getKey hash = .ok () := by
  have turn : ∀ index (list : LinkedList Item) items (numFound : Int),
      contents[index]? = some items → list.Holds items →
      numFound = (contents.take index).flatten.length →
      ∃ next, table.checkBucket getKey hash index list numFound = .ok next ∧
        next = (contents.take (index + 1)).flatten.length := by
    intro index list items numFound isItems listHolds counted
    obtain ⟨path, threads, isPath⟩ := listHolds
    refine ⟨numFound + list.numInList, ?_, ?_⟩
    · unfold checkBucket
      rw [LinkedList.Holds.sanityCheck_eq ⟨path, threads, isPath⟩, ok_bind,
        holds.checkFrom_eq (by rw [isPath]; exact holds.spread _ _ isItems)
          (ListIterator.at_new threads) threads.length_le]
      rfl
    · rw [counted, threads.counted, flatten_take_succ isItems, ← isPath,
        List.length_append, List.length_map]
      rfl
  have initially : (0 : Int) = (contents.take 0).flatten.length := rfl
  obtain ⟨numFound, isFound, counted⟩ :=
    forBuckets_eq holds.toArranged turn initially (Nat.zero_add _)
  rw [List.take_length, ← holds.numItems] at counted
  unfold sanityCheck
  rw [holds.numBuckets, isFound, ok_bind, decide_eq_true counted.symm]
  rfl

end Buckets

section Finding

variable {Key Item : Type} [DecidableEq Key] {getKey : Item → Key}
variable {hash : Key → Word} {table : HashTable Item}
variable {contents : List (List Item)}

/-! ## Finding an item -/

theorem findFrom_eq
    {list : LinkedList Item} {path : List (Nat × Item)} {turns : Nat}
    {iterator : ListIterator} (isAt : iterator.At list path)
    (enough : path.length ≤ turns) (key : Key) :
    findFrom getKey list key turns iterator =
      .ok ((path.map Prod.snd).find? (fun item => key = getKey item)) := by
  induction path generalizing turns iterator with
  | nil =>
    unfold findFrom
    rw [if_pos (isAt.isDone_iff.mpr rfl)]
    rfl
  | cons entry path ih =>
    obtain ⟨address, item⟩ := entry
    obtain ⟨undone, isItem, following, isNext, isAt'⟩ := isAt.turn
    unfold findFrom
    rw [undone, if_neg Bool.false_ne_true]
    match turns, enough with
    | turns + 1, enough =>
      dsimp only
      rw [isItem, ok_bind]
      by_cases same : key = getKey item
      · rw [if_pos same, List.map_cons, List.find?_cons_of_pos (by simpa)]
      · rw [if_neg same, isNext, ok_bind,
          ih isAt' (Nat.le_of_succ_le_succ enough),
          List.map_cons, List.find?_cons_of_neg (by simpa)]

theorem Arranged.findInBucket_eq
    (arranged : Arranged getKey hash table contents) {index : Nat}
    {items : List Item} (isItems : contents[index]? = some items) (key : Key) :
    table.findInBucket getKey index key =
      .ok (items.find? (fun item => key = getKey item)) := by
  obtain ⟨list, isList, _, path, threads, rfl⟩ := arranged.bucket_eq isItems
  unfold findInBucket
  rw [isList, ok_bind,
    findFrom_eq (ListIterator.at_new threads) threads.length_le]

theorem Arranged.find?_eq_some_iff
    (arranged : Arranged getKey hash table contents) {key : Key}
    {items : List Item}
    (isItems : contents[(hash key).toNat % contents.length]? = some items)
    (item : Item) :
    items.find? (fun item => key = getKey item) = some item ↔
      item ∈ contents.flatten ∧ getKey item = key := by
  constructor
  · intro found
    have isKey : key = getKey item := by
      simpa using List.find?_some found
    exact ⟨List.mem_flatten_of_mem (List.mem_of_getElem? isItems)
      (List.mem_of_find?_eq_some found), isKey.symm⟩
  · rintro ⟨member, rfl⟩
    have inBucket : item ∈ items :=
      (arranged.spread.mem_flatten_iff isItems).mp member
    have some : (items.find? (fun other => getKey item = getKey other)).isSome := by
      rw [List.find?_isSome]
      exact ⟨item, inBucket, by simp⟩
    obtain ⟨other, found⟩ := Option.isSome_iff_exists.mp some
    have sameKey : getKey item = getKey other := by
      simpa using List.find?_some found
    have otherInTable : other ∈ contents.flatten :=
      List.mem_flatten_of_mem (List.mem_of_getElem? isItems)
        (List.mem_of_find?_eq_some found)
    rw [arranged.eq_of_key member otherInTable sameKey]
    rw [arranged.eq_of_key member otherInTable sameKey] at found
    exact found

theorem Arranged.find_eq
    (arranged : Arranged getKey hash table contents) (key : Key) :
    ∃ found, table.find getKey hash key = .ok found ∧
      ∀ item, found = some item ↔
        item ∈ contents.flatten ∧ getKey item = key := by
  obtain ⟨items, isItems⟩ := arranged.exists_bucket key
  refine ⟨_, ?_, arranged.find?_eq_some_iff isItems⟩
  unfold find
  rw [arranged.hashValue_eq, ok_bind, arranged.findInBucket_eq isItems]

theorem Arranged.isInTable_eq
    (arranged : Arranged getKey hash table contents) (key : Key) :
    table.isInTable getKey hash key =
      .ok (key ∈ contents.flatten.map getKey) := by
  obtain ⟨found, isFound, finds⟩ := arranged.find_eq key
  have same : found.isSome = decide (key ∈ contents.flatten.map getKey) := by
    rw [Bool.eq_iff_iff, decide_eq_true_iff, Option.isSome_iff_exists,
      List.mem_map]
    exact exists_congr finds
  unfold isInTable
  rw [isFound, ok_bind, same]
  rfl

end Finding

section Moving

variable {Key Item : Type} [DecidableEq Item] {getKey : Item → Key}
variable {hash : Key → Word} {table : HashTable Item}
variable {contents : List (List Item)}

/-! ## Moving items -/

theorem Arranged.place_eq
    (arranged : Arranged getKey hash table contents) {item : Item}
    (absent : getKey item ∉ contents.flatten.map getKey) :
    ∃ placed contents', table.place getKey hash item = .ok placed ∧
      Arranged getKey hash placed contents' ∧
      contents'.flatten.Perm (item :: contents.flatten) ∧
      contents'.length = contents.length ∧
      placed.numItems = table.numItems := by
  obtain ⟨items, isItems⟩ := arranged.exists_bucket (getKey item)
  obtain ⟨list, isBucket, _, holds⟩ := arranged.bucket_eq isItems
  have notIn : item ∉ items := by
    intro member
    exact absent (List.mem_map_of_mem
      (List.mem_flatten_of_mem (List.mem_of_getElem? isItems) member))
  obtain ⟨longer, isLonger, longerHolds⟩ := holds.append_eq notIn
  have moved := flatten_set_append_perm isItems item
  refine ⟨_, _, ?_, arranged.set longerHolds ?_ ?_, moved, ?_, ?_⟩
  · unfold place
    rw [arranged.hashValue_eq, ok_bind, isBucket, ok_bind, isLonger]
    rfl
  · intro other member
    rcases List.mem_append.mp member with old | isNew
    · exact arranged.spread _ _ isItems other old
    · rw [List.mem_singleton.mp isNew]
      rfl
  · rw [(moved.map getKey).nodup_iff, List.map_cons]
    exact List.nodup_cons.mpr ⟨absent, arranged.unique⟩
  · exact List.length_set
  · rfl

theorem Arranged.moveItems_eq
    (arranged : Arranged getKey hash table contents) {list : LinkedList Item}
    {items : List Item} (holds : list.Holds items) {turns : Nat}
    (enough : items.length ≤ turns)
    (unique : ((items ++ contents.flatten).map getKey).Nodup) :
    ∃ moved contents', moveItems getKey hash turns list table = .ok moved ∧
      Arranged getKey hash moved contents' ∧
      contents'.flatten.Perm (items ++ contents.flatten) ∧
      contents'.length = contents.length ∧
      moved.numItems = table.numItems := by
  induction items generalizing list turns table contents with
  | nil =>
    refine ⟨table, contents, ?_, arranged, List.Perm.refl _, rfl, rfl⟩
    unfold moveItems
    rw [if_pos (holds.isEmpty_iff.mpr rfl)]
  | cons item items ih =>
    have occupied : list.isEmpty = false := by
      rw [Bool.eq_false_iff, ne_eq, holds.isEmpty_iff]
      simp
    obtain ⟨rest, isFront, restHolds⟩ := holds.removeFront_eq
    rw [List.cons_append, List.map_cons, List.nodup_cons, List.map_append,
      List.mem_append, not_or] at unique
    obtain ⟨placed, contents', isPlaced, arranged', perm, size, numItems⟩ :=
      arranged.place_eq unique.1.2
    have later : (items ++ contents'.flatten).Perm
        (item :: (items ++ contents.flatten)) :=
      (perm.append_left items).trans List.perm_middle
    match turns, enough with
    | turns + 1, enough =>
      obtain ⟨moved, contents'', isMoved, arranged'', perm', size', numItems'⟩ :=
        ih arranged' restHolds
          (Nat.le_of_succ_le_succ enough) (by
            rw [(later.map getKey).nodup_iff, List.map_cons, List.map_append]
            exact List.nodup_cons.mpr ⟨by simpa using unique.1, unique.2⟩)
      refine ⟨moved, contents'', ?_, arranged'', perm'.trans later,
        size'.trans size, numItems'.trans numItems⟩
      unfold moveItems
      rw [occupied, if_neg Bool.false_ne_true]
      dsimp only
      rw [isFront, ok_bind]
      dsimp only
      rw [isPlaced, ok_bind, isMoved]

theorem Holds.reHash_eq (holds : Holds getKey hash table contents) :
    ∃ moved contents', table.reHash getKey hash = .ok moved ∧
      Holds getKey hash moved contents' ∧
      contents'.flatten.Perm contents.flatten ∧
      contents'.length = contents.length * increaseSizeBy := by
  have turn : ∀ index (list : LinkedList Item) items (moved : HashTable Item),
      contents[index]? = some items → list.Holds items →
      (∃ contents', Arranged getKey hash moved contents' ∧
        contents'.flatten.Perm (contents.take index).flatten ∧
        contents'.length = contents.length * increaseSizeBy ∧
        moved.numItems = table.numItems) →
      ∃ next, moveItems getKey hash list.numInList.toNat list moved = .ok next ∧
        ∃ contents', Arranged getKey hash next contents' ∧
          contents'.flatten.Perm (contents.take (index + 1)).flatten ∧
          contents'.length = contents.length * increaseSizeBy ∧
          next.numItems = table.numItems := by
    rintro index list items moved isItems listHolds
      ⟨contents', arranged, perm, size, numItems⟩
    have isMore : (items ++ contents'.flatten).Perm
        (contents.take (index + 1)).flatten := by
      rw [flatten_take_succ isItems]
      exact (perm.append_left items).trans List.perm_append_comm
    have unique : ((items ++ contents'.flatten).map getKey).Nodup := by
      rw [(isMore.map getKey).nodup_iff]
      exact holds.unique.sublist ((flatten_take_sublist _ _).map getKey)
    have enough : items.length ≤ list.numInList.toNat := by
      rw [listHolds.numInList, Int.toNat_natCast]
    obtain ⟨next, contents'', isNext, arranged', perm', size', numItems'⟩ :=
      arranged.moveItems_eq listHolds enough unique
    exact ⟨next, isNext, contents'', arranged', perm'.trans isMore,
      size'.trans size, numItems'.trans numItems⟩
  have positive : 0 < contents.length * increaseSizeBy :=
    Nat.mul_pos holds.positive (by decide)
  obtain ⟨moved, isMoved, contents', arranged, perm, size, numItems⟩ :=
    forBuckets_eq holds.toArranged turn
      ⟨_, arranged_initBuckets getKey hash table positive,
        by rw [flatten_replicate_nil]; exact List.Perm.refl _,
        List.length_replicate, rfl⟩
      (Nat.zero_add _)
  rw [List.take_length] at perm
  have movedHolds : Holds getKey hash moved contents' :=
    ⟨arranged, by rw [numItems, holds.numItems, perm.length_eq]⟩
  refine ⟨moved, contents', ?_, movedHolds, perm, size⟩
  unfold reHash
  rw [holds.sanityCheck_eq, ok_bind, holds.numBuckets, isMoved, ok_bind,
    movedHolds.sanityCheck_eq]
  rfl

theorem Holds.grow_eq (holds : Holds getKey hash table contents) :
    ∃ grown contents', table.grow getKey hash = .ok grown ∧
      Holds getKey hash grown contents' ∧
      contents'.flatten.Perm contents.flatten ∧
      (contents'.length = contents.length ∨
        contents'.length = 4 * contents.length ∧
          3 * contents.length ≤ contents.flatten.length) := by
  unfold grow
  by_cases full : resizeRatio ≤ table.numItems.tdiv table.numBuckets
  · obtain ⟨grown, contents', isGrown, grownHolds, perm, size⟩ := holds.reHash_eq
    rw [if_pos full]
    refine ⟨grown, contents', isGrown, grownHolds, perm, Or.inr ⟨?_, ?_⟩⟩
    · rw [size, Nat.mul_comm]
      rfl
    · rw [holds.numItems, holds.numBuckets, ← Int.ofNat_tdiv] at full
      have ratio : 3 ≤ contents.flatten.length / contents.length := by
        simp only [resizeRatio] at full
        omega
      exact (Nat.le_div_iff_mul_le holds.positive).mp ratio
  · rw [if_neg full]
    exact ⟨table, contents, rfl, holds, List.Perm.refl _, Or.inl rfl⟩

end Moving

section Calls

variable {Key Item : Type} [DecidableEq Key] [DecidableEq Item]
variable {getKey : Item → Key} {hash : Key → Word} {table : HashTable Item}
variable {contents : List (List Item)}

/-- `Insert` adds its item; the buckets become four times as many at most. -/
theorem Holds.insert_eq
    (holds : Holds getKey hash table contents) {item : Item}
    (absent : getKey item ∉ contents.flatten.map getKey) :
    ∃ inserted contents', table.insert getKey hash item = .ok inserted ∧
      Holds getKey hash inserted contents' ∧
      contents'.flatten.Perm (item :: contents.flatten) ∧
      (contents'.length = contents.length ∨
        contents'.length = 4 * contents.length ∧
          3 * contents.length ≤ contents.flatten.length) := by
  obtain ⟨grown, contents', isGrown, grownHolds, perm, size⟩ := holds.grow_eq
  have absent' : getKey item ∉ contents'.flatten.map getKey := by
    rwa [(perm.map getKey).mem_iff]
  obtain ⟨placed, contents'', isPlaced, arranged, perm', size', numItems⟩ :=
    grownHolds.place_eq absent'
  have arranged' := arranged.recount (placed.numItems + 1)
  have present : getKey item ∈ contents''.flatten.map getKey := by
    rw [(perm'.map getKey).mem_iff]
    exact List.mem_cons_self
  refine ⟨{ placed with numItems := placed.numItems + 1 }, contents'', ?_,
    ⟨arranged', ?_⟩, perm'.trans (perm.cons item), ?_⟩
  · unfold insert
    dsimp only
    rw [holds.isInTable_eq, ok_bind, decide_eq_false absent, Bool.not_false,
      assertThat_true, ok_bind, isGrown, ok_bind, isPlaced, ok_bind,
      arranged'.isInTable_eq, ok_bind, decide_eq_true present]
    rfl
  · rw [perm'.length_eq, List.length_cons]
    change placed.numItems + 1 = _
    rw [numItems, grownHolds.numItems]
    rfl
  · rw [size']
    exact size

theorem Holds.remove_eq
    (holds : Holds getKey hash table contents) {item : Item}
    (present : item ∈ contents.flatten) :
    ∃ removed contents',
      table.remove getKey hash (getKey item) = .ok (item, removed) ∧
        Holds getKey hash removed contents' ∧
        contents.flatten.Perm (item :: contents'.flatten) ∧
        contents'.length = contents.length := by
  obtain ⟨items, isItems⟩ := holds.exists_bucket (getKey item)
  obtain ⟨list, isBucket, _, listHolds⟩ := holds.bucket_eq isItems
  have inBucket : item ∈ items :=
    (holds.spread.mem_flatten_iff isItems).mp present
  have found := (holds.find?_eq_some_iff isItems item).mpr ⟨present, rfl⟩
  obtain ⟨shorter, isShorter, shorterHolds⟩ := listHolds.remove_eq inBucket
  have perm := flatten_set_erase_perm isItems inBucket
  have unique := holds.unique
  rw [(perm.map getKey).nodup_iff, List.map_cons, List.nodup_cons] at unique
  have arranged := holds.toArranged.set shorterHolds
    (fun other member =>
      holds.spread _ _ isItems other (List.mem_of_mem_erase member)) unique.2
  have arranged' := arranged.recount (table.numItems - 1)
  refine ⟨_, _, ?_, ⟨arranged', ?_⟩, perm, List.length_set⟩
  · unfold remove
    rw [holds.hashValue_eq, ok_bind, holds.findInBucket_eq isItems, ok_bind, found]
    dsimp only
    rw [isBucket, ok_bind, isShorter, ok_bind, arranged'.isInTable_eq, ok_bind,
      decide_eq_false unique.1]
    rfl
  · change table.numItems - 1 = _
    rw [holds.numItems, perm.length_eq, List.length_cons]
    omega

end Calls

end HashTable

end Nachos
