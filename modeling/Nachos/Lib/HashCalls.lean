import Mathlib.Algebra.BigOperators.Ring.Finset
import Nachos.Foundation.Transitions
import Nachos.Lib.HashContents

/-!
# `HashTable` as a finite map
-/

namespace Nachos

open Foundation

namespace HashTable

/-! ## Iterating over a table -/

section Iterating

variable {Key Item : Type} {getKey : Item → Key} {hash : Key → Word}
variable {table : HashTable Item} {contents : List (List Item)}

theorem Arranged.nextFullBucket_eq
    (arranged : Arranged getKey hash table contents) {turns index : Nat}
    (all : index + turns = contents.length) :
    ∃ full, table.nextFullBucket turns index = .ok full ∧
      full ≤ contents.length ∧
      (contents.drop index).flatten = (contents.drop full).flatten ∧
      contents[full]? ≠ some [] := by
  induction turns generalizing index with
  | zero =>
    refine ⟨index, rfl, by omega, rfl, ?_⟩
    rw [List.getElem?_eq_none (by omega)]
    simp
  | succ turns ih =>
    have inside : index < contents.length := by omega
    have isItems := List.getElem?_eq_getElem inside
    obtain ⟨list, isBucket, _, holds⟩ := arranged.bucket_eq isItems
    unfold nextFullBucket
    rw [isBucket, ok_bind]
    by_cases nothing : list.isEmpty = true
    · obtain ⟨full, isFull, bound, same, occupied⟩ :=
        ih (show index + 1 + turns = contents.length by omega)
      rw [nothing, Bool.not_true, if_neg Bool.false_ne_true]
      refine ⟨full, isFull, bound, ?_, occupied⟩
      rw [List.drop_eq_getElem_cons inside, List.flatten_cons,
        holds.isEmpty_iff.mp nothing, List.nil_append, same]
    · rw [Bool.eq_false_iff.mpr nothing, Bool.not_false, if_pos rfl]
      refine ⟨index, rfl, inside.le, rfl, ?_⟩
      rw [isItems]
      intro isNil
      exact nothing (holds.isEmpty_iff.mpr (Option.some.inj isNil))

theorem Arranged.findNextFullBucket_eq
    (arranged : Arranged getKey hash table contents) {index : Nat}
    (bound : index ≤ contents.length) :
    ∃ full, table.findNextFullBucket index = .ok full ∧
      full ≤ contents.length ∧
      (contents.drop index).flatten = (contents.drop full).flatten ∧
      contents[full]? ≠ some [] := by
  unfold findNextFullBucket
  rw [arranged.numBuckets]
  exact arranged.nextFullBucket_eq (by omega)

end Iterating

end HashTable

namespace HashIterator

variable {Key Item : Type} {getKey : Item → Key} {hash : Key → Word}
variable {table : HashTable Item} {contents : List (List Item)}
variable {iterator : HashIterator} {item : Item} {remaining : List Item}

/-- The iterator has the remaining items before it: those in its bucket, of
which there are some, and those in later buckets. -/
def At (table : HashTable Item) (contents : List (List Item))
    (remaining : List Item) (iterator : HashIterator) : Prop :=
  match iterator.bucketIter with
  | none => iterator.bucket = contents.length ∧ remaining = []
  | some bucketIter =>
    ∃ list path, table.bucket iterator.bucket = .ok list ∧
      iterator.bucket < contents.length ∧ bucketIter.At list path ∧
      path ≠ [] ∧
      remaining =
        path.map Prod.snd ++ (contents.drop (iterator.bucket + 1)).flatten

theorem enter_eq
    (arranged : HashTable.Arranged getKey hash table contents) {full : Nat}
    (bound : full ≤ contents.length) (occupied : contents[full]? ≠ some []) :
    ∃ iterator, enter table full = .ok iterator ∧
      At table contents (contents.drop full).flatten iterator := by
  unfold enter
  rw [arranged.numBuckets]
  by_cases inside : full < contents.length
  · have isItems := List.getElem?_eq_getElem inside
    obtain ⟨list, isBucket, _, path, threads, isPath⟩ :=
      arranged.bucket_eq isItems
    rw [if_pos inside, isBucket]
    refine ⟨_, rfl, list, path, isBucket, inside, ListIterator.at_new threads, ?_,
      ?_⟩
    · rintro rfl
      exact occupied (by rw [isItems, ← isPath]; rfl)
    · rw [List.drop_eq_getElem_cons inside, List.flatten_cons, isPath]
  · rw [if_neg inside]
    refine ⟨_, rfl, Nat.le_antisymm bound (Nat.not_lt.mp inside), ?_⟩
    rw [List.drop_eq_nil_of_le (by omega)]
    rfl

theorem new_eq (arranged : HashTable.Arranged getKey hash table contents) :
    ∃ iterator, new table = .ok iterator ∧
      At table contents contents.flatten iterator := by
  obtain ⟨full, isFull, bound, same, occupied⟩ :=
    arranged.findNextFullBucket_eq (Nat.zero_le _)
  obtain ⟨iterator, entered, isAt⟩ := enter_eq arranged bound occupied
  rw [← same, List.drop_zero] at isAt
  refine ⟨iterator, ?_, isAt⟩
  unfold new
  rw [isFull, ok_bind, entered]

theorem At.isDone_iff
    (arranged : HashTable.Arranged getKey hash table contents)
    (isAt : At table contents remaining iterator) :
    iterator.isDone table = true ↔ remaining = [] := by
  unfold isDone
  rw [decide_eq_true_iff, arranged.numBuckets]
  obtain ⟨bucket, bucketIter⟩ := iterator
  cases bucketIter with
  | none =>
    exact iff_of_true isAt.1 isAt.2
  | some bucketIter =>
    obtain ⟨list, path, _, inside, _, nonempty, rfl⟩ := isAt
    dsimp only at inside ⊢
    refine iff_of_false (by omega) ?_
    simp [nonempty]

/-- One turn of an iteration: the next item, and the others are before it. -/
theorem At.turn
    (arranged : HashTable.Arranged getKey hash table contents)
    (isAt : At table contents (item :: remaining) iterator) :
    iterator.item table = .ok item ∧
      ∃ following, iterator.next table = .ok following ∧
        At table contents remaining following := by
  have undone : iterator.isDone table = false := by
    rw [Bool.eq_false_iff, ne_eq, isAt.isDone_iff arranged]
    simp
  obtain ⟨bucket, bucketIter⟩ := iterator
  cases bucketIter with
  | none =>
    cases isAt.2
  | some bucketIter =>
    obtain ⟨list, path, isBucket, inside, listAt, nonempty, isRemaining⟩ := isAt
    match path, nonempty with
    | (address, stored) :: path, _ =>
      obtain ⟨_, isItem, following, isNext, followingAt⟩ := listAt.turn
      obtain ⟨rfl, isRest⟩ := List.cons.inj isRemaining
      constructor
      · unfold HashIterator.item
        rw [undone, Bool.not_false, assertThat_true, ok_bind]
        dsimp only at isBucket ⊢
        rw [isBucket, ok_bind, isItem]
      · unfold next
        dsimp only at isBucket inside isRest ⊢
        rw [isBucket, ok_bind, isNext, ok_bind]
        by_cases last : following.isDone = true
        · obtain ⟨full, isFull, bound, same, occupied⟩ :=
            arranged.findNextFullBucket_eq (show bucket + 1 ≤ _ from inside)
          obtain ⟨entering, entered, isAt⟩ := enter_eq arranged bound occupied
          rw [if_pos last, isFull, ok_bind, entered]
          refine ⟨entering, rfl, ?_⟩
          rw [isRest, followingAt.isDone_iff.mp last, same]
          exact isAt
        · rw [if_neg last]
          exact ⟨_, rfl, list, path, isBucket, inside, followingAt,
            fun isNil => last (followingAt.isDone_iff.mpr isNil), isRest⟩

theorem At.walk_eq
    (arranged : HashTable.Arranged getKey hash table contents)
    (isAt : At table contents remaining iterator) :
    ∃ last, walk table remaining.length iterator = .ok (remaining, last) ∧
      last.isDone table = true := by
  induction remaining generalizing iterator with
  | nil =>
    exact ⟨iterator, rfl, (isAt.isDone_iff arranged).mpr rfl⟩
  | cons item remaining ih =>
    obtain ⟨isItem, following, isNext, followingAt⟩ := isAt.turn arranged
    obtain ⟨last, walked, done⟩ := ih followingAt
    refine ⟨last, ?_, done⟩
    rw [List.length_cons]
    unfold walk
    rw [isItem, ok_bind, isNext, ok_bind, walked]
    rfl

end HashIterator

/-! ## Sequences of calls -/

inductive TableCall (Key Item : Type) where
  | insert (item : Item)
  | remove (key : Key)

section Calls

variable {Key Item : Type} [DecidableEq Key] [DecidableEq Item]
variable (getKey : Item → Key) (hash : Key → Word)

/-- What a call does to the map, if it may be made: an item is inserted under a
key that has none, and removed under a key that has one. -/
def TableCall.effect (map : Key → Option Item) :
    TableCall Key Item → Option (Key → Option Item)
  | .insert item =>
    if (map (getKey item)).isNone then
      some (Function.update map (getKey item) (some item))
    else
      none
  | .remove key =>
    if (map key).isSome then
      some (Function.update map key none)
    else
      none

/-- The map after some calls, if all of them may be made. -/
def mapAfter (calls : List (TableCall Key Item)) :
    Option (Key → Option Item) :=
  calls.foldlM (TableCall.effect getKey) (fun _ => none)

def TableCall.perform (table : HashTable Item) :
    TableCall Key Item → Except Fault (HashTable Item)
  | .insert item => table.insert getKey hash item
  | .remove key => do
    let (_, table) ← table.remove getKey hash key
    return table

def tableAfter (calls : List (TableCall Key Item)) :
    Except Fault (HashTable Item) :=
  calls.foldlM (TableCall.perform getKey hash) .new

end Calls

namespace HashTable

section Refinement

variable {Key Item : Type} {getKey : Item → Key} {hash : Key → Word}
variable {table : HashTable Item} {map : Key → Option Item}

def Refines (getKey : Item → Key) (hash : Key → Word) (table : HashTable Item)
    (map : Key → Option Item) : Prop :=
  ∃ contents, Holds getKey hash table contents ∧
    ∀ key item, map key = some item ↔
      item ∈ contents.flatten ∧ getKey item = key

theorem refines_new (getKey : Item → Key) (hash : Key → Word) :
    Refines getKey hash new (fun _ => none) := by
  refine ⟨_, holds_new getKey hash, ?_⟩
  rw [flatten_replicate_nil]
  simp

variable [DecidableEq Key] [DecidableEq Item]

theorem Refines.insert_eq
    (refines : Refines getKey hash table map) {item : Item}
    (absent : map (getKey item) = none) :
    ∃ inserted, table.insert getKey hash item = .ok inserted ∧
      Refines getKey hash inserted
        (Function.update map (getKey item) (some item)) := by
  obtain ⟨contents, holds, isMap⟩ := refines
  have newKey : getKey item ∉ contents.flatten.map getKey := by
    intro member
    obtain ⟨other, inTable, sameKey⟩ := List.mem_map.mp member
    have stored := (isMap (getKey item) other).mpr ⟨inTable, sameKey⟩
    rw [absent] at stored
    cases stored
  obtain ⟨inserted, contents', isInserted, holds', perm, _⟩ :=
    holds.insert_eq newKey
  refine ⟨inserted, isInserted, contents', holds', ?_⟩
  intro key other
  rw [perm.mem_iff, List.mem_cons]
  by_cases same : key = getKey item
  · subst same
    rw [Function.update_self, Option.some.injEq]
    constructor
    · rintro rfl
      exact ⟨Or.inl rfl, rfl⟩
    · rintro ⟨rfl | inTable, sameKey⟩
      · rfl
      · exact absurd (sameKey ▸ List.mem_map_of_mem inTable) newKey
  · rw [Function.update_of_ne same, isMap]
    constructor
    · rintro ⟨inTable, isKey⟩
      exact ⟨Or.inr inTable, isKey⟩
    · rintro ⟨rfl | inTable, isKey⟩
      · exact absurd isKey.symm same
      · exact ⟨inTable, isKey⟩

theorem Refines.remove_eq
    (refines : Refines getKey hash table map) {key : Key} {item : Item}
    (present : map key = some item) :
    ∃ removed, table.remove getKey hash key = .ok (item, removed) ∧
      Refines getKey hash removed (Function.update map key none) := by
  obtain ⟨contents, holds, isMap⟩ := refines
  obtain ⟨inTable, rfl⟩ := (isMap key item).mp present
  obtain ⟨removed, contents', isRemoved, holds', perm, _⟩ :=
    holds.remove_eq inTable
  refine ⟨removed, isRemoved, contents', holds', ?_⟩
  have unique := holds.unique
  rw [(perm.map getKey).nodup_iff, List.map_cons, List.nodup_cons] at unique
  intro key other
  by_cases same : key = getKey item
  · subst same
    rw [Function.update_self]
    refine iff_of_false (by simp) ?_
    rintro ⟨inRest, sameKey⟩
    exact unique.1 (sameKey ▸ List.mem_map_of_mem inRest)
  · rw [Function.update_of_ne same, isMap, perm.mem_iff, List.mem_cons]
    constructor
    · rintro ⟨rfl | inRest, isKey⟩
      · exact absurd isKey.symm same
      · exact ⟨inRest, isKey⟩
    · rintro ⟨inRest, isKey⟩
      exact ⟨Or.inr inRest, isKey⟩

theorem Refines.perform_eq
    (refines : Refines getKey hash table map) {call : TableCall Key Item}
    {map' : Key → Option Item} (permitted : call.effect getKey map = some map') :
    ∃ next, call.perform getKey hash table = .ok next ∧
      Refines getKey hash next map' := by
  cases call with
  | insert item =>
    simp only [TableCall.effect] at permitted
    split_ifs at permitted with absent
    cases permitted
    exact refines.insert_eq (Option.isNone_iff_eq_none.mp absent)
  | remove key =>
    simp only [TableCall.effect] at permitted
    split_ifs at permitted with present
    cases permitted
    obtain ⟨item, isItem⟩ := Option.isSome_iff_exists.mp present
    obtain ⟨removed, isRemoved, refines'⟩ := refines.remove_eq isItem
    refine ⟨removed, ?_, refines'⟩
    unfold TableCall.perform
    dsimp only
    rw [isRemoved]
    rfl

/-- A sequence of permitted calls on the table follows the map. -/
theorem Refines.performAll_eq
    (refines : Refines getKey hash table map) {calls : List (TableCall Key Item)}
    {map' : Key → Option Item}
    (permitted : calls.foldlM (TableCall.effect getKey) map = some map') :
    ∃ last, calls.foldlM (TableCall.perform getKey hash) table = .ok last ∧
      Refines getKey hash last map' := by
  induction calls generalizing table map with
  | nil =>
    cases permitted
    exact ⟨table, rfl, refines⟩
  | cons call calls ih =>
    rw [List.foldlM_cons, Option.bind_eq_bind, Option.bind_eq_some_iff]
      at permitted
    obtain ⟨middle, first, rest⟩ := permitted
    obtain ⟨next, isNext, nextRefines⟩ := refines.perform_eq first
    obtain ⟨last, isLast, lastRefines⟩ := ih nextRefines rest
    refine ⟨last, ?_, lastRefines⟩
    rw [List.foldlM_cons, isNext, ok_bind, isLast]

end Refinement

section Contents

variable {Key Item : Type} {getKey : Item → Key} {hash : Key → Word}
variable {table : HashTable Item} {contents : List (List Item)}

theorem Holds.numItems_eq_sum (holds : Holds getKey hash table contents) :
    table.numItems = (table.buckets.map LinkedList.numInList).sum := by
  have sizes :
      table.buckets.map LinkedList.numInList =
        contents.map (fun items => (items.length : Int)) := by
    apply List.ext_getElem
    · rw [List.length_map, List.length_map, holds.size]
    · intro index inside inside'
      rw [List.getElem_map, List.getElem_map]
      rw [List.length_map] at inside inside'
      exact (holds.bucket _ _ _ (List.getElem?_eq_getElem inside)
        (List.getElem?_eq_getElem inside')).numInList
  rw [sizes, holds.numItems, List.length_flatten, Nat.cast_list_sum,
    List.map_map]
  rfl

variable [DecidableEq Item]

theorem Holds.place_of_isInList
    (holds : Holds getKey hash table contents) {index : Nat}
    {list : LinkedList Item} {item : Item}
    (isList : table.buckets[index]? = some list)
    (stored : list.isInList item = .ok true) :
    index = (hash (getKey item)).toNat % table.numBuckets := by
  have inside := (List.getElem?_eq_some_iff.mp isList).1
  rw [holds.size] at inside
  have isItems := List.getElem?_eq_getElem inside
  rw [(holds.bucket _ _ _ isList isItems).isInList_eq] at stored
  rw [holds.numBuckets]
  exact (holds.spread _ _ isItems item
    (of_decide_eq_true (Except.ok.inj stored))).symm

end Contents

end HashTable

/-- A `HashTable` is a finite map, and a `HashIterator` goes through it. -/
theorem hashTable_refines_map
    {Key Item : Type} [DecidableEq Key] [DecidableEq Item]
    (getKey : Item → Key) (hash : Key → Word)
    {calls : List (TableCall Key Item)} {map : Key → Option Item}
    (permitted : mapAfter getKey calls = some map) :
    ∃ table, tableAfter getKey hash calls = .ok table ∧
      (∀ key, table.find getKey hash key = .ok (map key)) ∧
      (∀ key item, map key = some item →
        ∃ rest, table.remove getKey hash key = .ok (item, rest)) ∧
      (∀ (index : Nat) list item, table.buckets[index]? = some list →
        list.isInList item = .ok true →
        index = (hash (getKey item)).toNat % table.numBuckets) ∧
      table.numItems = (table.buckets.map LinkedList.numInList).sum ∧
      table.sanityCheck getKey hash = .ok () ∧
      ∃ first items last,
        HashIterator.new table = .ok first ∧
          first.walk table items.length = .ok (items, last) ∧
          last.isDone table = true ∧ items.Nodup ∧
          ∀ item, item ∈ items ↔ map (getKey item) = some item := by
  obtain ⟨table, isTable, refines⟩ :=
    (HashTable.refines_new getKey hash).performAll_eq permitted
  have removes : ∀ key item, map key = some item →
      ∃ rest, table.remove getKey hash key = .ok (item, rest) := by
    intro key item present
    obtain ⟨rest, isRest, _⟩ := refines.remove_eq present
    exact ⟨rest, isRest⟩
  obtain ⟨contents, holds, isMap⟩ := refines
  refine ⟨table, isTable, ?_, removes, ?_, holds.numItems_eq_sum,
    holds.sanityCheck_eq, ?_⟩
  · intro key
    obtain ⟨found, isFound, finds⟩ := holds.find_eq key
    have same : found = map key := by
      apply Option.ext
      intro item
      rw [finds, isMap]
    rw [isFound, same]
  · intro index list item isList stored
    exact holds.place_of_isInList isList stored
  · obtain ⟨first, isFirst, isAt⟩ := HashIterator.new_eq holds.toArranged
    obtain ⟨last, walked, done⟩ := isAt.walk_eq holds.toArranged
    refine ⟨first, contents.flatten, last, isFirst, walked, done,
      holds.unique.of_map, ?_⟩
    intro item
    rw [isMap]
    simp

def selfTestCalls : List (TableCall Nat Nat) :=
  (List.range 15).map .insert ++ [.remove 3]

theorem hashTable_refines_map_colliding :
    ∃ table, tableAfter id (fun _ => 7) selfTestCalls = .ok table ∧
      table.find id (fun _ => 7) 4 = .ok (some 4) ∧
      table.find id (fun _ => 7) 3 = .ok none ∧
      table.sanityCheck id (fun _ => 7) = .ok () := by
  obtain ⟨table, isTable, finds, _, _, _, sane, _⟩ :=
    @hashTable_refines_map Nat Nat _ _ id (fun _ => 7) selfTestCalls _ rfl
  exact ⟨table, isTable, finds 4, finds 3, sane⟩

/-! ## The size of a table -/

section Size

variable {Key Item : Type} [DecidableEq Key] [DecidableEq Item]
variable {getKey : Item → Key} {hash : Key → Word}
variable {table next : HashTable Item} {contents : List (List Item)}

theorem HashTable.Holds.absent_of_insert
    (holds : Holds getKey hash table contents) {item : Item}
    (inserted : table.insert getKey hash item = .ok next) :
    getKey item ∉ contents.flatten.map getKey := by
  unfold HashTable.insert at inserted
  dsimp only at inserted
  rw [holds.isInTable_eq, ok_bind] at inserted
  obtain ⟨_, passed, _⟩ := exists_of_bind_eq_ok inserted
  intro present
  rw [decide_eq_true present] at passed
  cases passed

theorem HashTable.Holds.present_of_remove
    (holds : Holds getKey hash table contents) {key : Key} {item : Item}
    (removed : table.remove getKey hash key = .ok (item, next)) :
    item ∈ contents.flatten ∧ getKey item = key := by
  obtain ⟨items, isItems⟩ := holds.exists_bucket key
  unfold HashTable.remove at removed
  rw [holds.hashValue_eq, ok_bind, holds.findInBucket_eq isItems, ok_bind]
    at removed
  split at removed
  · cases removed
  · next isFound =>
      obtain ⟨_, _, removed⟩ := exists_of_bind_eq_ok removed
      obtain ⟨_, _, removed⟩ := exists_of_bind_eq_ok removed
      obtain ⟨_, _, removed⟩ := exists_of_bind_eq_ok removed
      obtain ⟨_, _, removed⟩ := exists_of_bind_eq_ok removed
      cases removed
      exact (holds.find?_eq_some_iff isItems _).mp isFound

/-- Runs in which a table never has more than `limit` items. -/
def tableRuns (getKey : Item → Key) (hash : Key → Word) (limit : Nat) :
    TransitionSystem (HashTable Item) (TableCall Key Item) where
  start table := table = .new
  step source call target :=
    call.perform getKey hash source = .ok target ∧ target.numItems ≤ limit

/-- The number of buckets is bounded by the number of items, so that it is an
`int` as long as the items fit in memory. -/
theorem numBuckets_le
    {limit : Nat} (reachable : (tableRuns getKey hash limit).Reachable table) :
    (table.numBuckets = initialBuckets ∨ 3 * table.numBuckets ≤ 4 * limit) ∧
      (limit < 3 * 2 ^ 29 → table.numBuckets < 2 ^ 31) := by
  obtain ⟨contents, holds, _, bounded⟩ :
      ∃ contents, HashTable.Holds getKey hash table contents ∧
        contents.flatten.length ≤ limit ∧
        (contents.length = initialBuckets ∨ 3 * contents.length ≤ 4 * limit) := by
    apply reachable.invariant
    · rintro _ rfl
      refine ⟨_, HashTable.holds_new getKey hash, ?_, Or.inl List.length_replicate⟩
      rw [HashTable.flatten_replicate_nil]
      exact Nat.zero_le _
    · rintro source call target ⟨contents, holds, few, bounded⟩ ⟨performed, limited⟩
      cases call with
      | insert item =>
        obtain ⟨inserted, contents', isInserted, holds', _, size⟩ :=
          holds.insert_eq (holds.absent_of_insert performed)
        cases performed.symm.trans isInserted
        rw [holds'.numItems] at limited
        refine ⟨contents', holds', by omega, ?_⟩
        rcases size with same | ⟨grown, full⟩
        · rwa [same]
        · right
          omega
      | remove key =>
        obtain ⟨⟨item, rest⟩, isRemoved, isTarget⟩ :=
          exists_of_bind_eq_ok performed
        obtain ⟨present, rfl⟩ := holds.present_of_remove isRemoved
        obtain ⟨removed, contents', isRemoved', holds', _, size⟩ :=
          holds.remove_eq present
        cases isRemoved.symm.trans isRemoved'
        cases isTarget
        rw [holds'.numItems] at limited
        exact ⟨contents', holds', by omega, by rwa [size]⟩
  rw [holds.numBuckets]
  refine ⟨bounded, fun small => ?_⟩
  unfold initialBuckets at bounded
  omega

def insertAll (getKey : Item → Key) (hash : Key → Word) (limit : Nat) :
    List Item → HashTable Item → Option (HashTable Item)
  | [], table => some table
  | item :: items, table =>
    match table.insert getKey hash item with
    | .error _ => none
    | .ok next =>
      if next.numItems ≤ limit then insertAll getKey hash limit items next
      else none

theorem reachable_insertAll
    {limit : Nat} {items : List Item}
    (reachable : (tableRuns getKey hash limit).Reachable table)
    (inserted : insertAll getKey hash limit items table = some next) :
    (tableRuns getKey hash limit).Reachable next := by
  induction items generalizing table with
  | nil =>
    cases inserted
    exact reachable
  | cons item items ih =>
    unfold insertAll at inserted
    split at inserted
    · cases inserted
    · next middle isMiddle =>
        split_ifs at inserted with few
        have step : (tableRuns getKey hash limit).step table (.insert item)
          middle := ⟨isMiddle, few⟩
        exact ih (.step reachable step) inserted

/-- The thirteenth `Insert` makes `ReHash` grow the table to sixteen buckets. -/
theorem numBuckets_le_after_rehash :
    ∃ table : HashTable Nat, table.numBuckets = 16 ∧
      (table.numBuckets = initialBuckets ∨ 3 * table.numBuckets ≤ 4 * 13) ∧
      table.numBuckets < 2 ^ 31 := by
  have grown : (insertAll id (BitVec.ofNat 32) 13 (List.range 13) .new).map
      HashTable.numBuckets = some 16 := by decide +kernel
  obtain ⟨table, isTable, size⟩ := Option.map_eq_some_iff.mp grown
  obtain ⟨bounded, isInt⟩ :=
    numBuckets_le (reachable_insertAll (.start rfl) isTable)
  exact ⟨table, size, bounded, isInt (by decide)⟩

end Size

end Nachos
