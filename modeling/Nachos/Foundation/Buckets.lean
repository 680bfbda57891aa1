import Mathlib.Data.List.Basic

/-!
# Items spread over buckets

Every item has a place, the number of the bucket it belongs in.
-/

namespace Foundation

variable {Item : Type}

theorem flatten_set_perm
    {buckets : List (List Item)} {index : Nat} {old : List Item}
    (isOld : buckets[index]? = some old) (new : List Item) :
    ((buckets.set index new).flatten ++ old).Perm (buckets.flatten ++ new) := by
  induction buckets generalizing index with
  | nil =>
    cases isOld
  | cons bucket buckets ih =>
    cases index with
    | zero =>
      obtain rfl : bucket = old := Option.some.inj isOld
      simp only [List.set_cons_zero, List.flatten_cons]
      rw [List.append_assoc bucket]
      exact List.perm_append_comm.trans
        (List.perm_append_comm.append_left bucket)
    | succ index =>
      simp only [List.set_cons_succ, List.flatten_cons, List.append_assoc]
      exact (ih isOld).append_left bucket

theorem flatten_set_append_perm
    {buckets : List (List Item)} {index : Nat} {items : List Item}
    (isBucket : buckets[index]? = some items) (item : Item) :
    (buckets.set index (items ++ [item])).flatten.Perm
      (item :: buckets.flatten) := by
  rw [← List.perm_append_right_iff items]
  refine (flatten_set_perm isBucket _).trans ?_
  rw [← List.append_assoc]
  exact List.perm_append_comm

theorem flatten_set_erase_perm
    [DecidableEq Item] {buckets : List (List Item)} {index : Nat}
    {items : List Item} (isBucket : buckets[index]? = some items) {item : Item}
    (member : item ∈ items) :
    buckets.flatten.Perm
      (item :: (buckets.set index (items.erase item)).flatten) := by
  rw [← List.perm_append_right_iff (items.erase item)]
  refine (flatten_set_perm isBucket _).symm.trans ?_
  refine ((List.perm_cons_erase member).append_left _).trans ?_
  exact List.perm_middle

theorem flatten_take_succ
    {buckets : List (List Item)} {index : Nat} {items : List Item}
    (isBucket : buckets[index]? = some items) :
    (buckets.take (index + 1)).flatten =
      (buckets.take index).flatten ++ items := by
  rw [List.take_add_one, isBucket, List.flatten_append]
  simp

theorem flatten_take_sublist (buckets : List (List Item)) (count : Nat) :
    (buckets.take count).flatten.Sublist buckets.flatten := by
  conv_rhs => rw [← List.take_append_drop count buckets]
  rw [List.flatten_append]
  exact List.sublist_append_left _ _

def Spread (place : Item → Nat) (buckets : List (List Item)) : Prop :=
  ∀ index items, buckets[index]? = some items →
    ∀ item ∈ items, place item = index

namespace Spread

variable {place : Item → Nat} {buckets : List (List Item)} {items : List Item}

theorem mem_flatten_iff
    (spread : Spread place buckets) {item : Item}
    (isBucket : buckets[place item]? = some items) :
    item ∈ buckets.flatten ↔ item ∈ items := by
  constructor
  · intro member
    obtain ⟨bucket, inBuckets, inBucket⟩ := List.mem_flatten.mp member
    obtain ⟨index, found⟩ := List.mem_iff_getElem?.mp inBuckets
    have isIndex := spread index bucket found item inBucket
    rw [isIndex, found] at isBucket
    rwa [← Option.some.inj isBucket]
  · intro member
    exact List.mem_flatten_of_mem (List.mem_of_getElem? isBucket) member

theorem empty (place : Item → Nat) (size : Nat) :
    Spread place (List.replicate size []) := by
  intro index items isBucket item member
  rw [List.getElem?_replicate] at isBucket
  split_ifs at isBucket
  cases isBucket
  cases member

theorem set
    (spread : Spread place buckets) {index : Nat}
    (placed : ∀ item ∈ items, place item = index) :
    Spread place (buckets.set index items) := by
  intro other bucket isBucket item member
  rw [List.getElem?_set] at isBucket
  split_ifs at isBucket with same inside
  · cases isBucket
    rw [← same]
    exact placed item member
  · exact spread other bucket isBucket item member

end Spread

end Foundation
