import Mathlib.Data.List.Basic
import Mathlib.Tactic.Ring
import Mathlib.Tactic.SplitIfs

/-!
# Lists as fixed-length buffers

`slice` reads a window of a list, `overlay` replaces one, and a list of equally
long blocks is flattened and addressed by quotient and remainder.
-/

namespace Foundation

universe u

variable {Item : Type u}

/-- The window of `length` items that starts at `start`. -/
def slice (items : List Item) (start length : Nat) : List Item :=
  (items.drop start).take length

/-- `base` with the items from `start` on replaced by `patch`. -/
def overlay (base patch : List Item) (start : Nat) : List Item :=
  base.take start ++ patch ++ base.drop (start + patch.length)

/-- The window of `length` items from `start` on, filled up with the default
item where the list is too short, so that its length is never in doubt. -/
def window [Inhabited Item] (items : List Item) (start length : Nat) :
    List Item :=
  (List.range length).map (fun index => items.getD (start + index) default)

@[simp]
theorem length_window
    [Inhabited Item] (items : List Item) (start length : Nat) :
    (window items start length).length = length := by
  simp [window]

theorem getElem?_slice (items : List Item) (start length index : Nat) :
    (slice items start length)[index]? =
      if index < length then items[start + index]? else none := by
  unfold slice
  rw [List.getElem?_take]
  split_ifs with inside
  · rw [List.getElem?_drop]
  · rfl

theorem length_slice
    {items : List Item} {start length : Nat}
    (fits : start + length ≤ items.length) :
    (slice items start length).length = length := by
  simp only [slice, List.length_take, List.length_drop]
  omega

theorem window_eq_slice
    [Inhabited Item] {items : List Item} {start length : Nat}
    (fits : start + length ≤ items.length) :
    window items start length = slice items start length := by
  apply List.ext_getElem?
  intro index
  rw [getElem?_slice]
  unfold window
  rw [List.getElem?_map]
  split_ifs with inside
  · rw [List.getElem?_range inside,
      List.getElem?_eq_getElem (show start + index < items.length by omega)]
    simp [List.getD_eq_getElem?_getD,
      List.getElem?_eq_getElem (show start + index < items.length by omega)]
  · rw [List.getElem?_eq_none (by simp; omega)]
    rfl

theorem window_append
    [Inhabited Item] (left middle right : List Item) {start length : Nat}
    (startEq : start = left.length) (lengthEq : length = middle.length) :
    window (left ++ middle ++ right) start length = middle := by
  subst startEq lengthEq
  rw [window_eq_slice (by simp only [List.length_append]; omega)]
  simp [slice]

theorem length_overlay
    {base patch : List Item} {start : Nat}
    (fits : start + patch.length ≤ base.length) :
    (overlay base patch start).length = base.length := by
  simp only [overlay, List.length_append, List.length_take, List.length_drop]
  omega

theorem getElem?_overlay
    {base patch : List Item} {start : Nat}
    (fits : start + patch.length ≤ base.length) (index : Nat) :
    (overlay base patch start)[index]? =
      if start ≤ index ∧ index < start + patch.length then
        patch[index - start]?
      else
        base[index]? := by
  have takeLength : (base.take start).length = start := by
    rw [List.length_take]
    omega
  unfold overlay
  rw [List.append_assoc, List.getElem?_append, takeLength]
  by_cases before : index < start
  · rw [if_pos before, if_neg (by omega), List.getElem?_take,
      if_pos before]
  · rw [if_neg before, List.getElem?_append]
    by_cases within : index < start + patch.length
    · rw [if_pos (by omega), if_pos ⟨by omega, within⟩]
    · rw [if_neg (by omega), if_neg (by omega), List.getElem?_drop]
      congr 1
      omega

theorem overlay_full
    {base patch : List Item} (sameLength : patch.length = base.length) :
    overlay base patch 0 = patch := by
  simp [overlay, sameLength]

@[simp]
theorem slice_full (items : List Item) :
    slice items 0 items.length = items := by
  simp [slice]

theorem slice_overlay_self
    {base patch : List Item} {start : Nat}
    (fits : start + patch.length ≤ base.length) :
    slice (overlay base patch start) start patch.length = patch := by
  apply List.ext_getElem?
  intro index
  rw [getElem?_slice]
  split_ifs with inside
  · rw [getElem?_overlay fits, if_pos (by omega)]
    congr 1
    omega
  · rw [List.getElem?_eq_none (by omega)]

theorem overlay_slice_self
    {items : List Item} {start length : Nat}
    (fits : start + length ≤ items.length) :
    overlay items (slice items start length) start = items := by
  have isLength := length_slice fits
  apply List.ext_getElem?
  intro index
  rw [getElem?_overlay (by rw [isLength]; exact fits), isLength, getElem?_slice]
  split_ifs with inside short
  · rw [Nat.add_sub_cancel' inside.1]
  · omega
  · rfl

theorem starts_overlay (base patch : List Item) :
    patch <+: overlay base patch 0 :=
  ⟨base.drop patch.length, by simp [overlay]⟩

theorem take_overlay
    {base patch : List Item} {start : Nat} (inside : start ≤ base.length) :
    (overlay base patch start).take (start + patch.length) =
      base.take start ++ patch := by
  have front : (base.take start ++ patch).length = start + patch.length := by
    rw [List.length_append, List.length_take_of_le inside]
  unfold overlay
  rw [← front, List.take_left]

theorem slice_of_starts
    {front rest items : List Item} (starts : front ++ rest <+: items) :
    slice items front.length rest.length = rest := by
  obtain ⟨others, rfl⟩ := starts
  simp [slice]

@[simp]
theorem overlay_nil (base : List Item) (start : Nat) :
    overlay base [] start = base := by
  simp [overlay]

theorem slice_slice
    (items : List Item) {outer width inner length : Nat}
    (fits : inner + length ≤ width) :
    slice (slice items outer width) inner length =
      slice items (outer + inner) length := by
  apply List.ext_getElem?
  intro index
  rw [getElem?_slice, getElem?_slice, getElem?_slice]
  split_ifs with small within
  · rw [Nat.add_assoc]
  · omega
  · rfl

theorem slice_succ
    {items : List Item} {start length : Nat}
    (inside : start + length < items.length) :
    slice items start (length + 1) =
      slice items start length ++ [items[start + length]] := by
  unfold slice
  rw [List.take_add_one, List.getElem?_drop, List.getElem?_eq_getElem inside]
  rfl

theorem slice_append_slice
    (items : List Item) (start first second : Nat)
    (fits : start + first ≤ items.length) :
    slice items start first ++ slice items (start + first) second =
      slice items start (first + second) := by
  apply List.ext_getElem?
  intro index
  rw [List.getElem?_append, length_slice fits, getElem?_slice,
    getElem?_slice, getElem?_slice]
  split_ifs <;> first | omega | rfl | (congr 1; omega)

theorem overlay_overlay_adjacent
    {base first second : List Item} {start : Nat}
    (fits : start + first.length + second.length ≤ base.length) :
    overlay (overlay base first start) second (start + first.length) =
      overlay base (first ++ second) start := by
  have firstFits : start + first.length ≤ base.length := by omega
  have joinedFits : start + (first ++ second).length ≤ base.length := by
    rw [List.length_append]
    omega
  apply List.ext_getElem?
  intro index
  rw [getElem?_overlay (by rw [length_overlay firstFits]; omega),
    getElem?_overlay firstFits, getElem?_overlay joinedFits,
    List.getElem?_append, List.length_append]
  split_ifs <;> first | omega | rfl | (congr 1; omega)

theorem getElem?_flatten_of_uniform
    {width : Nat} (positive : 0 < width) :
    ∀ {blocks : List (List Item)},
      (∀ block ∈ blocks, block.length = width) →
      ∀ index,
        blocks.flatten[index]? =
          (blocks[index / width]?).bind (fun block => block[index % width]?)
  | [], _, index => by
    simp
  | block :: blocks, uniform, index => by
    have blockLength : block.length = width := uniform block List.mem_cons_self
    rw [List.flatten_cons, List.getElem?_append, blockLength]
    by_cases inside : index < width
    · rw [if_pos inside, Nat.div_eq_of_lt inside,
        Nat.mod_eq_of_lt inside]
      rfl
    · have quotient : index / width = (index - width) / width + 1 := by
        rw [Nat.div_eq_sub_div positive (by omega)]
      have remainder : index % width = (index - width) % width :=
        Nat.mod_eq_sub_mod (by omega)
      rw [if_neg inside, quotient, remainder,
        getElem?_flatten_of_uniform positive
          (fun other member => uniform other (List.mem_cons_of_mem _ member))]
      rfl

theorem length_flatten_of_uniform
    {width : Nat} {blocks : List (List Item)}
    (uniform : ∀ block ∈ blocks, block.length = width) :
    blocks.flatten.length = width * blocks.length := by
  induction blocks with
  | nil =>
    simp
  | cons block blocks ih =>
    rw [List.flatten_cons, List.length_append,
      uniform block List.mem_cons_self,
      ih
        (fun other member => uniform other (List.mem_cons_of_mem _ member)),
      List.length_cons, Nat.mul_succ]
    omega

theorem slice_flatten_of_uniform
    {width : Nat} (positive : 0 < width)
    {blocks : List (List Item)}
    (uniform : ∀ block ∈ blocks, block.length = width)
    {position : Nat} (inside : position < blocks.length) :
    slice blocks.flatten (width * position) width =
      blocks.get ⟨position, inside⟩ := by
  have blockLength : (blocks.get ⟨position, inside⟩).length = width :=
    uniform _ (List.get_mem _ _)
  apply List.ext_getElem?
  intro index
  rw [getElem?_slice]
  split_ifs with small
  · rw [getElem?_flatten_of_uniform positive uniform,
      Nat.mul_add_div positive, Nat.div_eq_of_lt small,
      Nat.mul_add_mod, Nat.mod_eq_of_lt small, Nat.add_zero,
      List.getElem?_eq_getElem inside]
    rfl
  · rw [List.getElem?_eq_none (by omega)]

theorem flatten_set_of_uniform
    {width : Nat} (positive : 0 < width)
    {blocks : List (List Item)}
    (uniform : ∀ block ∈ blocks, block.length = width)
    {patch : List Item} (patchLength : patch.length = width)
    {position : Nat} (inside : position < blocks.length) :
    (blocks.set position patch).flatten =
      overlay blocks.flatten patch (width * position) := by
  have uniformSet :
      ∀ block ∈ blocks.set position patch, block.length = width := by
    intro block member
    rcases List.mem_or_eq_of_mem_set member with old | new
    · exact uniform block old
    · rw [new, patchLength]
  have fits :
      width * position + patch.length ≤ blocks.flatten.length := by
    rw [length_flatten_of_uniform uniform, patchLength]
    calc
      width * position + width = width * (position + 1) := by ring
      _ ≤ width * blocks.length := Nat.mul_le_mul_left width inside
  apply List.ext_getElem?
  intro index
  rw [getElem?_overlay fits, patchLength,
    getElem?_flatten_of_uniform positive uniformSet,
    getElem?_flatten_of_uniform positive uniform, List.getElem?_set]
  have division := Nat.div_add_mod index width
  have small := Nat.mod_lt index positive
  by_cases same : position = index / width
  · have window :
        width * position ≤ index ∧ index < width * position + width := by
      rw [same]
      omega
    rw [if_pos same, if_pos inside, if_pos window, Option.bind_some]
    congr 1
    rw [same]
    omega
  · have outside :
        ¬ (width * position ≤ index ∧ index < width * position + width) := by
      rintro ⟨lower, upper⟩
      apply same
      symm
      rw [Nat.div_eq_iff positive]
      rw [Nat.mul_comm] at lower upper
      omega
    rw [if_neg same, if_neg outside]

end Foundation
