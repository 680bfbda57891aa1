import Mathlib.Data.List.TakeWhile
import Nachos.Foundation.Buffer
import Nachos.Foundation.Words

/-!
# C strings

A `char *` is the list of bytes it points at; a byte past the end of the list
is the terminating NUL.  `strncmp` is used for equality only, and `strncpy`
fills up with NULs.
-/

namespace Nachos

open Foundation

/-- The characters before the first NUL. -/
def cString (bytes : List Byte) : List Byte :=
  bytes.takeWhile (· ≠ 0)

theorem cString_cons (byte : Byte) (bytes : List Byte) :
    cString (byte :: bytes) = if byte = 0 then [] else byte :: cString bytes := by
  unfold cString
  rw [List.takeWhile_cons]
  by_cases isNul : byte = 0 <;> simp [isNul]

theorem cString_eq_self_iff {bytes : List Byte} :
    cString bytes = bytes ↔ 0 ∉ bytes := by
  unfold cString
  rw [List.takeWhile_eq_self_iff]
  constructor
  · intro nonzero isNul
    exact of_decide_eq_true (nonzero 0 isNul) rfl
  · intro noNul byte member
    exact decide_eq_true fun isNul => noNul (isNul ▸ member)

theorem nul_notMem_cString (bytes : List Byte) : 0 ∉ cString bytes := by
  intro isNul
  have passes := List.mem_takeWhile_imp isNul
  exact of_decide_eq_true passes rfl

theorem cString_append_nuls (bytes : List Byte) (count : Nat) :
    cString (bytes ++ List.replicate count 0) = cString bytes := by
  induction bytes with
  | nil =>
    cases count with
    | zero => rfl
    | succ count => rfl
  | cons byte bytes ih =>
    rw [List.cons_append, cString_cons, cString_cons, ih]

theorem cString_padded (bytes : List Byte) (count : Nat) :
    cString (cString bytes ++ List.replicate count 0) = cString bytes := by
  rw [cString_append_nuls, cString_eq_self_iff.mpr (nul_notMem_cString bytes)]

theorem exists_behind_nul {buffer : List Byte} (terminated : 0 ∈ buffer) :
    ∃ rest, buffer = cString buffer ++ 0 :: rest := by
  induction buffer with
  | nil => cases terminated
  | cons byte buffer ih =>
    rw [cString_cons]
    split_ifs with isNul
    · exact ⟨buffer, by rw [isNul]; rfl⟩
    · have later : 0 ∈ buffer :=
        (List.mem_cons.mp terminated).resolve_left (Ne.symm isNul)
      obtain ⟨rest, split⟩ := ih later
      exact ⟨rest, congrArg (byte :: ·) split⟩

def strlen (bytes : List Byte) : Nat :=
  (cString bytes).length

/-- `strncmp(left, right, count) == 0`. -/
def strncmpEq : Nat → List Byte → List Byte → Bool
  | 0, _, _ => true
  | count + 1, left, right =>
    if left.headD 0 ≠ right.headD 0 then
      false
    else if left.headD 0 = 0 then
      true
    else
      strncmpEq count left.tail right.tail

def strncpyBytes (name : List Byte) (count : Nat) : List Byte :=
  window (cString name) 0 count

/-- `strncpy(target, name, count)`: bytes from `count` on stay as they are. -/
def strncpy (target name : List Byte) (count : Nat) : List Byte :=
  overlay target (strncpyBytes name count) 0

theorem window_nil (count : Nat) :
    window ([] : List Byte) 0 count = List.replicate count 0 := by
  unfold window
  rw [List.eq_replicate_iff]
  refine ⟨by rw [List.length_map, List.length_range], ?_⟩
  intro byte member
  obtain ⟨index, -, rfl⟩ := List.mem_map.mp member
  rfl

theorem window_cons (byte : Byte) (bytes : List Byte) (count : Nat) :
    window (byte :: bytes) 0 (count + 1) = byte :: window bytes 0 count := by
  unfold window
  rw [List.range_succ_eq_map, List.map_cons, List.map_map]
  refine congrArg₂ List.cons rfl (List.map_congr_left fun index _ => ?_)
  simp only [Function.comp_apply, Nat.zero_add, List.getD_cons_succ]

theorem strncpyBytes_succ (name : List Byte) (count : Nat) :
    strncpyBytes name (count + 1) =
      if name.headD 0 = 0 then
        List.replicate (count + 1) 0
      else
        name.headD 0 :: strncpyBytes name.tail count := by
  unfold strncpyBytes
  cases name with
  | nil => exact window_nil (count + 1)
  | cons byte bytes =>
    rw [List.headD_cons, List.tail_cons, cString_cons]
    split_ifs with isNul
    · exact window_nil (count + 1)
    · exact window_cons byte (cString bytes) count

theorem strncmpEq_iff {left right : List Byte} {count : Nat} :
    strncmpEq count left right = true ↔
      strncpyBytes left count = strncpyBytes right count := by
  induction count generalizing left right with
  | zero => exact iff_of_true rfl rfl
  | succ count ih =>
    unfold strncmpEq
    rw [strncpyBytes_succ, strncpyBytes_succ]
    by_cases same : left.headD 0 = right.headD 0
    · rw [if_neg (not_not.mpr same), ← same]
      by_cases ends : left.headD 0 = 0
      · rw [if_pos ends, if_pos ends, if_pos ends]
        exact iff_of_true rfl rfl
      · rw [if_neg ends, if_neg ends, if_neg ends, ih,
          List.cons_inj_right]
    · rw [if_pos same]
      refine iff_of_false Bool.false_ne_true fun equal => same ?_
      have heads := congrArg (List.headD · 0) equal
      by_cases leftEnds : left.headD 0 = 0
      · by_cases rightEnds : right.headD 0 = 0
        · rw [leftEnds, rightEnds]
        · rw [if_pos leftEnds, if_neg rightEnds] at heads
          exact leftEnds.trans heads
      · by_cases rightEnds : right.headD 0 = 0
        · rw [if_neg leftEnds, if_pos rightEnds] at heads
          exact heads.trans rightEnds.symm
        · rw [if_neg leftEnds, if_neg rightEnds] at heads
          exact heads

theorem strncpyBytes_stored
    (name rest : List Byte) (count : Nat) :
    strncpyBytes (strncpyBytes name count ++ rest) count =
      strncpyBytes name count := by
  induction count generalizing name with
  | zero => rfl
  | succ count ih =>
    rw [strncpyBytes_succ name, strncpyBytes_succ]
    by_cases ends : name.headD 0 = 0
    · rw [if_pos ends, List.replicate_succ, List.cons_append, List.headD_cons,
        if_pos rfl]
    · rw [if_neg ends, List.cons_append, List.headD_cons, if_neg ends,
        List.tail_cons, ih]

theorem strncpyBytes_strncpy (target name : List Byte) (count : Nat) :
    strncpyBytes (strncpy target name count) count =
      strncpyBytes name count := by
  unfold strncpy overlay
  rw [List.take_zero, List.nil_append]
  exact strncpyBytes_stored name _ count

@[simp]
theorem length_strncpy
    {target : List Byte} (name : List Byte) {count : Nat}
    (fits : count ≤ target.length) :
    (strncpy target name count).length = target.length := by
  unfold strncpy strncpyBytes
  exact length_overlay (by rw [length_window]; omega)

end Nachos
