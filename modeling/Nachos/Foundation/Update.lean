import Mathlib.Logic.Function.Basic

/-!
# Functions that change at one point
-/

namespace Foundation

variable {Index Value : Type} [DecidableEq Index]

/-- Where a function has a value does not change if it neither loses nor gets
this value at the point of the update. -/
theorem update_eq_iff
    {function : Index → Value} {index : Index} {updated value : Value}
    (leaves : function index ≠ value) (takes : updated ≠ value)
    (other : Index) :
    Function.update function index updated other = value ↔
      function other = value := by
  by_cases same : other = index
  · subst same
    rw [Function.update_self]
    exact iff_of_false takes leaves
  · rw [Function.update_of_ne same]

/-- A function that gets a value at one point has it there and where it had it
before. -/
theorem update_eq_iff_or
    (function : Index → Value) (index : Index) (value : Value)
    (other : Index) :
    Function.update function index value other = value ↔
      other = index ∨ function other = value := by
  by_cases same : other = index
  · subst same
    simp
  · simp [same]

theorem update_eq_iff_and
    {function : Index → Value} {index : Index} {updated value : Value}
    (takes : updated ≠ value) (other : Index) :
    Function.update function index updated other = value ↔
      other ≠ index ∧ function other = value := by
  by_cases same : other = index
  · subst same
    simp [takes]
  · simp [same]

/-- What is read off the values does not change if it does not change at the
point of the update. -/
theorem read_update_eq
    {Result : Type} (read : Value → Result)
    {function : Index → Value} {index : Index} {updated : Value}
    (same : read updated = read (function index)) (other : Index) :
    read (Function.update function index updated other) =
      read (function other) := by
  by_cases isIndex : other = index
  · rw [isIndex, Function.update_self, same]
  · rw [Function.update_of_ne isIndex]

end Foundation
