import Mathlib.Data.List.Basic

/-!
# The first match in a table

A scan for the first record that passes a test either finds none, or splits
the table at it.
-/

namespace Foundation

variable {Item : Type*}

/-- The scan stops at `found`, after the items of `before`. -/
structure FirstMatch
    (test : Item → Bool) (items before : List Item) (found : Item)
    (after : List Item) : Prop where
  split : items = before ++ found :: after
  passes : test found = true
  earlier : ∀ item ∈ before, test item = false

namespace FirstMatch

variable {test : Item → Bool} {items before after : List Item} {found : Item}

theorem mem (first : FirstMatch test items before found after) :
    found ∈ items := by
  rw [first.split]
  simp

theorem findIdx? (first : FirstMatch test items before found after) :
    items.findIdx? test = some before.length := by
  rw [first.split, List.findIdx?_append,
    List.findIdx?_eq_none_iff.mpr first.earlier, List.findIdx?_cons,
    first.passes]
  simp

theorem find? (first : FirstMatch test items before found after) :
    items.find? test = some found := by
  have nothing : before.find? test = none := by
    rw [List.find?_eq_none]
    intro item member
    simp [first.earlier item member]
  rw [first.split, List.find?_append, nothing, List.find?_cons, first.passes]
  rfl

theorem modify
    (first : FirstMatch test items before found after)
    (change : Item → Item) :
    items.modify before.length change = before ++ change found :: after := by
  rw [first.split]
  clear first
  induction before with
  | nil =>
    rfl
  | cons head before ih =>
    exact congrArg (head :: ·) ih

theorem length_replaced
    (first : FirstMatch test items before found after) (updated : Item) :
    (before ++ updated :: after).length = items.length := by
  rw [first.split, List.length_append, List.length_append, List.length_cons,
    List.length_cons]

theorem set
    (first : FirstMatch test items before found after) (updated : Item) :
    items.set before.length updated = before ++ updated :: after := by
  rw [first.split]
  simp

theorem getD
    (first : FirstMatch test items before found after) (fallback : Item) :
    items.getD before.length fallback = found := by
  rw [first.split]
  simp

theorem unique
    {before' after' : List Item} {found' : Item}
    (first : FirstMatch test items before found after)
    (second : FirstMatch test items before' found' after') :
    before = before' ∧ found = found' ∧ after = after' := by
  have sameLength : before.length = before'.length :=
    Option.some.inj (first.findIdx?.symm.trans second.findIdx?)
  obtain ⟨sameBefore, sameRest⟩ :=
    List.append_inj (first.split.symm.trans second.split) sameLength
  exact ⟨sameBefore, List.cons.inj sameRest⟩

end FirstMatch

theorem firstMatch_cases (test : Item → Bool) (items : List Item) :
    (∀ item ∈ items, test item = false) ∨
      ∃ before found after, FirstMatch test items before found after := by
  induction items with
  | nil =>
    left
    simp
  | cons head items ih =>
    cases headTest : test head with
    | true =>
      right
      exact ⟨[], head, items, rfl, headTest, by simp⟩
    | false =>
      rcases ih with nothing | ⟨before, found, after, first⟩
      · left
        intro item member
        rcases List.mem_cons.mp member with rfl | member
        · exact headTest
        · exact nothing item member
      · right
        refine ⟨head :: before, found, after, ?_, first.passes, ?_⟩
        · rw [first.split]
          rfl
        · intro item member
          rcases List.mem_cons.mp member with rfl | member
          · exact headTest
          · exact first.earlier item member

theorem findIdx?_of_no_match
    {test : Item → Bool} {items : List Item}
    (nothing : ∀ item ∈ items, test item = false) :
    items.findIdx? test = none :=
  List.findIdx?_eq_none_iff.mpr nothing

theorem find?_of_no_match
    {test : Item → Bool} {items : List Item}
    (nothing : ∀ item ∈ items, test item = false) :
    items.find? test = none := by
  rw [List.find?_eq_none]
  intro item member
  simp [nothing item member]

theorem find?_skip
    {test : Item → Bool} {item : Item} (fails : test item = false)
    (before after : List Item) :
    (before ++ item :: after).find? test = (before ++ after).find? test := by
  rw [List.find?_append, List.find?_append, List.find?_cons, fails]

end Foundation
