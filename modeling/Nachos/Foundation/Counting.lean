import Mathlib.Data.Set.Card

/-!
# Counting the members of a set that changes by one
-/

namespace Foundation

variable {Element : Type} {before after : Set Element}
variable {leaving entering : Element}

theorem succ_ncard_le
    (finite : after.Finite) (kept : before ⊆ after)
    (enters : entering ∈ after) (new : entering ∉ before) :
    before.ncard + 1 ≤ after.ncard := by
  rw [← Set.ncard_insert_of_notMem new (finite.subset kept)]
  exact Set.ncard_le_ncard (Set.insert_subset enters kept) finite

theorem ncard_le_succ
    (finite : after.Finite)
    (kept : ∀ element ∈ before, element ≠ leaving → element ∈ after) :
    before.ncard ≤ after.ncard + 1 := by
  have covered : before ⊆ insert leaving after := by
    intro element member
    by_cases same : element = leaving
    · exact Or.inl same
    · exact Or.inr (kept element member same)
  calc before.ncard
      ≤ (insert leaving after).ncard :=
        Set.ncard_le_ncard covered (finite.insert leaving)
    _ ≤ after.ncard + 1 := Set.ncard_insert_le leaving after

theorem ncard_le_of_exchange
    (finite : after.Finite)
    (kept : ∀ element ∈ before, element ≠ leaving → element ∈ after)
    (enters : entering ∈ after) (new : entering ∉ before) :
    before.ncard ≤ after.ncard := by
  rw [← Set.ncard_sdiff_singleton_add_one enters finite]
  apply ncard_le_succ finite.sdiff
  intro element member different
  refine ⟨kept element member different, ?_⟩
  rintro rfl
  exact new member

end Foundation
