import Mathlib.Data.List.Basic

/-!
# Items in their final places

A sort by exchanges of neighbours carries a greatest item along.  Behind the last
exchange the items are in their final places.
-/

namespace Foundation

variable {Item : Type}

/-- No item at an index from `low` to `high` belongs before an earlier one. -/
def Settled (le : Item → Item → Prop) (items : List Item) (low high : Nat) :
    Prop :=
  ∀ ⦃early late : Nat⦄ ⦃first second : Item⦄, early < late → low ≤ late →
    late ≤ high → items[early]? = some first → items[late]? = some second →
    le first second

def swapNext (items : List Item) (index : Nat) (first second : Item) :
    List Item :=
  (items.set index second).set (index + 1) first

variable {items : List Item} {index : Nat} {first second : Item}

theorem getElem?_swapNext
    (isFirst : items[index]? = some first)
    (isSecond : items[index + 1]? = some second) (other : Nat) :
    (swapNext items index first second)[other]? =
      if other = index then some second
      else if other = index + 1 then some first
      else items[other]? := by
  obtain ⟨within, -⟩ := List.getElem?_eq_some_iff.mp isFirst
  obtain ⟨nextWithin, -⟩ := List.getElem?_eq_some_iff.mp isSecond
  unfold swapNext
  rw [List.getElem?_set, List.getElem?_set, List.length_set, if_pos nextWithin,
    if_pos within]
  split_ifs <;> first | rfl | omega

theorem perm_swapNext
    (isFirst : items[index]? = some first)
    (isSecond : items[index + 1]? = some second) :
    (swapNext items index first second).Perm items := by
  obtain ⟨within, rfl⟩ := List.getElem?_eq_some_iff.mp isFirst
  obtain ⟨nextWithin, rfl⟩ := List.getElem?_eq_some_iff.mp isSecond
  exact List.set_set_perm within nextWithin

namespace Settled

variable {le : Item → Item → Prop} {low high : Nat}

theorem of_lt (nothing : high < low) : Settled le items low high := by
  intro early late earlier later _ fromLow toHigh
  omega

theorem join
    (front : Settled le items low high) {above : Nat} (gapless : above ≤ high + 1)
    {last : Nat} (back : Settled le items above last) :
    Settled le items low last := by
  intro early late earlier later isEarlier fromLow toLast
  by_cases inFront : late ≤ high
  · exact front isEarlier fromLow inFront
  · exact back isEarlier (by omega) toLast

theorem before
    (settled : Settled le items low index)
    (reached : low ≤ index ∨ index = 0)
    (isFirst : items[index]? = some first) {early : Nat} {item : Item}
    (isEarly : early < index) (isItem : items[early]? = some item) :
    le item first :=
  settled isEarly (by omega) (Nat.le_refl index) isItem isFirst

theorem grow
    (transitive : ∀ {x y z}, le x y → le y z → le x z)
    (settled : Settled le items low index)
    (reached : low ≤ index ∨ index = 0)
    (isFirst : items[index]? = some first)
    (isSecond : items[index + 1]? = some second)
    (inOrder : le first second) :
    Settled le items low (index + 1) := by
  intro early late earlier later isEarlier fromLow toNext isEarly isLate
  rcases Nat.lt_or_eq_of_le toNext with within | rfl
  · exact settled isEarlier fromLow (by omega) isEarly isLate
  · cases isSecond.symm.trans isLate
    rcases Nat.lt_or_eq_of_le (Nat.le_of_lt_succ isEarlier) with before | rfl
    · exact transitive (settled.before reached isFirst before isEarly) inOrder
    · cases isFirst.symm.trans isEarly
      exact inOrder

theorem carry
    (settled : Settled le items low index)
    (reached : low ≤ index ∨ index = 0)
    (isFirst : items[index]? = some first)
    (isSecond : items[index + 1]? = some second)
    (outOfOrder : le second first) :
    Settled le (swapNext items index first second) (index + 1)
      (index + 1) := by
  intro early late earlier later isEarlier fromNext toNext isEarly isLate
  obtain rfl : late = index + 1 := by omega
  rw [getElem?_swapNext isFirst isSecond] at isEarly isLate
  rw [if_neg (by omega), if_pos rfl] at isLate
  cases isLate
  by_cases last : early = index
  · rw [if_pos last] at isEarly
    cases isEarly
    exact outOfOrder
  · rw [if_neg last, if_neg (by omega)] at isEarly
    exact settled.before reached isFirst (by omega) isEarly

theorem swapNext
    (settled : Settled le items low high) (below : index + 1 < low)
    (isFirst : items[index]? = some first)
    (isSecond : items[index + 1]? = some second) :
    Settled le (swapNext items index first second) low high := by
  intro early late earlier later isEarlier fromLow toHigh isEarly isLate
  rw [getElem?_swapNext isFirst isSecond] at isEarly isLate
  rw [if_neg (by omega), if_neg (by omega)] at isLate
  split_ifs at isEarly with atFirst atSecond
  · cases isEarly
    exact settled (by omega) fromLow toHigh isSecond isLate
  · cases isEarly
    exact settled (by omega) fromLow toHigh isFirst isLate
  · exact settled isEarlier fromLow toHigh isEarly isLate

theorem pairwise
    (settled : Settled le items 1 (items.length - 1)) :
    items.Pairwise le := by
  rw [List.pairwise_iff_getElem]
  intro early late withinEarly withinLate isEarlier
  exact settled isEarlier (by omega) (by omega)
    (List.getElem?_eq_getElem withinEarly) (List.getElem?_eq_getElem withinLate)

end Settled

end Foundation
