import Mathlib.Tactic.Ring

/-!
# Arithmetic on two words

A number of double length as a high and a low word, with the additions, shifts
and negations that a program does on the two words one after the other.
-/

namespace Foundation

variable {width : Nat}

theorem toNat_append_eq (hi lo : BitVec width) :
    (hi ++ lo).toNat = hi.toNat * 2 ^ width + lo.toNat := by
  rw [BitVec.toNat_append, ← Nat.shiftLeft_add_eq_or_of_lt lo.isLt,
    Nat.shiftLeft_eq]

theorem toNat_add_with_carry (hi lo hi' lo' : BitVec width) :
    ((if lo + lo' < lo' then hi + 1 else hi) + hi').toNat =
      ((lo.toNat + lo'.toNat) / 2 ^ width + (hi.toNat + hi'.toNat)) %
        2 ^ width := by
  have bound := lo.isLt
  have bound' := lo'.isLt
  have low := BitVec.toNat_add lo lo'
  by_cases fits : lo.toNat + lo'.toNat < 2 ^ width
  · rw [Nat.mod_eq_of_lt fits] at low
    have above : ¬ lo + lo' < lo' := by
      rw [BitVec.lt_def, low]
      omega
    rw [if_neg above, Nat.div_eq_of_lt fits, Nat.zero_add, BitVec.toNat_add]
  · rw [Nat.mod_eq_sub_mod (by omega), Nat.mod_eq_of_lt (by omega)] at low
    have below : lo + lo' < lo' := by
      rw [BitVec.lt_def, low]
      omega
    have one : (lo.toNat + lo'.toNat) / 2 ^ width = 1 :=
      Nat.div_eq_of_lt_le (by omega) (by omega)
    rw [if_pos below, one, BitVec.toNat_add, BitVec.toNat_add,
      show BitVec.toNat (1 : BitVec width) = 1 % 2 ^ width from rfl,
      Nat.add_mod_mod, Nat.mod_add_mod]
    congr 1
    omega

theorem append_add_append (hi lo hi' lo' : BitVec width) :
    ((if lo + lo' < lo' then hi + 1 else hi) + hi') ++ (lo + lo') =
      (hi ++ lo) + (hi' ++ lo') := by
  have sum : hi.toNat * 2 ^ width + lo.toNat +
      (hi'.toNat * 2 ^ width + lo'.toNat) =
        lo.toNat + lo'.toNat + 2 ^ width * (hi.toNat + hi'.toNat) := by
    ring
  apply BitVec.eq_of_toNat_eq
  rw [BitVec.toNat_add, toNat_append_eq, toNat_append_eq, toNat_append_eq, sum,
    Nat.pow_add, Nat.mod_mul, Nat.add_mul_mod_self_left,
    Nat.add_mul_div_left _ _ (Nat.two_pow_pos width), toNat_add_with_carry,
    BitVec.toNat_add]
  ring

theorem append_shiftLeft_one (hi lo : BitVec width) :
    (if lo.msb then (hi <<< 1) ||| 1 else hi <<< 1) ++ (lo <<< 1) =
      (hi ++ lo) <<< 1 := by
  apply BitVec.eq_of_getLsbD_eq
  intro index inside
  simp only [BitVec.getLsbD_append, BitVec.getLsbD_shiftLeft]
  rcases Nat.lt_trichotomy index width with low | rfl | high
  · have previous : index - 1 < width := by omega
    simp [low, previous, inside]
  · have last : lo.msb = lo.getLsbD (index - 1) := BitVec.msb_eq_getLsbD_last lo
    have positive : 0 < index := by omega
    rw [last]
    cases lo.getLsbD (index - 1) <;> simp [positive, positive.ne']
  · have notLow : ¬ index < width := by omega
    have notBefore : ¬ index - 1 < width := by omega
    have bounds : index - width < width ∧ index - width ≠ 0 ∧ index ≠ 0 := by
      omega
    have sameBit : index - 1 - width = index - width - 1 := by omega
    cases lo.msb <;>
      simp [notLow, notBefore, bounds, sameBit, inside,
        -BitVec.getLsbD_eq_getElem]

theorem append_neg (positive : 0 < width) (hi lo : BitVec width) :
    (if ~~~lo + 1 = 0 then ~~~hi + 1 else ~~~hi) ++ (~~~lo + 1) =
      -(hi ++ lo) := by
  have one : (1 : BitVec width).toNat = 1 :=
    Nat.mod_eq_of_lt (Nat.one_lt_two_pow positive.ne')
  have sameTest : ~~~lo + 1 = 0 ↔ ~~~lo + 1 < 1 := by
    rw [BitVec.lt_def, one, Nat.lt_one_iff, ← BitVec.toNat_inj]
    rfl
  have unit : (0 : BitVec width) ++ (1 : BitVec width) = 1#(width + width) := by
    apply BitVec.eq_of_toNat_eq
    rw [toNat_append_eq, one, BitVec.toNat_ofNat,
      Nat.mod_eq_of_lt (Nat.one_lt_two_pow (by omega))]
    simp
  have added := append_add_append (~~~hi) (~~~lo) 0 1
  rw [unit, ← BitVec.not_append, ← BitVec.neg_eq_not_add] at added
  rw [← added]
  simp only [sameTest]
  congr 1
  exact (BitVec.add_zero _).symm

end Foundation
