import Nachos.Foundation.DoubleWord
import Nachos.Machine.Mipssim
import Mathlib.Data.BitVec

/-!
# Multiplication

`Mult` of `machine/mipssim.cc` adds up shifted copies of `b`, for the bits of `a`
from the right.  The shift of `a` keeps its sign, so that bits come in from the
left; the loop ends before it gets to them.
-/

namespace Nachos

open Foundation

namespace MultState

def product (state : MultState) : BitVec (32 + 32) :=
  state.hi ++ state.lo

def addend (state : MultState) : BitVec (32 + 32) :=
  state.bHi ++ state.bLo

theorem product_addIn (state : MultState) :
    state.addIn.product = state.product + state.addend :=
  append_add_append state.hi state.lo state.bHi state.bLo

theorem topBit_iff (word : Word) : word &&& 0x80000000 ≠ 0 ↔ word.msb = true := by
  rw [show (0x80000000 : Word) = BitVec.twoPow 32 31 from rfl,
    BitVec.and_twoPow, BitVec.msb_eq_getLsbD_last]
  cases word.getLsbD 31 with
  | true => exact iff_of_true (by decide) rfl
  | false => exact iff_of_false (fun notZero => notZero rfl) (by decide)

theorem addend_shift (state : MultState) :
    state.shift.addend = state.addend * 2 := by
  have shifted : state.shift.addend = state.addend <<< 1 := by
    unfold addend
    rw [← append_shiftLeft_one]
    simp only [shift, topBit_iff]
  rw [shifted, BitVec.shiftLeft_eq_mul_twoPow]
  rfl

theorem toNat_shift_mod (state : MultState) {count : Nat} (few : count < 32) :
    state.shift.a.toNat % 2 ^ count = state.a.toNat / 2 % 2 ^ count := by
  apply Nat.eq_of_testBit_eq
  intro index
  rw [Nat.testBit_mod_two_pow, Nat.testBit_mod_two_pow, Nat.testBit_div_two]
  by_cases inside : index < count
  · have sameBit : state.shift.a.getLsbD index = state.a.getLsbD (index + 1) := by
      change (state.a.sshiftRight 1).getLsbD index = _
      rw [BitVec.getLsbD_sshiftRight, if_pos (by omega), Nat.add_comm 1]
      simp [show ¬ 32 ≤ index by omega]
    rw [BitVec.testBit_toNat, BitVec.testBit_toNat, sameBit]
  · rw [decide_eq_false inside, Bool.false_and, Bool.false_and]

theorem odd_iff (word : Word) : word &&& 1 ≠ 0 ↔ word.toNat % 2 = 1 := by
  have sameNumber : (word &&& 1).toNat = word.toNat % 2 := by
    rw [BitVec.toNat_and]
    exact Nat.and_two_pow_sub_one_eq_mod word.toNat 1
  rw [ne_eq, ← BitVec.toNat_inj, sameNumber]
  change word.toNat % 2 ≠ 0 ↔ _
  omega

theorem rest_zero (word : Word) (rest : word &&& 0xfffffffe = 0) :
    word.toNat / 2 = 0 := by
  apply Nat.eq_of_testBit_eq
  intro index
  rw [Nat.testBit_div_two, Nat.zero_testBit, BitVec.testBit_toNat]
  by_cases inside : index + 1 < 32
  · have masked : (word &&& ~~~1#32).getLsbD (index + 1) = false := by
      rw [show ~~~1#32 = (0xfffffffe : Word) from rfl, rest]
      exact BitVec.getLsbD_zero
    rw [BitVec.getLsbD_and, BitVec.getLsbD_not, BitVec.getLsbD_one] at masked
    simpa [inside] using masked
  · exact BitVec.getLsbD_of_ge word _ (by omega)

theorem product_loop (count : Nat) (state : MultState) (few : count ≤ 32) :
    (loop count state).product =
      state.product +
        ((state.a.toNat % 2 ^ count : Nat) : BitVec (32 + 32)) *
          state.addend := by
  induction count generalizing state with
  | zero =>
    rw [Nat.pow_zero, Nat.mod_one, Nat.cast_zero, zero_mul, add_zero]
    rfl
  | succ count ih =>
    have bits : state.a.toNat % 2 ^ (count + 1) =
        state.a.toNat % 2 + 2 * (state.a.toNat / 2 % 2 ^ count) := by
      rw [Nat.pow_succ', Nat.mod_mul]
    have next : ∀ other : MultState, other.a = state.a →
        other.addend = state.addend →
        (loop count other.shift).product =
          other.product +
            2 * ((state.a.toNat / 2 % 2 ^ count : Nat) :
              BitVec (32 + 32)) * state.addend := by
      intro other sameA sameAddend
      have sameProduct : other.shift.product = other.product := rfl
      rw [ih other.shift (by omega), sameProduct,
        toNat_shift_mod other (by omega), addend_shift, sameA, sameAddend]
      ring
    unfold loop
    rw [bits, Nat.cast_add, Nat.cast_mul, Nat.cast_two]
    by_cases odd : state.a &&& 1 ≠ 0
    · rw [if_pos odd, (odd_iff state.a).mp odd, Nat.cast_one]
      by_cases last : state.a &&& 0xfffffffe = 0
      · rw [if_pos last, rest_zero state.a last, product_addIn,
          Nat.zero_mod, Nat.cast_zero]
        ring
      · rw [if_neg last, next state.addIn rfl rfl, product_addIn]
        ring
    · have even : state.a.toNat % 2 = 0 := by
        have notOdd := (odd_iff state.a).not.mp odd
        omega
      rw [if_neg odd, even, next state rfl rfl, Nat.cast_zero, zero_add]

theorem product_loop_words (a b : Word) :
    (loop 32 ⟨a, b, 0, 0, 0⟩).product.toNat = a.toNat * b.toNat := by
  have run := product_loop 32 ⟨a, b, 0, 0, 0⟩ (le_refl 32)
  have start : product ⟨a, b, 0, 0, 0⟩ = 0 := by simp [product]
  have addendNumber : (addend ⟨a, b, 0, 0, 0⟩).toNat = b.toNat := by
    rw [addend, toNat_append_eq]
    simp
  have below : a.toNat * b.toNat < 2 ^ 32 * 2 ^ 32 :=
    Nat.mul_lt_mul'' a.isLt b.isLt
  have factor : ((a.toNat : Nat) : BitVec (32 + 32)).toNat = a.toNat :=
    Nat.mod_eq_of_lt (a.isLt.trans (by decide))
  rw [run, start, zero_add, BitVec.toNat_mul, addendNumber,
    Nat.mod_eq_of_lt a.isLt, factor, Nat.pow_add, Nat.mod_eq_of_lt below]

end MultState

def magnitude (word : Word) : Word :=
  if word.slt 0 then -word else word

theorem toInt_eq_magnitude (word : Word) :
    word.toInt =
        (if word.slt 0 then -1 else 1) * ((magnitude word).toNat : Int) ∧
      (magnitude word).toNat ≤ 2 ^ 31 := by
  have bound := word.isLt
  have signed := BitVec.toInt_eq_toNat_cond word
  have sign : word.slt 0 = decide (word.toInt < 0) := rfl
  unfold magnitude
  by_cases negative : word.toInt < 0
  · rw [sign, decide_eq_true negative, if_pos rfl, if_pos rfl,
      BitVec.toNat_neg]
    split_ifs at signed <;> omega
  · rw [sign, decide_eq_false negative, if_neg Bool.false_ne_true,
      if_neg Bool.false_ne_true]
    split_ifs at signed <;> omega

theorem mult_signed_eq {a b : Word} (nonzero : ¬ (a = 0 ∨ b = 0)) :
    (mult a b true).1 ++ (mult a b true).2 =
      if a.slt 0 != b.slt 0 then
        -(MultState.loop 32 ⟨magnitude a, magnitude b, 0, 0, 0⟩).product
      else
        (MultState.loop 32 ⟨magnitude a, magnitude b, 0, 0, 0⟩).product := by
  unfold mult magnitude
  rw [if_neg nonzero]
  simp only [Bool.true_and]
  generalize MultState.loop 32 _ = product
  by_cases differ : (a.slt 0 != b.slt 0) = true
  · rw [if_pos differ, if_pos differ]
    exact append_neg (by decide) product.hi product.lo
  · rw [if_neg differ, if_neg differ]
    rfl

theorem mult_unsigned_eq {a b : Word} (nonzero : ¬ (a = 0 ∨ b = 0)) :
    (mult a b false).1 ++ (mult a b false).2 =
      (MultState.loop 32 ⟨a, b, 0, 0, 0⟩).product := by
  unfold mult
  rw [if_neg nonzero]
  simp only [Bool.false_and, Bool.false_eq_true, if_false, bne_self_eq_false]
  rfl

/-- `Mult` computes the exact product, of signed and of unsigned words. -/
theorem mult_exact (a b : Word) :
    ((mult a b true).1 ++ (mult a b true).2).toInt = a.toInt * b.toInt ∧
      ((mult a b false).1 ++ (mult a b false).2).toNat =
        a.toNat * b.toNat := by
  by_cases zero : a = 0 ∨ b = 0
  · unfold mult
    rw [if_pos zero, if_pos zero]
    rcases zero with rfl | rfl
    · simp
    · simp
  · refine ⟨?_, ?_⟩
    · obtain ⟨signedA, smallA⟩ := toInt_eq_magnitude a
      obtain ⟨signedB, smallB⟩ := toInt_eq_magnitude b
      have number := MultState.product_loop_words (magnitude a) (magnitude b)
      rw [mult_signed_eq zero, signedA, signedB]
      generalize (MultState.loop 32 ⟨magnitude a, magnitude b, 0, 0, 0⟩).product =
        product at number ⊢
      have small : product.toNat ≤ 2 ^ 31 * 2 ^ 31 :=
        number.trans_le (Nat.mul_le_mul smallA smallB)
      have positive : product.toInt =
          ((magnitude a).toNat : Int) * (magnitude b).toNat := by
        rw [BitVec.toInt_eq_toNat_of_lt (by omega), number, Nat.cast_mul]
      have negated : (-product).toInt = -product.toInt := by
        apply BitVec.toInt_neg_of_ne_intMin
        rintro rfl
        exact absurd small (by decide)
      cases a.slt 0 <;> cases b.slt 0 <;> simp [positive, negated]
    · rw [mult_unsigned_eq zero, MultState.product_loop_words]

end Nachos
