import Mathlib.Data.List.Basic

/-!
# Little-endian words

A 32-bit word as four bytes, least significant first, and lists of words as
lists of bytes.
-/

namespace Foundation

abbrev Byte := BitVec 8

abbrev Word := BitVec 32

def wordBytes (word : Word) : List Byte :=
  [word.extractLsb' 0 8, word.extractLsb' 8 8,
    word.extractLsb' 16 8, word.extractLsb' 24 8]

def bytesWord (first second third fourth : Byte) : Word :=
  fourth ++ third ++ second ++ first

@[simp]
theorem length_wordBytes (word : Word) : (wordBytes word).length = 4 :=
  rfl

theorem bytesWord_extract (word : Word) :
    bytesWord (word.extractLsb' 0 8) (word.extractLsb' 8 8)
      (word.extractLsb' 16 8) (word.extractLsb' 24 8) = word := by
  apply BitVec.eq_of_getLsbD_eq
  intro index inside
  simp only [bytesWord, BitVec.getLsbD_append, BitVec.getLsbD_extractLsb']
  split_ifs <;> grind

theorem toNat_append_byte {width : Nat} (high : BitVec width) (low : Byte) :
    (high ++ low).toNat = low.toNat + 256 * high.toNat := by
  rw [BitVec.toNat_append, ← Nat.shiftLeft_add_eq_or_of_lt low.isLt,
    Nat.shiftLeft_eq]
  omega

theorem toNat_bytesWord (first second third fourth : Byte) :
    (bytesWord first second third fourth).toNat =
      first.toNat + 256 * second.toNat + 65536 * third.toNat +
        16777216 * fourth.toNat := by
  unfold bytesWord
  rw [toNat_append_byte, toNat_append_byte, toNat_append_byte]
  omega

/-! ## Single bytes -/

def byteOf (word : Word) (index : Nat) : Byte :=
  word.extractLsb' (8 * index) 8

theorem getLsbD_byteOf (word : Word) (index : Nat) {bit : Nat} (inside : bit < 8) :
    (byteOf word index).getLsbD bit = word.getLsbD (8 * index + bit) := by
  unfold byteOf
  rw [BitVec.getLsbD_extractLsb', decide_eq_true inside, Bool.true_and]

theorem eq_of_byteOf_eq {first second : Word}
    (same : ∀ index < 4, byteOf first index = byteOf second index) :
    first = second := by
  apply BitVec.eq_of_getLsbD_eq
  intro bit inside
  have sameBit := congrArg (fun byte => byte.getLsbD (bit % 8))
    (same (bit / 8) (by omega))
  rw [getLsbD_byteOf _ _ (by omega), getLsbD_byteOf _ _ (by omega),
    Nat.div_add_mod] at sameBit
  exact sameBit

theorem byteOf_bytesWord (bytes : Nat → Byte) {index : Nat} (inside : index < 4) :
    byteOf (bytesWord (bytes 0) (bytes 1) (bytes 2) (bytes 3)) index =
      bytes index := by
  apply BitVec.eq_of_getLsbD_eq
  intro bit small
  rw [getLsbD_byteOf _ _ small]
  unfold bytesWord
  simp only [BitVec.getLsbD_append]
  split_ifs with first second third
  · obtain rfl : index = 0 := by omega
    rw [Nat.mul_zero, Nat.zero_add]
  · obtain rfl : index = 1 := by omega
    congr 1
    omega
  · obtain rfl : index = 2 := by omega
    congr 1
    omega
  · obtain rfl : index = 3 := by omega
    congr 1
    omega

def lowBytes (count : Nat) : Word :=
  ~~~(BitVec.allOnes 32 <<< (8 * count))

theorem getLsbD_lowBytes (count : Nat) {bit : Nat} (inside : bit < 32) :
    (lowBytes count).getLsbD bit = decide (bit < 8 * count) := by
  unfold lowBytes
  have shifted : bit - 8 * count < 32 := by omega
  rw [BitVec.getLsbD_not, BitVec.getLsbD_shiftLeft, BitVec.getLsbD_allOnes,
    decide_eq_true inside, decide_eq_true shifted]
  cases decide (bit < 8 * count) <;> rfl

theorem and_lowBytes (word : Word) (count : Nat) :
    word &&& lowBytes count = (word.setWidth (8 * count)).setWidth 32 := by
  apply BitVec.eq_of_getLsbD_eq
  intro bit inside
  rw [BitVec.getLsbD_and, getLsbD_lowBytes count inside, BitVec.getLsbD_setWidth,
    BitVec.getLsbD_setWidth, decide_eq_true inside, Bool.true_and, Bool.and_comm]

theorem or_not_lowBytes {word : Word} {count : Nat}
    (negative : (word.setWidth (8 * count)).msb = true) :
    word ||| ~~~lowBytes count = (word.setWidth (8 * count)).signExtend 32 := by
  apply BitVec.eq_of_getLsbD_eq
  intro bit inside
  rw [BitVec.getLsbD_or, BitVec.getLsbD_not, getLsbD_lowBytes count inside,
    BitVec.getLsbD_signExtend, decide_eq_true inside, negative,
    BitVec.getLsbD_setWidth]
  by_cases low : bit < 8 * count
  · simp [low]
  · simp [low, inside]

theorem and_twoPow_ne_zero_iff {word : Word} {count : Nat} (some : 0 < count)
    (few : count ≤ 4) :
    word &&& BitVec.twoPow 32 (8 * count - 1) ≠ 0 ↔
      (word.setWidth (8 * count)).msb = true := by
  rw [BitVec.and_twoPow, BitVec.msb_eq_getLsbD_last, BitVec.getLsbD_setWidth,
    decide_eq_true (by omega), Bool.true_and]
  have notZero : BitVec.twoPow 32 (8 * count - 1) ≠ 0 := by
    intro zero
    have bits := congrArg (BitVec.getLsbD · (8 * count - 1)) zero
    simp at bits
    omega
  cases word.getLsbD (8 * count - 1) with
  | true => exact iff_of_true notZero rfl
  | false => exact iff_of_false (fun notZero => notZero rfl) (by decide)

def littleEndian : Nat → (Nat → Byte) → Nat
  | 0, _ => 0
  | size + 1, bytes =>
    (bytes 0).toNat + 256 * littleEndian size fun index => bytes (index + 1)

def extendTo (isSigned : Bool) (size value : Nat) : Word :=
  if isSigned then (BitVec.ofNat (8 * size) value).signExtend 32
  else (BitVec.ofNat (8 * size) value).setWidth 32

/-- Keep the lowest bytes of `old`, and put those of `value` above them. -/
def mergeUp (kept : Nat) (old value : Word) : Word :=
  (old &&& lowBytes kept) ||| (value <<< (8 * kept))

/-- Keep the highest bytes of `old`, and put those of `value` below them. -/
def mergeDown (kept : Nat) (old value : Word) : Word :=
  (old &&& ~~~lowBytes (4 - kept)) |||
    (value.sshiftRight (8 * kept) &&& lowBytes (4 - kept))

theorem byteOf_mergeUp (old value : Word) (kept : Nat) {index : Nat}
    (inside : index < 4) :
    byteOf (mergeUp kept old value) index =
      if index < kept then byteOf old index
      else byteOf value (index - kept) := by
  apply BitVec.eq_of_getLsbD_eq
  intro bit small
  have within : 8 * index + bit < 32 := by omega
  rw [getLsbD_byteOf _ _ small, mergeUp, BitVec.getLsbD_or,
    BitVec.getLsbD_and, getLsbD_lowBytes _ within, BitVec.getLsbD_shiftLeft]
  by_cases below : index < kept
  · rw [if_pos below, getLsbD_byteOf _ _ small]
    simp [show 8 * index + bit < 8 * kept by omega]
  · rw [if_neg below, getLsbD_byteOf _ _ small, Nat.mul_sub,
      ← Nat.sub_add_comm (by omega)]
    simp [show ¬ 8 * index + bit < 8 * kept by omega, within]

theorem byteOf_mergeDown (old value : Word) {kept index : Nat}
    (few : kept < 4) (inside : index < 4) :
    byteOf (mergeDown kept old value) index =
      if index + kept < 4 then byteOf value (index + kept)
      else byteOf old index := by
  apply BitVec.eq_of_getLsbD_eq
  intro bit small
  have within : 8 * index + bit < 32 := by omega
  rw [getLsbD_byteOf _ _ small, mergeDown, BitVec.getLsbD_or,
    BitVec.getLsbD_and, BitVec.getLsbD_and, BitVec.getLsbD_not,
    getLsbD_lowBytes _ within, BitVec.getLsbD_sshiftRight]
  by_cases below : index + kept < 4
  · have shifted : 8 * (index + kept) + bit =
        8 * kept + (8 * index + bit) := by omega
    rw [if_pos below, getLsbD_byteOf _ _ small, shifted]
    simp [show 8 * index + bit < 8 * (4 - kept) by omega,
      show ¬ 32 ≤ 8 * index + bit by omega,
      show 8 * kept + (8 * index + bit) < 32 by omega]
  · rw [if_neg below, getLsbD_byteOf _ _ small]
    simp [show ¬ 8 * index + bit < 8 * (4 - kept) by omega, within]

theorem mergeUp_zero (old value : Word) : mergeUp 0 old value = value := by
  apply eq_of_byteOf_eq
  intro index inside
  rw [byteOf_mergeUp old value 0 inside, if_neg (Nat.not_lt_zero index),
    Nat.sub_zero]

theorem mergeDown_zero (old value : Word) : mergeDown 0 old value = value := by
  apply eq_of_byteOf_eq
  intro index inside
  rw [byteOf_mergeDown old value (by decide) inside, Nat.add_zero,
    if_pos inside]

theorem toInt_eq_toNat_of_nonneg {value : Word} (nonnegative : 0 ≤ value.toInt) :
    value.toInt = value.toNat := by
  rw [BitVec.toInt_eq_toNat_cond] at nonnegative ⊢
  split_ifs at nonnegative ⊢ <;> omega

/-! ## Lists of words -/

def encodeWords (words : List Word) : List Byte :=
  words.flatMap wordBytes

def decodeWords : List Byte → List Word
  | first :: second :: third :: fourth :: rest =>
    bytesWord first second third fourth :: decodeWords rest
  | _ => []

@[simp]
theorem length_encodeWords (words : List Word) :
    (encodeWords words).length = 4 * words.length := by
  induction words with
  | nil =>
    rfl
  | cons word words ih =>
    simp only [encodeWords, List.flatMap_cons, List.length_append,
      length_wordBytes, List.length_cons] at ih ⊢
    omega

theorem length_decodeWords (bytes : List Byte) :
    (decodeWords bytes).length = bytes.length / 4 := by
  fun_induction decodeWords bytes with
  | case1 first second third fourth rest ih =>
    simp only [List.length_cons, ih]
    omega
  | case2 bytes short =>
    match bytes, short with
    | [], _ => simp
    | [_], _ => simp
    | [_, _], _ => simp
    | [_, _, _], _ => simp
    | first :: second :: third :: fourth :: rest, short =>
      exact absurd rfl (short first second third fourth rest)

@[simp]
theorem decodeWords_encodeWords (words : List Word) :
    decodeWords (encodeWords words) = words := by
  induction words with
  | nil =>
    rfl
  | cons word words ih =>
    change bytesWord (word.extractLsb' 0 8) (word.extractLsb' 8 8)
        (word.extractLsb' 16 8) (word.extractLsb' 24 8) ::
          decodeWords (encodeWords words) = word :: words
    rw [bytesWord_extract, ih]

end Foundation
