import Nachos.Userprog.Ksyscall
import Mathlib.Data.Nat.Digits.Defs

/-!
# The numbers that `SysReadNum` returns
-/

namespace Nachos.Userprog

open Foundation

variable {World : Type}

def digitChar (digit : Nat) : Byte :=
  BitVec.ofNat 8 (48 + digit)

def digitText (number : Nat) : List Byte :=
  ((Nat.digits 10 number).map digitChar).reverse

def decimal (number : Int) : List Byte :=
  if number < 0 then
    45 :: digitText number.natAbs
  else
    digitText number.natAbs

def textValue (digits : List Byte) : Nat :=
  Nat.ofDigits 10 (digits.reverse.map (fun character => character.toNat - 48))

def lineValue (line : List Byte) : Int :=
  if line.headD 0 = 45 then
    -(textValue line.tail : Int)
  else
    textValue line

def Types (host : Stub.Host World) : List Byte → World → World → Prop
  | [], world, next => host.getChar world = (10, next)
  | character :: line, world, next =>
    ∃ middle, host.getChar world = (character, middle) ∧
      Types host line middle next

/-! ## What `checkNumString` reads -/

def digitReads (buffer : List Byte) (start integer len : Int) : List Int :=
  if 0 < integer then
    (start + (len - 1)) ::
      match charAt buffer (start + (len - 1)) with
      | .ok character =>
        if character.toInt - 48 ≠ integer % 10 then
          []
        else
          digitReads buffer start (integer / 10) (len - 1)
      | .error _ => []
  else
    []
termination_by integer.toNat
decreasing_by omega

def numStringReads (integer : Int) (buffer : List Byte) : List Int :=
  if integer = 0 then
    []
  else if integer < 0 then
    0 ::
      if buffer.headD 0 ≠ 45 then
        []
      else
        digitReads buffer 1 (wrap (-integer)) ((cString buffer).length - 1)
  else
    digitReads buffer 0 integer (cString buffer).length

theorem digitReads_lt (buffer : List Byte) (start integer len : Int) :
    ∀ index ∈ digitReads buffer start integer len, index < start + len := by
  intro index member
  unfold digitReads at member
  split_ifs at member with positive
  · rcases List.mem_cons.mp member with rfl | later
    · omega
    · split at later
      · split_ifs at later
        · cases later
        · have before := digitReads_lt buffer start (integer / 10) (len - 1)
            index later
          omega
      · cases later
  · cases member
termination_by integer.toNat
decreasing_by omega

theorem checkDigits_congr
    {buffer other : List Byte} {start : Int} (integer len : Int)
    (same : ∀ index ∈ digitReads buffer start integer len,
      charAt buffer index = charAt other index) :
    checkDigits buffer start integer len =
      checkDigits other start integer len := by
  fun_induction checkDigits buffer start integer len with
  | case1 integer len positive ih =>
    unfold digitReads at same
    rw [if_pos positive, List.forall_mem_cons] at same
    conv_rhs => rw [checkDigits, if_pos positive, ← same.1]
    cases found : charAt buffer (start + (len - 1)) with
    | error fault => rfl
    | ok character =>
      have later := same.2
      rw [found] at later
      simp only [ok_bind]
      split_ifs with different
      · rfl
      · simp only [if_neg different] at later
        exact ih character different later
  | case2 integer len stops =>
    rw [checkDigits, if_neg stops]

theorem headD_of_charAt
    {buffer other : List Byte} (same : charAt buffer 0 = charAt other 0) :
    buffer.headD 0 = other.headD 0 := by
  cases buffer <;> cases other <;> simp_all [charAt]

theorem numStringReads_le
    (integer : Int) (buffer : List Byte) :
    ∀ index ∈ numStringReads integer buffer,
      index ≤ (cString buffer).length := by
  intro index member
  unfold numStringReads at member
  split_ifs at member with zero negative noMinus
  · cases member
  · have isZero := List.mem_singleton.mp member
    omega
  · rcases List.mem_cons.mp member with rfl | later
    · omega
    · have before := digitReads_lt _ _ _ _ index later
      omega
  · have before := digitReads_lt _ _ _ _ index member
    omega

/-- `checkNumString` depends on the text and on the places it indexes. -/
theorem checkNumString_congr
    {buffer other : List Byte} (integer : Int)
    (scan : scanBuffer buffer = scanBuffer other)
    (same : ∀ index ∈ numStringReads integer buffer,
      charAt buffer index = charAt other index) :
    checkNumString integer buffer = checkNumString integer other := by
  unfold checkNumString
  rw [← scan]
  unfold scanBuffer
  by_cases terminated : 0 ∈ buffer
  · rw [if_pos terminated, ok_bind, ok_bind]
    unfold numStringReads at same
    by_cases zero : integer = 0
    · rw [if_pos zero, if_pos zero]
    rw [if_neg zero] at same ⊢
    rw [if_neg zero]
    by_cases negative : integer < 0
    · rw [if_pos negative, List.forall_mem_cons] at same
      rw [if_pos negative, if_pos negative, ← headD_of_charAt same.1]
      split_ifs with noMinus
      · rfl
      · rw [if_neg noMinus] at same
        exact checkDigits_congr _ _ same.2
    · rw [if_neg negative] at same ⊢
      rw [if_neg negative]
      exact checkDigits_congr _ _ same
  · rw [if_neg terminated]
    rfl

/-- The number that `SysReadNum` hands to `checkNumString`, if it gets there. -/
def checkedNum (buffer : List Byte) : Option Int :=
  let text := cString buffer
  if text = minText ∨ maxNumLen ≤ text.length then
    none
  else
    let nega := buffer.headD 0 == 45
    (readDigits (if nega then text.tail else text) 0).map (fun num =>
      if nega then wrap (-num) else num)

theorem parseNum_eq {buffer : List Byte} (terminated : 0 ∈ buffer) :
    parseNum buffer =
      if cString buffer = minText then
        .ok (-2 ^ 31)
      else
        match checkedNum buffer with
        | none => .ok 0
        | some num => do
          if ← checkNumString num buffer then return num else return 0 := by
  unfold parseNum checkedNum scanBuffer
  rw [if_pos terminated, ok_bind]
  dsimp only
  by_cases isMin : cString buffer = minText
  · rw [if_pos isMin, if_pos isMin]
    rfl
  · rw [if_neg isMin, if_neg isMin]
    by_cases long : maxNumLen ≤ (cString buffer).length
    · rw [if_pos long, if_pos (Or.inr long)]
      rfl
    · rw [if_neg long, if_neg (not_or.mpr ⟨isMin, long⟩)]
      cases readDigits
          (if (buffer.headD 0 == 45) = true then (cString buffer).tail
            else cString buffer) 0 with
      | none => rfl
      | some num => rfl

/-! ## Digits -/

theorem toInt_digitChar {digit : Nat} (small : digit < 10) :
    (digitChar digit).toInt = 48 + digit := by
  unfold digitChar
  rw [BitVec.toInt_ofNat', Int.bmod_eq_of_le (by omega) (by omega)]
  omega

theorem eq_digitChar {character : Byte} {digit : Nat} (small : digit < 10)
    (same : character.toInt - 48 = digit) : character = digitChar digit := by
  apply BitVec.eq_of_toInt_eq
  rw [toInt_digitChar small]
  omega

theorem digitText_of_pos {number : Nat} (positive : 0 < number) :
    digitText number = digitText (number / 10) ++ [digitChar (number % 10)] := by
  unfold digitText
  rw [Nat.digits_def' (by decide) positive, List.map_cons, List.reverse_cons]

theorem textValue_digitText (number : Nat) :
    textValue (digitText number) = number := by
  have back : ∀ digit ∈ Nat.digits 10 number,
      ((fun character : Byte => character.toNat - 48) ∘ digitChar) digit =
        digit := by
    intro digit member
    have small := Nat.digits_lt_base (by decide) member
    change (BitVec.ofNat 8 (48 + digit)).toNat - 48 = digit
    rw [BitVec.toNat_ofNat, Nat.mod_eq_of_lt (by omega)]
    omega
  unfold textValue digitText
  rw [List.reverse_reverse, List.map_map, List.map_congr_left back,
    List.map_id', Nat.ofDigits_digits]

theorem toInt_of_mem_digitText
    {number : Nat} {character : Byte} (member : character ∈ digitText number) :
    48 ≤ character.toInt ∧ character.toInt < 58 := by
  unfold digitText at member
  rw [List.mem_reverse] at member
  obtain ⟨digit, digitMember, rfl⟩ := List.mem_map.mp member
  have small := Nat.digits_lt_base (by decide) digitMember
  rw [toInt_digitChar small]
  omega

theorem notMem_digitText
    {character : Byte} (other : character.toInt < 48) (number : Nat) :
    character ∉ digitText number := by
  intro member
  have bounds := toInt_of_mem_digitText member
  omega

theorem headD_digitText (number : Nat) : (digitText number).headD 0 ≠ 45 := by
  cases split : digitText number with
  | nil => decide
  | cons first rest =>
    intro minus
    refine notMem_digitText (by decide : (45 : Byte).toInt < 48) number ?_
    rw [split, ← show first = 45 from minus]
    exact List.mem_cons_self

theorem lineValue_decimal (number : Int) :
    lineValue (decimal number) = number := by
  unfold decimal lineValue
  split_ifs with negative minus minus
  · rw [List.tail_cons, textValue_digitText]
    omega
  · exact absurd rfl minus
  · exact absurd minus (headD_digitText _)
  · rw [textValue_digitText]
    omega

theorem charAt_natCast
    {buffer : List Byte} {index : Nat} (inside : index < buffer.length) :
    charAt buffer index = .ok buffer[index] := by
  unfold charAt
  rw [if_pos (Int.natCast_nonneg _), Int.toNat_natCast,
    List.getElem?_eq_getElem inside]

/-- The loop of `checkNumString` on a number that has no more digits than the
text: it stays inside the text, and succeeds only if the text is the number. -/
theorem checkDigits_spec
    {buffer : List Byte} {start : Nat} :
    ∀ (len number : Nat), start + len ≤ buffer.length → number < 10 ^ len →
      (checkDigits buffer start number len = .ok false ∨
        checkDigits buffer start number len = .ok true ∧
          slice buffer start len = digitText number) ∧
      ∀ index ∈ digitReads buffer start number len,
        (start : Int) ≤ index ∧ index < start + len
  | 0, number, _, small => by
    have zero : number = 0 := by omega
    subst zero
    unfold checkDigits digitReads
    exact ⟨Or.inr ⟨rfl, rfl⟩, by simp⟩
  | len + 1, number, inside, small => by
    have here : start + len < buffer.length := by omega
    have index : (start : Int) + (((len + 1 : Nat) : Int) - 1) =
        ((start + len : Nat) : Int) := by
      omega
    unfold checkDigits digitReads
    rw [index, charAt_natCast here, ok_bind]
    by_cases positive : 0 < number
    · have continues : (0 : Int) < number := by omega
      rw [if_pos continues, if_pos continues]
      by_cases different :
          buffer[start + len].toInt - 48 ≠ (number : Int) % 10
      · simp only [if_pos different]
        refine ⟨Or.inl rfl, ?_⟩
        intro place member
        rw [List.mem_singleton] at member
        omega
      · simp only [if_neg different]
        have shorter : number / 10 < 10 ^ len := by
          rw [Nat.pow_succ] at small
          omega
        have previous : ((len + 1 : Nat) : Int) - 1 = (len : Int) := by omega
        have quotient : (number : Int) / 10 = ((number / 10 : Nat) : Int) := by
          omega
        obtain ⟨result, reads⟩ :=
          @checkDigits_spec buffer start len (number / 10) (by omega) shorter
        rw [previous, quotient]
        refine ⟨?_, ?_⟩
        · rcases result with fails | ⟨succeeds, digits⟩
          · exact Or.inl fails
          · have last : buffer[start + len] = digitChar (number % 10) :=
              eq_digitChar (Nat.mod_lt _ (by decide)) (by omega)
            refine Or.inr ⟨succeeds, ?_⟩
            rw [slice_succ here, digits, last, ← digitText_of_pos positive]
        · intro place member
          rcases List.mem_cons.mp member with rfl | later
          · omega
          · have bounds := reads place later
            omega
    · have stops : ¬ (0 : Int) < number := by omega
      rw [if_neg stops, if_neg stops]
      refine ⟨Or.inl ?_, by simp⟩
      have notEnd : (((len + 1 : Nat) : Int) == 0) = false := by
        rw [beq_eq_false_iff_ne]
        omega
      rw [notEnd]
      rfl

/-! ## The sum -/

/-- Without overflow the second loop of `SysReadNum` computes a number with no
more digits than the line. -/
theorem readDigits_small :
    ∀ (digits : List Byte) (sum : Nat) (num : Int),
      (sum + 1) * 10 ^ digits.length ≤ 2 ^ 31 →
      readDigits digits sum = some num →
      ∃ number : Nat, num = number ∧
        number < (sum + 1) * 10 ^ digits.length
  | [], sum, num, small, done => by
    cases done
    exact ⟨sum, rfl, by simp⟩
  | character :: rest, sum, num, small, done => by
    unfold readDigits at done
    split_ifs at done with notDigit
    obtain ⟨digit, digitEq⟩ : ∃ digit : Nat, character.toInt - 48 = digit :=
      Int.eq_ofNat_of_zero_le (by omega)
    have step : (sum * 10 + digit + 1) * 10 ^ rest.length ≤
        (sum + 1) * 10 ^ (character :: rest).length := by
      rw [List.length_cons, Nat.pow_succ', ← Nat.mul_assoc]
      exact Nat.mul_le_mul_right _ (by omega)
    have positive : 0 < 10 ^ rest.length := Nat.pow_pos (by decide)
    have fits : sum * 10 + digit + 1 ≤ 2 ^ 31 := by
      calc
        sum * 10 + digit + 1 ≤ (sum * 10 + digit + 1) * 10 ^ rest.length :=
          Nat.le_mul_of_pos_right _ positive
        _ ≤ 2 ^ 31 := step.trans small
    have next : wrap ((sum : Int) * 10 + (character.toInt - 48)) =
        ((sum * 10 + digit : Nat) : Int) := by
      rw [digitEq, wrap_eq_self (by omega) (by omega)]
      omega
    rw [next] at done
    obtain ⟨number, numberEq, bound⟩ :=
      readDigits_small rest (sum * 10 + digit) num (step.trans small) done
    exact ⟨number, numberEq, bound.trans_le step⟩

theorem readDigits_range :
    ∀ (digits : List Byte) (sum num : Int),
      -2 ^ 31 ≤ sum ∧ sum < 2 ^ 31 → readDigits digits sum = some num →
      -2 ^ 31 ≤ num ∧ num < 2 ^ 31
  | [], sum, num, range, done => by
    cases done
    exact range
  | character :: rest, sum, num, range, done => by
    unfold readDigits at done
    split_ifs at done
    exact readDigits_range rest _ num (wrap_range _) done

/-! ## Whole lines -/

def stored (line : List Byte) : List Byte :=
  line ++ List.replicate (numberBufferSize - line.length) 0

section Lines

variable {line : List Byte}

theorem cString_stored (noNul : 0 ∉ line) : cString (stored line) = line := by
  unfold stored
  rw [cString_append_nuls, cString_eq_self_iff.mpr noNul]

theorem length_stored (short : line.length ≤ numberBufferSize) :
    (stored line).length = numberBufferSize := by
  unfold stored
  rw [List.length_append, List.length_replicate]
  omega

theorem nul_mem_stored_iff :
    0 ∈ stored line ↔ line.length < numberBufferSize ∨ 0 ∈ line := by
  unfold stored
  rw [List.mem_append, List.mem_replicate]
  constructor
  · rintro (inLine | ⟨some, _⟩)
    · exact Or.inr inLine
    · exact Or.inl (by omega)
  · rintro (short | inLine)
    · exact Or.inr ⟨by omega, rfl⟩
    · exact Or.inl inLine

theorem nul_mem_stored (short : line.length < numberBufferSize) :
    0 ∈ stored line :=
  nul_mem_stored_iff.mpr (Or.inl short)

theorem checkNumString_of_minus
    {digits : List Byte} (noNul : 0 ∉ (45 : Byte) :: digits)
    (short : ((45 : Byte) :: digits).length < numberBufferSize) {number : Nat}
    (positive : 0 < number) (small : number < 2 ^ 31) :
    checkNumString (-(number : Int)) (stored (45 :: digits)) =
      checkDigits (stored (45 :: digits)) (1 : Nat) number digits.length := by
  have front : (stored (45 :: digits)).headD 0 = 45 := rfl
  have length : ((45 :: digits).length : Int) - 1 = (digits.length : Int) := by
    rw [List.length_cons]
    omega
  unfold checkNumString scanBuffer
  rw [if_pos (nul_mem_stored short), ok_bind, if_neg (by omega),
    if_pos (by omega), front, if_neg (by decide), Int.neg_neg,
    wrap_natCast small, cString_stored noNul, length]
  rfl

theorem checkNumString_of_pos
    (noNul : 0 ∉ line) (short : line.length < numberBufferSize) {number : Nat}
    (positive : 0 < number) :
    checkNumString number (stored line) =
      checkDigits (stored line) (0 : Nat) number line.length := by
  unfold checkNumString scanBuffer
  rw [if_pos (nul_mem_stored short), ok_bind, if_neg (by omega),
    if_neg (by omega), cString_stored noNul]
  rfl

structure Checked (line : List Byte) (num : Int) : Prop where
  range : -2 ^ 31 ≤ num ∧ num < 2 ^ 31
  result : ∃ result, checkNumString num (stored line) = .ok result ∧
    (result = true → num ≠ 0 → line = decimal num)
  reads : ∀ index ∈ numStringReads num (stored line),
    0 ≤ index ∧ index < line.length

theorem checked_zero (short : line.length < numberBufferSize) :
    Checked line 0 := by
  refine ⟨by decide, ⟨cString (stored line) == [48], ?_,
    fun _ nonzero => absurd rfl nonzero⟩, ?_⟩
  · unfold checkNumString scanBuffer
    rw [if_pos (nul_mem_stored short), ok_bind, if_pos rfl]
    rfl
  · unfold numStringReads
    rw [if_pos rfl]
    simp

/-- A line with a minus has at most nine digits, so that the sum does not
overflow. -/
theorem checked_of_minus
    {digits : List Byte} (noNul : 0 ∉ (45 : Byte) :: digits)
    (few : digits.length ≤ 9) {num : Int}
    (sum : readDigits digits 0 = some num) :
    Checked (45 :: digits) (wrap (-num)) := by
  have powerBound : 10 ^ digits.length ≤ 10 ^ 9 :=
    Nat.pow_le_pow_right (by decide) few
  obtain ⟨number, rfl, small⟩ := readDigits_small digits 0 num (by omega) sum
  rw [Nat.zero_add, Nat.one_mul] at small
  have text := cString_stored noNul
  have short : ((45 : Byte) :: digits).length < numberBufferSize := by
    simp only [List.length_cons, numberBufferSize, maxNumLen]
    omega
  have size := length_stored short.le
  rw [wrap_eq_self (by omega) (by omega)]
  by_cases zero : number = 0
  · rw [zero]
    exact checked_zero short
  · have front : (stored (45 :: digits)).headD 0 = 45 := rfl
    have behind : slice (stored (45 :: digits)) 1 digits.length = digits := by
      unfold slice stored
      exact List.take_left
    have back : wrap (- -(number : Int)) = number := by
      rw [Int.neg_neg, wrap_natCast (by omega)]
    have length :
        ((45 :: digits).length : Int) - 1 = (digits.length : Int) := by
      rw [List.length_cons]
      omega
    obtain ⟨result, reads⟩ :=
      @checkDigits_spec (stored (45 :: digits)) 1 digits.length number
        (by rw [size]; simp only [numberBufferSize, maxNumLen]; omega) small
    refine ⟨by omega, ?_, ?_⟩
    · rw [checkNumString_of_minus noNul short (by omega) (by omega)]
      rcases result with fails | ⟨succeeds, same⟩
      · exact ⟨false, fails, fun impossible => by cases impossible⟩
      · refine ⟨true, succeeds, fun _ _ => ?_⟩
        unfold decimal
        rw [if_pos (by omega), Int.natAbs_neg, Int.natAbs_natCast, ← same,
          behind]
    · unfold numStringReads
      rw [if_neg (by omega), if_pos (by omega), front, if_neg (by decide), back,
        text, length]
      intro index member
      rw [List.length_cons]
      rcases List.mem_cons.mp member with rfl | inLoop
      · omega
      · have bounds := reads index inLoop
        omega

/-- A line without a minus has at most ten digits.  If the sum of ten digits
overflows it is negative, which the check refuses at the first character, or it
still has no more digits than the line. -/
theorem checked_of_digits
    (noNul : 0 ∉ line) (noMinus : line.headD 0 ≠ 45) (few : line.length ≤ 10)
    {num : Int} (sum : readDigits line 0 = some num) : Checked line num := by
  have range := readDigits_range line 0 num (by decide) sum
  have text := cString_stored noNul
  have short : line.length < numberBufferSize := by
    simp only [numberBufferSize, maxNumLen]
    omega
  have size := length_stored short.le
  have front : (stored line).headD 0 ≠ 45 := by
    cases line with
    | nil => decide
    | cons first rest => exact noMinus
  have nonempty : num ≠ 0 → 0 < line.length := by
    intro nonzero
    cases line with
    | nil =>
      cases sum
      exact absurd rfl nonzero
    | cons first rest =>
      exact Nat.succ_pos _
  rcases Int.lt_trichotomy num 0 with negative | rfl | positive
  · refine ⟨range, ⟨false, ?_, fun impossible => by cases impossible⟩, ?_⟩
    · unfold checkNumString scanBuffer
      rw [if_pos (nul_mem_stored short), ok_bind, if_neg (by omega),
        if_pos negative, if_pos front]
      rfl
    · unfold numStringReads
      rw [if_neg (by omega), if_pos negative, if_pos front]
      have some := nonempty (by omega)
      intro index member
      rw [List.mem_singleton] at member
      omega
  · exact checked_zero short
  · obtain ⟨number, rfl⟩ := Int.eq_ofNat_of_zero_le (le_of_lt positive)
    have small : number < 10 ^ line.length := by
      rcases Nat.lt_or_ge 9 line.length with long | fewer
      · have ten : line.length = 10 := by omega
        rw [ten]
        omega
      · have powerBound : 10 ^ line.length ≤ 10 ^ 9 :=
          Nat.pow_le_pow_right (by decide) fewer
        obtain ⟨same, sameEq, bound⟩ :=
          readDigits_small line 0 number (by omega) sum
        omega
    have whole : slice (stored line) 0 line.length = line := by
      unfold slice stored
      exact List.take_left
    obtain ⟨result, reads⟩ :=
      @checkDigits_spec (stored line) 0 line.length number
        (by rw [size]; omega) small
    refine ⟨range, ?_, ?_⟩
    · rw [checkNumString_of_pos noNul short (by omega)]
      rcases result with fails | ⟨succeeds, same⟩
      · exact ⟨false, fails, fun impossible => by cases impossible⟩
      · refine ⟨true, succeeds, fun _ _ => ?_⟩
        unfold decimal
        rw [if_neg (by omega), Int.natAbs_natCast, ← same, whole]
    · unfold numStringReads
      rw [if_neg (by omega), if_neg (by omega), text]
      intro index member
      have bounds := reads index member
      omega

theorem checked_of_checkedNum
    (noNul : 0 ∉ line) {num : Int}
    (isChecked : checkedNum (stored line) = some num) : Checked line num := by
  unfold checkedNum at isChecked
  rw [cString_stored noNul] at isChecked
  dsimp only at isChecked
  split_ifs at isChecked with refused nega
  · rw [not_or, maxNumLen] at refused
    obtain ⟨total, sum, rfl⟩ := Option.map_eq_some_iff.mp isChecked
    cases line with
    | nil => cases nega
    | cons first digits =>
      have minus : first = 45 := beq_iff_eq.mp nega
      rw [minus] at noNul refused ⊢
      rw [List.length_cons] at refused
      exact checked_of_minus noNul (by omega) sum
  · rw [not_or, maxNumLen] at refused
    obtain ⟨total, sum, rfl⟩ := Option.map_eq_some_iff.mp isChecked
    refine checked_of_digits noNul ?_ (by omega) sum
    intro minus
    cases line with
    | nil => cases minus
    | cons first digits => exact nega (beq_iff_eq.mpr minus)

end Lines

theorem readLine_of_types
    {host : Stub.Host World} :
    ∀ (line : List Byte) (room : Nat) (world next : World),
      Types host line world next → 10 ∉ line → line.length ≤ room →
      readLine host room world = .ok (line, next)
  | [], room, world, next, typed, _, _ => by
    have typed : host.getChar world = (10, next) := typed
    cases room with
    | zero => simp only [readLine, typed, if_true]
    | succ room => simp only [readLine, typed, if_true]
  | character :: line, 0, _, _, _, _, tooLong => absurd tooLong (by simp)
  | character :: line, room + 1, world, next, typed, oneLine, fits => by
    obtain ⟨middle, given, rest⟩ := typed
    rw [List.mem_cons, not_or] at oneLine
    rw [List.length_cons] at fits
    have later :=
      readLine_of_types line room middle next rest oneLine.2 (by omega)
    simp only [readLine, given, if_neg (Ne.symm oneLine.1), later, ok_bind]
    rfl

theorem sysReadNum_of_types
    {host : Stub.Host World} {line : List Byte} {world next : World}
    (typed : Types host line world next) (oneLine : 10 ∉ line)
    (fits : line.length ≤ numberBufferSize) :
    sysReadNum host world = do
      let num ← parseNum (stored line)
      return (num, next) := by
  unfold sysReadNum
  rw [readLine_of_types line _ world next typed oneLine fits, ok_bind]
  rfl

theorem minText_eq_decimal : minText = decimal (-2 ^ 31) := by
  unfold decimal digitText
  norm_num
  decide

/-- A number other than 0 that is returned is the one on the line. -/
theorem parseNum_spec
    {line : List Byte} (noNul : 0 ∉ line)
    (short : line.length < numberBufferSize) :
    ∃ num, parseNum (stored line) = .ok num ∧
      (num ≠ 0 → line = decimal num ∧ -2 ^ 31 ≤ num ∧ num < 2 ^ 31) := by
  have parse := parseNum_eq (nul_mem_stored short)
  rw [cString_stored noNul] at parse
  by_cases isMin : line = minText
  · rw [if_pos isMin] at parse
    refine ⟨_, parse, fun _ => ?_⟩
    rw [isMin]
    exact ⟨minText_eq_decimal, by decide⟩
  · rw [if_neg isMin] at parse
    cases isChecked : checkedNum (stored line) with
    | none =>
      rw [isChecked] at parse
      exact ⟨0, parse, fun nonzero => absurd rfl nonzero⟩
    | some num =>
      obtain ⟨range, ⟨result, checks, canonical⟩, _⟩ :=
        checked_of_checkedNum noNul isChecked
      rw [isChecked] at parse
      dsimp only at parse
      rw [checks, ok_bind] at parse
      cases result with
      | true =>
        exact ⟨num, parse, fun nonzero => ⟨canonical rfl nonzero, range⟩⟩
      | false =>
        exact ⟨0, parse, fun nonzero => absurd rfl nonzero⟩

/-- `SysReadNum` returns for every line that fits in the buffer.  A number other
than 0 is the value of the line, and the line is its canonical decimal form;
`checkNumString` indexes only characters of the line. -/
theorem sysReadNum_exact
    {host : Stub.Host World} {line : List Byte} {world next : World}
    (typed : Types host line world next) (short : line.length ≤ 12)
    (characters : 0 ∉ line ∧ 10 ∉ line) :
    (∃ num, sysReadNum host world = .ok (num, next) ∧
      (num ≠ 0 →
        line = decimal num ∧ lineValue line = num ∧
          -2 ^ 31 ≤ num ∧ num < 2 ^ 31)) ∧
      ∀ num, checkedNum (stored line) = some num →
        ∀ index ∈ numStringReads num (stored line),
          0 ≤ index ∧ index < line.length := by
  have room : line.length < numberBufferSize := by
    simp only [numberBufferSize, maxNumLen]
    omega
  refine ⟨?_, ?_⟩
  · obtain ⟨num, parsed, meaning⟩ := parseNum_spec characters.1 room
    rw [sysReadNum_of_types typed characters.2 room.le, parsed]
    refine ⟨num, rfl, fun nonzero => ?_⟩
    obtain ⟨isDecimal, range⟩ := meaning nonzero
    refine ⟨isDecimal, ?_, range⟩
    rw [isDecimal, lineValue_decimal]
  · intro num isChecked
    exact (checked_of_checkedNum characters.1 isChecked).reads

def typingHost : Stub.Host (List Byte) where
  openFile _ _ world := (-1, world)
  read _ _ world := (-1, [], world)
  write _ _ world := (-1, world)
  lseek _ _ _ world := (-1, world)
  close _ world := (-1, world)
  unlink _ world := (-1, world)
  getChar world := (world.headD 10, world.tail)
  putChar _ world := world
  sameName fileName recorded _ := fileName == recorded

/-- The line `-7` is read as -7. -/
theorem sysReadNum_minus_seven :
    ∃ num, sysReadNum typingHost [45, 55, 10] = .ok (num, []) ∧ num = -7 ∧
      [45, 55] = decimal num ∧ lineValue [45, 55] = num ∧
        ∀ index ∈ numStringReads num (stored [45, 55]),
          0 ≤ index ∧ index < 2 := by
  obtain ⟨⟨num, returned, meaning⟩, reads⟩ :=
    @sysReadNum_exact _ typingHost [45, 55] [45, 55, 10] []
      ⟨[55, 10], rfl, [10], rfl, rfl⟩ (by decide) (by decide)
  have check : checkNumString (-7) (stored [45, 55]) = .ok true := by
    change checkDigits (stored [45, 55]) 1 7 1 = .ok true
    unfold checkDigits
    unfold checkDigits
    rfl
  have isSeven : sysReadNum typingHost [45, 55, 10] = .ok (-7, []) := by
    change (do
      let num ← (do
        if ← checkNumString (-7) (stored [45, 55]) then return (-7 : Int)
        else return 0)
      return (num, ([] : List Byte))) = _
    rw [check]
    rfl
  obtain rfl : -7 = num :=
    congrArg Prod.fst (Except.ok.inj (isSeven.symm.trans returned))
  obtain ⟨isDecimal, isValue, -⟩ := meaning (by decide)
  exact ⟨-7, returned, rfl, isDecimal, isValue, reads (-7) rfl⟩

/-! ## Lines of any length -/

/-- The first loop of `SysReadNum` stores inside `_numberBuffer` only, and leaves
a NUL there for `strcmp` and `strlen`. -/
def Tolerates (host : Stub.Host World) (world : World) : Prop :=
  ∃ line next, readLine host numberBufferSize world = .ok (line, next) ∧
    0 ∈ stored line

theorem readLine_of_long
    {host : Stub.Host World} :
    ∀ (line : List Byte) (room : Nat) (world next : World),
      Types host line world next → 10 ∉ line → room < line.length →
      readLine host room world = .error .outOfBounds
  | [], _, _, _, _, _, impossible => absurd impossible (Nat.not_lt_zero _)
  | character :: line, 0, world, next, typed, oneLine, _ => by
    obtain ⟨middle, given, _⟩ := typed
    rw [List.mem_cons, not_or] at oneLine
    simp only [readLine, given, if_neg (Ne.symm oneLine.1)]
  | character :: line, room + 1, world, next, typed, oneLine, long => by
    obtain ⟨middle, given, rest⟩ := typed
    rw [List.mem_cons, not_or] at oneLine
    rw [List.length_cons] at long
    have later :=
      readLine_of_long line room middle next rest oneLine.2 (by omega)
    simp only [readLine, given, if_neg (Ne.symm oneLine.1), later]
    rfl

theorem parseNum_congr
    {buffer other : List Byte} (terminated : 0 ∈ buffer)
    (otherTerminated : 0 ∈ other) (same : cString buffer = cString other) :
    parseNum buffer = parseNum other := by
  obtain ⟨rest, split⟩ := exists_behind_nul terminated
  obtain ⟨otherRest, otherSplit⟩ := exists_behind_nul otherTerminated
  rw [← same] at otherSplit
  have front : buffer.headD 0 = other.headD 0 := by
    rw [split, otherSplit]
    cases cString buffer <;> rfl
  have inText : ∀ index, index ≤ ((cString buffer).length : Int) →
      charAt buffer index = charAt other index := by
    intro index inside
    unfold charAt
    split_ifs with nonnegative
    · rw [split, otherSplit, List.getElem?_append, List.getElem?_append]
      split_ifs with before
      · rfl
      · rw [show index.toNat - (cString buffer).length = 0 by omega]
        rfl
    · rfl
  have scan : scanBuffer buffer = scanBuffer other := by
    unfold scanBuffer
    rw [if_pos terminated, if_pos otherTerminated, same]
  have check : ∀ num, checkNumString num buffer = checkNumString num other :=
    fun num => checkNumString_congr num scan fun index member =>
      inText index (numStringReads_le num buffer index member)
  unfold parseNum
  simp only [scan, front, check]

/-- `SysReadNum` tolerates a line exactly if the line is shorter than the buffer,
or fills it and has a NUL in it; and then it returns. -/
theorem sysReadNum_tolerates_iff
    {host : Stub.Host World} {line : List Byte} {world next : World}
    (typed : Types host line world next) (oneLine : 10 ∉ line) :
    (Tolerates host world ↔
      line.length ≤ 12 ∨ line.length = 13 ∧ 0 ∈ line) ∧
      (Tolerates host world →
        ∃ num, sysReadNum host world = .ok (num, next)) := by
  have size : numberBufferSize = 13 := rfl
  by_cases fits : line.length ≤ numberBufferSize
  · have stores := readLine_of_types line _ world next typed oneLine fits
    have tolerates : Tolerates host world ↔ 0 ∈ stored line := by
      constructor
      · rintro ⟨text, after, read, terminated⟩
        cases stores.symm.trans read
        exact terminated
      · exact fun terminated => ⟨line, next, stores, terminated⟩
    rw [tolerates]
    refine ⟨?_, ?_⟩
    · rw [nul_mem_stored_iff]
      constructor
      · rintro (short | isNul)
        · exact Or.inl (by omega)
        · by_cases short : line.length ≤ 12
          · exact Or.inl short
          · exact Or.inr ⟨by omega, isNul⟩
      · rintro (short | ⟨_, isNul⟩)
        · exact Or.inl (by omega)
        · exact Or.inr isNul
    · intro terminated
      have text : cString (stored line) = cString line :=
        cString_append_nuls _ _
      have short : (cString line).length < numberBufferSize := by
        obtain ⟨rest, split⟩ := exists_behind_nul terminated
        have lengths := congrArg List.length split
        rw [length_stored fits, text, List.length_append,
          List.length_cons] at lengths
        omega
      have noNul := nul_notMem_cString line
      obtain ⟨num, parsed, _⟩ := parseNum_spec noNul short
      rw [sysReadNum_of_types typed oneLine fits,
        parseNum_congr terminated (nul_mem_stored short)
          (text.trans (cString_stored noNul).symm), parsed]
      exact ⟨num, rfl⟩
  · have overflows := readLine_of_long line _ world next typed oneLine
      (Nat.lt_of_not_le fits)
    have fails : ¬ Tolerates host world := by
      rintro ⟨text, after, read, _⟩
      cases overflows.symm.trans read
    refine ⟨⟨fun tolerates => absurd tolerates fails, ?_⟩,
      fun tolerates => absurd tolerates fails⟩
    rintro (short | ⟨full, _⟩) <;> omega

/-- A line of thirteen characters with a NUL among them, and the least `int`. -/
theorem sysReadNum_tolerates_thirteen :
    (Tolerates typingHost (List.replicate 9 55 ++ 0 :: [55, 55, 55, 10]) ∧
      ∃ num, sysReadNum typingHost
        (List.replicate 9 55 ++ 0 :: [55, 55, 55, 10]) = .ok (num, [])) ∧
    Tolerates typingHost (minText ++ [10]) ∧
      ∃ num, sysReadNum typingHost (minText ++ [10]) = .ok (num, []) := by
  have types : ∀ line : List Byte, Types typingHost line (line ++ [10]) [] := by
    intro line
    induction line with
    | nil => rfl
    | cons character line ih =>
      exact ⟨line ++ [10], rfl, ih⟩
  obtain ⟨tolerates, returns⟩ := sysReadNum_tolerates_iff
    (types (List.replicate 9 55 ++ 0 :: [55, 55, 55])) (by decide)
  obtain ⟨toleratesMin, returnsMin⟩ :=
    sysReadNum_tolerates_iff (types minText) (by decide)
  have tolerated := tolerates.mpr (Or.inr (by decide))
  have toleratedMin := toleratesMin.mpr (Or.inl (by decide))
  exact ⟨⟨tolerated, returns tolerated⟩, toleratedMin, returnsMin toleratedMin⟩

/-- The fourteenth character of a line is stored behind the buffer, and after
thirteen characters there is no NUL left. -/
theorem long_lines_not_tolerated :
    readLine typingHost numberBufferSize (List.replicate 14 55) =
        .error .outOfBounds ∧
      readLine typingHost numberBufferSize (List.replicate 13 55) =
        .ok (List.replicate 13 55, []) ∧
      ¬ Tolerates typingHost (List.replicate 14 55) ∧
      ¬ Tolerates typingHost (List.replicate 13 55) := by
  refine ⟨rfl, rfl, ?_, ?_⟩
  · rintro ⟨line, next, read, _⟩
    cases read
  · rintro ⟨line, next, read, terminated⟩
    cases read
    revert terminated
    decide

end Nachos.Userprog
