import Nachos.Userprog.ReadNum
import Mathlib.Data.Nat.Digits.Lemmas

/-!
# The numbers that `SysPrintNum` prints
-/

namespace Nachos.Userprog

open Foundation

variable {World : Type}

def numeral (number : Int) : List Byte :=
  if number = 0 then [48] else decimal number

/-! ## The digit loop -/

/-- The variables `num` and `n` of `SysPrintNum` at the start of each turn of the
loop that stores the digits. -/
def digitTurns (num : Int) (n : Nat) : List (Int × Nat) :=
  if 0 < num then
    (num, n) :: digitTurns (num / 10) (n + 1)
  else
    []
termination_by num.toNat
decreasing_by omega

def printStores (num : Int) : List Nat :=
  if num = 0 ∨ num = -2 ^ 31 then
    []
  else
    (digitTurns num.natAbs 0).map Prod.snd

/-- The exact results of `num % 10`, `n++` and `num /= 10`. -/
def storeValues (turn : Int × Nat) : List Int :=
  [turn.1 % 10, (turn.2 : Int) + 1, turn.1 / 10]

/-- The exact results of `_numberBuffer[i] + '0'` and `--i`, for the digit that
was stored in a turn. -/
def emitValues (turn : Int × Nat) : List Int :=
  [turn.1 % 10 + 48, (turn.2 : Int) - 1]

/-- The exact results of the `int` operations of both loops. -/
def loopValues (turns : List (Int × Nat)) : List Int :=
  turns.flatMap storeValues ++
    ((turns.length : Int) - 1) :: turns.reverse.flatMap emitValues

/-- The exact results of all `int` operations of `SysPrintNum`: those of `++i`
for the least `int`, otherwise `-num` and those of the loops. -/
def printValues (num : Int) : List Int :=
  if num = 0 then
    []
  else if num = -2 ^ 31 then
    (List.range 10).map fun i : Nat => (i : Int) + 1
  else if num < 0 then
    -num :: loopValues (digitTurns num.natAbs 0)
  else
    loopValues (digitTurns num.natAbs 0)

theorem digitTurns_bounds :
    ∀ (count number n : Nat), number < 10 ^ count →
      (digitTurns number n).length ≤ count ∧
        ∀ turn ∈ digitTurns number n,
          (0 < turn.1 ∧ turn.1 ≤ number) ∧ turn.2 < n + count
  | 0, number, n, small => by
    have zero : number = 0 := by omega
    subst zero
    unfold digitTurns
    simp
  | count + 1, number, n, small => by
    unfold digitTurns
    split_ifs with positive
    · have shorter : number / 10 < 10 ^ count := by
        rw [Nat.pow_succ] at small
        omega
      obtain ⟨fewer, later⟩ :=
        digitTurns_bounds count (number / 10) (n + 1) shorter
      rw [show (number : Int) / 10 = ((number / 10 : Nat) : Int) by omega]
      refine ⟨Nat.succ_le_succ fewer, ?_⟩
      intro turn member
      rcases List.mem_cons.mp member with rfl | isLater
      · exact ⟨⟨positive, le_refl _⟩, by dsimp only; omega⟩
      · have bounds := later turn isLater
        omega
    · simp

theorem loopValues_range
    {turns : List (Int × Nat)} {number : Nat} (few : turns.length ≤ 10)
    (small : number < 2 ^ 31)
    (bounds : ∀ turn ∈ turns,
      (0 < turn.1 ∧ turn.1 ≤ number) ∧ turn.2 < 0 + 10) :
    ∀ value ∈ loopValues turns, -2 ^ 31 ≤ value ∧ value < 2 ^ 31 := by
  intro value member
  rcases List.mem_append.mp member with storing | printing
  · obtain ⟨turn, isTurn, isValue⟩ := List.mem_flatMap.mp storing
    have bound := bounds turn isTurn
    simp only [storeValues, List.mem_cons, List.not_mem_nil, or_false] at isValue
    omega
  · rcases List.mem_cons.mp printing with rfl | emitted
    · omega
    · obtain ⟨turn, isTurn, isValue⟩ := List.mem_flatMap.mp emitted
      have bound := bounds turn (List.mem_reverse.mp isTurn)
      simp only [emitValues, List.mem_cons, List.not_mem_nil,
        or_false] at isValue
      omega

/-- The loop stores the last digit of each turn, as long as its index is inside
the buffer. -/
theorem storeDigits_eq_digitTurns (num : Int) (n : Nat) :
    storeDigits num n =
      if ∀ turn ∈ digitTurns num n, turn.2 < numberBufferSize then
        .ok ((digitTurns num n).map fun turn => BitVec.ofInt 8 (turn.1 % 10))
      else
        .error .outOfBounds := by
  fun_induction storeDigits num n with
  | case1 num n positive room ih =>
    unfold digitTurns
    rw [if_pos positive, ih]
    simp only [List.forall_mem_cons, room, true_and, List.map_cons]
    split_ifs <;> rfl
  | case2 num n positive full =>
    unfold digitTurns
    rw [if_pos positive, if_neg]
    exact fun inside => full (inside (num, n) List.mem_cons_self)
  | case3 num n stops =>
    unfold digitTurns
    rw [if_neg stops]
    simp

theorem digitTurns_digits (number : Nat) (n : Nat) :
    ((digitTurns number n).map fun turn => BitVec.ofInt 8 (turn.1 % 10)) =
      (Nat.digits 10 number).map (BitVec.ofNat 8) := by
  induction number using Nat.strongRecOn generalizing n with
  | ind number ih =>
    unfold digitTurns
    rcases Nat.eq_zero_or_pos number with rfl | positive
    · rfl
    · have quotient : (number : Int) / 10 = ((number / 10 : Nat) : Int) := by
        omega
      have remainder : (number : Int) % 10 = ((number % 10 : Nat) : Int) := by
        omega
      rw [if_pos (by omega), Nat.digits_def' (by decide) positive,
        List.map_cons, List.map_cons, quotient, remainder,
        BitVec.ofInt_natCast,
        ih (number / 10) (by omega) (n + 1)]

theorem storeDigits_eq {number : Nat} (small : number < 10 ^ 10) :
    storeDigits number 0 =
      .ok ((Nat.digits 10 number).map (BitVec.ofNat 8)) := by
  have inside : ∀ turn ∈ digitTurns number 0, turn.2 < numberBufferSize := by
    intro turn member
    have bound := ((digitTurns_bounds 10 number 0 small).2 turn member).2
    unfold numberBufferSize maxNumLen
    omega
  rw [storeDigits_eq_digitTurns, if_pos inside, digitTurns_digits]

theorem digits_print (number : Nat) :
    (((Nat.digits 10 number).map (BitVec.ofNat 8)).map (· + 48)).reverse =
      digitText number := by
  unfold digitText
  rw [List.map_map]
  congr 2
  funext digit
  change BitVec.ofNat 8 digit + 48 = BitVec.ofNat 8 (48 + digit)
  rw [Nat.add_comm, BitVec.ofNat_add]
  rfl

theorem natAbs_lt_of_int (num : Word) : num.toInt.natAbs < 10 ^ 10 := by
  have lower := @BitVec.le_toInt 32 num
  have upper := @BitVec.toInt_lt 32 num
  omega

theorem sysPrintNum_eq
    (host : Stub.Host World) (num : Word) (world : World) :
    sysPrintNum host num.toInt world =
      .ok (putChars host (numeral num.toInt) world) := by
  unfold sysPrintNum numeral
  by_cases zero : num.toInt = 0
  · rw [if_pos zero, if_pos zero]
  · rw [if_neg zero, if_neg zero]
    by_cases least : num.toInt = -2 ^ 31
    · rw [if_pos least, least, minText_eq_decimal]
    · rw [if_neg least, storeDigits_eq (natAbs_lt_of_int num), ok_bind,
        digits_print]
      rfl

/-- `SysPrintNum` prints the numeral of every `int`.  No `int` operation on the
way overflows, and the digits are stored in the first ten entries of
`_numberBuffer`, in at most ten turns of the loop. -/
theorem sysPrintNum_exact
    (host : Stub.Host World) (num : Word) (world : World) :
    sysPrintNum host num.toInt world =
        .ok (putChars host (numeral num.toInt) world) ∧
      (∀ value ∈ printValues num.toInt, -2 ^ 31 ≤ value ∧ value < 2 ^ 31) ∧
      (printStores num.toInt).length ≤ 10 ∧
      ∀ index ∈ printStores num.toInt, index < 10 := by
  have lower := @BitVec.le_toInt 32 num
  have upper := @BitVec.toInt_lt 32 num
  obtain ⟨few, bounds⟩ :=
    digitTurns_bounds 10 num.toInt.natAbs 0 (natAbs_lt_of_int num)
  refine ⟨sysPrintNum_eq host num world, ?_, ?_, ?_⟩
  · intro value member
    unfold printValues at member
    split_ifs at member with zero least negative
    · cases member
    · obtain ⟨i, inRange, rfl⟩ := List.mem_map.mp member
      have small := List.mem_range.mp inRange
      omega
    · rcases List.mem_cons.mp member with rfl | inLoops
      · omega
      · exact loopValues_range few (by omega) bounds value inLoops
    · exact loopValues_range few (by omega) bounds value member
  · unfold printStores
    split_ifs
    · exact Nat.zero_le _
    · rw [List.length_map]
      exact few
  · unfold printStores
    split_ifs with special
    · simp
    · intro index member
      obtain ⟨turn, isTurn, rfl⟩ := List.mem_map.mp member
      have bound := (bounds turn isTurn).2
      omega

/-! ## Reading back what was printed -/

theorem readDigits_append (front back : List Byte) (num : Int) :
    readDigits (front ++ back) num =
      (readDigits front num).bind (readDigits back) := by
  induction front generalizing num with
  | nil => rfl
  | cons temp rest ih =>
    simp only [List.cons_append, readDigits]
    split_ifs
    · rfl
    · exact ih _

theorem readDigits_digitText (number : Nat) (small : number < 2 ^ 31) :
    readDigits (digitText number) 0 = some (number : Int) := by
  induction number using Nat.strongRecOn with
  | ind number ih =>
    rcases Nat.eq_zero_or_pos number with rfl | positive
    · rfl
    · have digit : number % 10 < 10 := Nat.mod_lt _ (by decide)
      have isDigit := toInt_digitChar digit
      rw [digitText_of_pos positive, readDigits_append,
        ih (number / 10) (by omega) (by omega),
        Option.bind_some]
      unfold readDigits readDigits
      rw [if_neg (by omega), isDigit, wrap_eq_self (by omega) (by omega)]
      congr 1
      omega

theorem checkDigits_digitText
    {buffer : List Byte} {start : Nat} :
    ∀ (len number : Nat), start + len ≤ buffer.length →
      slice buffer start len = digitText number →
      checkDigits buffer start number len = .ok true
  | 0, number, _, digits => by
    have zero : number = 0 := by
      rw [← textValue_digitText number, ← digits]
      rfl
    subst zero
    unfold checkDigits
    rfl
  | len + 1, number, inside, digits => by
    have here : start + len < buffer.length := by omega
    rw [slice_succ here] at digits
    rcases Nat.eq_zero_or_pos number with rfl | positive
    · exact absurd digits (by simp [digitText])
    · rw [digitText_of_pos positive] at digits
      obtain ⟨before, last⟩ := List.append_inj' digits rfl
      have isDigit := toInt_digitChar (Nat.mod_lt number (by decide : 0 < 10))
      have sameDigit : buffer[start + len].toInt - 48 = (number : Int) % 10 := by
        rw [List.singleton_inj.mp last, isDigit]
        omega
      have index : (start : Int) + (((len + 1 : Nat) : Int) - 1) =
          ((start + len : Nat) : Int) := by
        omega
      have previous : ((len + 1 : Nat) : Int) - 1 = (len : Int) := by omega
      have quotient : (number : Int) / 10 = ((number / 10 : Nat) : Int) := by
        omega
      unfold checkDigits
      rw [if_pos (by omega), index, charAt_natCast here, ok_bind,
        if_neg (not_not.mpr sameDigit), previous, quotient]
      exact checkDigits_digitText len (number / 10) (by omega) before

def recorder : Stub.Host (List Byte) :=
  { typingHost with putChar := fun character world => world ++ [character] }

theorem putChars_recorder (characters world : List Byte) :
    putChars recorder characters world = world ++ characters := by
  induction characters generalizing world with
  | nil => exact (List.append_nil world).symm
  | cons character characters ih =>
    change putChars recorder characters (world ++ [character]) = _
    rw [ih, List.append_assoc]
    rfl

theorem length_digitText_le_iff (number count : Nat) :
    (digitText number).length ≤ count ↔ number < 10 ^ count := by
  unfold digitText
  rw [List.length_reverse, List.length_map]
  exact Nat.digits_length_le_iff (by decide) number

theorem parseNum_of_checked
    {line : List Byte} {num : Int} (noNul : 0 ∉ line)
    (short : line.length < numberBufferSize) (notMin : line ≠ minText)
    (isChecked : checkedNum (stored line) = some num)
    (passes : checkNumString num (stored line) = .ok true) :
    parseNum (stored line) = .ok num := by
  rw [parseNum_eq (nul_mem_stored short), cString_stored noNul, if_neg notMin,
    isChecked]
  dsimp only
  rw [passes]
  rfl

theorem parseNum_of_neg
    {number : Nat} (positive : 0 < number) (small : number < 10 ^ 9) :
    parseNum (stored (45 :: digitText number)) = .ok (-(number : Int)) := by
  have noNul : 0 ∉ (45 : Byte) :: digitText number := by
    rw [List.mem_cons, not_or]
    exact ⟨by decide, notMem_digitText (by decide) number⟩
  have few := (length_digitText_le_iff number 9).mpr small
  have length : ((45 : Byte) :: digitText number).length ≤ 10 :=
    Nat.succ_le_succ few
  have short : ((45 : Byte) :: digitText number).length < numberBufferSize := by
    rw [numberBufferSize, maxNumLen]
    omega
  have notMin : (45 : Byte) :: digitText number ≠ minText := by
    intro isMin
    rw [isMin] at length
    exact absurd length (by decide)
  have isChecked : checkedNum (stored (45 :: digitText number)) =
      some (-(number : Int)) := by
    unfold checkedNum
    rw [cString_stored noNul]
    dsimp only
    rw [if_neg (not_or.mpr ⟨notMin, by rw [maxNumLen]; omega⟩)]
    change (readDigits (digitText number) 0).map (fun num => wrap (-num)) = _
    rw [readDigits_digitText number (by omega), Option.map_some,
      wrap_eq_self (by omega) (by omega)]
  have behind : slice (stored (45 :: digitText number)) 1
      (digitText number).length = digitText number := by
    unfold slice stored
    exact List.take_left
  have inside : 1 + (digitText number).length ≤
      (stored (45 :: digitText number)).length := by
    rw [length_stored short.le, numberBufferSize, maxNumLen]
    omega
  apply parseNum_of_checked noNul short notMin isChecked
  rw [checkNumString_of_minus noNul short positive (by omega)]
  exact checkDigits_digitText _ _ inside behind

theorem parseNum_of_pos
    {number : Nat} (positive : 0 < number) (small : number < 2 ^ 31) :
    parseNum (stored (digitText number)) = .ok (number : Int) := by
  have noNul : 0 ∉ digitText number := notMem_digitText (by decide) number
  have length := (length_digitText_le_iff number 10).mpr (by omega)
  have short : (digitText number).length < numberBufferSize := by
    rw [numberBufferSize, maxNumLen]
    omega
  have notMin : digitText number ≠ minText := by
    intro isMin
    rw [isMin] at length
    exact absurd length (by decide)
  have noMinus : ((stored (digitText number)).headD 0 == 45) = false := by
    have front := headD_digitText number
    rw [beq_eq_false_iff_ne]
    cases split : digitText number with
    | nil => decide
    | cons first rest =>
      rw [split] at front
      exact front
  have isChecked : checkedNum (stored (digitText number)) =
      some (number : Int) := by
    unfold checkedNum
    rw [cString_stored noNul]
    dsimp only
    rw [if_neg (not_or.mpr ⟨notMin, by rw [maxNumLen]; omega⟩), noMinus]
    change (readDigits (digitText number) 0).map (fun num => num) = _
    rw [readDigits_digitText number small]
    rfl
  have whole : slice (stored (digitText number)) 0 (digitText number).length =
      digitText number := by
    unfold slice stored
    exact List.take_left
  have inside : 0 + (digitText number).length ≤
      (stored (digitText number)).length := by
    rw [length_stored short.le]
    omega
  apply parseNum_of_checked noNul short notMin isChecked
  rw [checkNumString_of_pos noNul short positive]
  exact checkDigits_digitText _ _ inside whole

theorem parseNum_of_long
    {line : List Byte} (noNul : 0 ∉ line) (long : line.length = maxNumLen)
    (notMin : line ≠ minText) : parseNum (stored line) = .ok 0 := by
  have short : line.length < numberBufferSize := by
    rw [long]
    decide
  have notChecked : checkedNum (stored line) = none := by
    unfold checkedNum
    rw [cString_stored noNul]
    exact if_pos (Or.inr long.ge)
  rw [parseNum_eq (nul_mem_stored short), cString_stored noNul, if_neg notMin,
    notChecked]

/-- Ten digits and a minus sign are read as 0, but for the least `int`. -/
theorem parseNum_numeral (num : Word) :
    parseNum (stored (numeral num.toInt)) =
      .ok (if num.toInt = -2 ^ 31 ∨ -10 ^ 9 < num.toInt then num.toInt
        else 0) := by
  have lower := @BitVec.le_toInt 32 num
  have upper := @BitVec.toInt_lt 32 num
  generalize num.toInt = number at lower upper
  unfold numeral
  rcases Int.lt_trichotomy number 0 with negative | rfl | positive
  · rw [if_neg negative.ne]
    obtain ⟨size, rfl⟩ : ∃ size : Nat, number = -(size : Int) :=
      ⟨number.natAbs, by omega⟩
    have isDecimal : decimal (-(size : Int)) = 45 :: digitText size := by
      unfold decimal
      rw [if_pos negative, Int.natAbs_neg, Int.natAbs_natCast]
    by_cases few : size < 10 ^ 9
    · rw [if_pos (Or.inr (by omega)), isDecimal]
      exact parseNum_of_neg (by omega) few
    · by_cases least : -(size : Int) = -2 ^ 31
      · rw [if_pos (Or.inl least), least, ← minText_eq_decimal]
        rfl
      · rw [if_neg (by omega)]
        have ten : (digitText size).length = 10 := by
          have most := (length_digitText_le_iff size 10).mpr (by omega)
          have notNine := (length_digitText_le_iff size 9).not.mpr few
          omega
        apply parseNum_of_long
        · rw [isDecimal, List.mem_cons, not_or]
          exact ⟨by decide, notMem_digitText (by decide) size⟩
        · rw [isDecimal, List.length_cons, ten]
          rfl
        · rw [minText_eq_decimal]
          intro same
          have values := congrArg lineValue same
          rw [lineValue_decimal, lineValue_decimal] at values
          exact least values
  · rfl
  · obtain ⟨size, rfl⟩ := Int.eq_ofNat_of_zero_le positive.le
    have isDecimal : decimal (size : Int) = digitText size := by
      unfold decimal
      rw [if_neg (by omega), Int.natAbs_natCast]
    rw [if_neg positive.ne', if_pos (Or.inr (by omega)), isDecimal]
    exact parseNum_of_pos (by omega) (by omega)

theorem numeral_isLine (num : Word) :
    10 ∉ numeral num.toInt ∧ (numeral num.toInt).length ≤ numberBufferSize := by
  have few := (length_digitText_le_iff num.toInt.natAbs 10).mpr
    (natAbs_lt_of_int num)
  have noNewline : 10 ∉ digitText num.toInt.natAbs :=
    notMem_digitText (by decide) _
  rw [numberBufferSize, maxNumLen]
  unfold numeral decimal
  split_ifs
  · decide
  · rw [List.mem_cons, not_or, List.length_cons]
    exact ⟨⟨by decide, noNewline⟩, by omega⟩
  · exact ⟨noNewline, by omega⟩

/-- What `SysPrintNum` prints is read back by `SysReadNum` as the same number,
exactly if it is the least `int` or has not ten digits and a minus. -/
theorem read_printed_iff
    {num : Word} {text : List Byte}
    (printed : sysPrintNum recorder num.toInt [] = .ok text)
    {host : Stub.Host World} {world next : World}
    (typed : Types host text world next) :
    sysReadNum host world = .ok (num.toInt, next) ↔
      num.toInt = -2 ^ 31 ∨ -10 ^ 9 < num.toInt := by
  rw [sysPrintNum_eq, putChars_recorder] at printed
  cases printed
  obtain ⟨oneLine, fits⟩ := numeral_isLine num
  rw [sysReadNum_of_types typed oneLine fits]
  change (parseNum (stored (numeral num.toInt)) >>= _) = _ ↔ _
  rw [parseNum_numeral, ok_bind]
  split_ifs with reads
  · exact iff_of_true rfl reads
  · refine iff_of_false ?_ reads
    intro same
    have zero : 0 = num.toInt := congrArg Prod.fst (Except.ok.inj same)
    exact reads (Or.inr (by omega))

/-- `-7` is printed and read back. -/
theorem read_printed_minus_seven :
    sysPrintNum recorder (-7) [] = .ok [45, 55] ∧
      sysReadNum typingHost [45, 55] = .ok (-7, []) := by
  have printed : sysPrintNum recorder (-7 : Word).toInt [] = .ok [45, 55] := by
    rw [sysPrintNum_eq]
    rfl
  exact ⟨printed, (read_printed_iff printed
    (⟨[55], rfl, [], rfl, rfl⟩ : Types typingHost [45, 55] [45, 55] [])).mpr
      (by decide)⟩

/-- `-1000000000` is printed, and read as 0. -/
theorem read_printed_ten_digits :
    sysPrintNum recorder (-1000000000) [] =
        .ok [45, 49, 48, 48, 48, 48, 48, 48, 48, 48, 48] ∧
      sysReadNum typingHost
        [45, 49, 48, 48, 48, 48, 48, 48, 48, 48, 48] = .ok (0, []) := by
  refine ⟨?_, rfl⟩
  have printed := sysPrintNum_eq recorder (-1000000000 : Word) []
  rw [show (-1000000000 : Word).toInt = -1000000000 from rfl] at printed
  rw [printed]
  unfold numeral decimal digitText
  norm_num
  decide

end Nachos.Userprog
