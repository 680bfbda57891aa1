import Nachos.Machine.LoadDelay
import Nachos.Machine.Multiply

/-!
# Sums, shifts and quotients

The arithmetic instructions of `Machine::OneInstruction` beside exact integers.
-/

namespace Nachos

open Foundation

theorem toNat_and_31 (word : Word) : (word &&& 0x1f).toNat = word.toNat % 32 := by
  rw [BitVec.toNat_and, show BitVec.toNat (0x1f : Word) = 2 ^ 5 - 1 from rfl,
    Nat.and_two_pow_sub_one_eq_mod]

namespace Instruction

theorem opCode_decode (value : Word) :
    (∃ index, (opTable.get (tableField value 26)).1 = .special ∧
        (decode value).opCode = specialTable.get index) ∨
      ((opTable.get (tableField value 26)).1 = .bcond ∧
        (decode value).opCode = bcondCode value) ∨
      (decode value).opCode = (opTable.get (tableField value 26)).1 := by
  unfold decode
  dsimp only
  split
  · next special => exact Or.inl ⟨_, special, rfl⟩
  · next bcond => exact Or.inr (Or.inl ⟨bcond, rfl⟩)
  · exact Or.inr (Or.inr rfl)

theorem opTable_format :
    ∀ index : Fin 64,
      ((opTable.get index).1 = .addi → (opTable.get index).2 = .ifmt) ∧
      ((opTable.get index).1 = .special → (opTable.get index).2 = .rfmt) ∧
      (opTable.get index).1 ∉ [OpCode.sll, .srl, .sra] := by
  decide

theorem addi_notMem_specialTable : OpCode.addi ∉ specialTable := by
  decide

theorem bcondCode_mem (value : Word) :
    bcondCode value ∈ [OpCode.bltz, .bgez, .bltzal, .bgezal, .unimp] := by
  simp only [bcondCode]
  split_ifs <;> decide

theorem not_shift_of_branch {opCode : OpCode}
    (branch : opCode ∈ [OpCode.bltz, .bgez, .bltzal, .bgezal, .unimp]) :
    opCode ∉ [OpCode.sll, .srl, .sra] := by
  revert opCode
  simp

theorem extraField_ifmt (value : Word) :
    extraField value .ifmt = (value.setWidth 16).signExtend 32 := by
  have sameLow : (value &&& lowBytes 2).setWidth 16 = value.setWidth 16 := by
    rw [and_lowBytes, BitVec.setWidth_setWidth_of_le _ (by decide),
      BitVec.setWidth_eq]
  have sign := @and_twoPow_ne_zero_iff (value &&& lowBytes 2) 2 (by decide)
    (by decide)
  change (if value &&& lowBytes 2 &&& BitVec.twoPow 32 (8 * 2 - 1) ≠ 0 then
    (value &&& lowBytes 2) ||| ~~~lowBytes 2 else value &&& lowBytes 2) = _
  split_ifs with negative
  · rw [or_not_lowBytes (sign.mp negative)]
    exact congrArg (BitVec.signExtend 32) sameLow
  · have positive : (value.setWidth 16).msb = false := by
      rw [← sameLow]
      exact Bool.eq_false_iff.mpr fun isSet => negative (sign.mpr isSet)
    rw [BitVec.signExtend_eq_setWidth_of_msb_false positive]
    exact and_lowBytes value 2

theorem extra_of_addi
    {value : Word} (isAddi : (decode value).opCode = .addi) :
    (decode value).extra = (value.setWidth 16).signExtend 32 := by
  have format : (opTable.get (tableField value 26)).2 = .ifmt := by
    rcases opCode_decode value with ⟨index, -, same⟩ | ⟨-, same⟩ | same
    · rw [isAddi] at same
      exact absurd (same ▸ List.get_mem _ _) addi_notMem_specialTable
    · have member := bcondCode_mem value
      rw [← same, isAddi] at member
      exact absurd member (by decide)
    · exact (opTable_format _).1 (same.symm.trans isAddi)
  change extraField value (opTable.get (tableField value 26)).2 = _
  rw [format]
  exact extraField_ifmt value

theorem extra_of_shift
    {value : Word} (isShift : (decode value).opCode ∈ [OpCode.sll, .srl, .sra]) :
    (decode value).extra.toNat = value.toNat / 64 % 32 := by
  have format : (opTable.get (tableField value 26)).2 = .rfmt := by
    rcases opCode_decode value with ⟨index, special, -⟩ | ⟨-, same⟩ | same
    · exact (opTable_format _).2.1 special
    · have member := bcondCode_mem value
      rw [← same] at member
      exact absurd isShift (not_shift_of_branch member)
    · rw [same] at isShift
      exact absurd isShift (opTable_format _).2.2
  change (extraField value (opTable.get (tableField value 26)).2).toNat = _
  rw [format]
  change ((value >>> 6) &&& 0x1f).toNat = _
  rw [toNat_and_31, BitVec.toNat_ushiftRight, Nat.shiftRight_eq_div_pow]

end Instruction

namespace Machine

variable {machine : Machine} {value : Word}

def Fetches (machine : Machine) (value : Word) : Prop :=
  ∃ fetched, machine.readMem (machine.registers pcReg) 4 =
    .ok (.ok value, fetched)

theorem Fetches.nextOutcome
    (fetches : machine.Fetches value) (ready : machine.translation.Ready) :
    ∃ fetched, machine.Looked fetched ∧ machine.nextOutcome =
      fetched.execute (Instruction.decode value) := by
  obtain ⟨fetched, performed⟩ := fetches
  apply exists_nextOutcome ready
  unfold nextInstruction
  rw [performed]

theorem Looked.keeps
    {fetched after : Machine} {written : Option (Fin numGPRegs)}
    (looked : machine.Looked fetched) (keeps : fetched.Keeps written after) :
    machine.Keeps written after := by
  refine ⟨fun num notHi notLo notWritten => ?_, keeps.ready⟩
  rw [keeps.others num notHi notLo notWritten, looked.registers]

theorem Sound.write
    (sound : machine.Sound) {fetched : Machine} (looked : machine.Looked fetched)
    {num : Fin numGPRegs} {result : Word}
    (outcome : machine.nextOutcome = .ok (fetched.write num result)) :
    ∃ next, machine.oneInstruction = .ok (next, none) ∧
      (num ≠ r0 → ¬ machine.PendingFor num → next.operand num = result) := by
  obtain ⟨next, performed, finished⟩ := sound.finished outcome
    (looked.keeps (keeps_setGpr looked.ready num result))
  refine ⟨next, performed, fun notZero notPending => ?_⟩
  rw [finished.general num notZero notPending]
  exact set_self ..

theorem Sound.writeHiLo
    (sound : machine.Sound) {fetched : Machine} (looked : machine.Looked fetched)
    {hi lo : Word}
    (outcome : machine.nextOutcome = .ok (fetched.writeHiLo hi lo)) :
    ∃ next, machine.oneInstruction = .ok (next, none) ∧
      next.registers hiReg = hi ∧ next.registers loReg = lo := by
  have keeps : fetched.Keeps none ((fetched.set loReg lo).set hiReg hi) :=
    ((keeps_refl looked.ready).setLo lo).setHi hi
  obtain ⟨next, performed, finished⟩ :=
    sound.finished outcome (looked.keeps keeps)
  refine ⟨next, performed, finished.hi.trans (set_self ..), ?_⟩
  rw [finished.lo, set_of_ne _ (by decide), set_self]

theorem Sound.raise
    (sound : machine.Sound) {fetched : Machine} (looked : machine.Looked fetched)
    {which : ExceptionType} {badVAddr : Word}
    (outcome : machine.nextOutcome = .ok (.raised fetched which badVAddr)) :
    ∃ next, machine.oneInstruction = .ok (next, some which) := by
  obtain ⟨target, pending⟩ := sound.pending
  have samePending : fetched.PendingFor target := by
    unfold PendingFor
    rw [looked.registers]
    exact pending
  rw [oneInstruction_eq, outcome, ok_bind, finish_raised samePending]
  exact ⟨_, rfl⟩

/-! ## Sums that trap -/

def IsInt (number : Int) : Prop :=
  -2 ^ 31 ≤ number ∧ number ≤ 2 ^ 31 - 1

def exactResult (machine : Machine) (value : Word) :
    Option (Int × Fin numGPRegs) :=
  let instr := Instruction.decode value
  let rs := (machine.operand instr.rs).toInt
  let rt := (machine.operand instr.rt).toInt
  match instr.opCode with
  | .add => some (rs + rt, instr.rd)
  | .addi => some (rs + (value.setWidth 16).toInt, instr.rt)
  | .sub => some (rs - rt, instr.rd)
  | _ => none

/-- The next instruction raises an `OverflowException` just if `number` is no
`int`.  Otherwise the destination gets it, unless it is register 0 or gets the
value of a delayed load. -/
def TrapsExactly (machine : Machine) (number : Int)
    (destination : Fin numGPRegs) : Prop :=
  ∃ next exception, machine.oneInstruction = .ok (next, exception) ∧
    (exception = some .overflowException ↔ ¬ IsInt number) ∧
    (IsInt number → exception = none ∧
      (destination ≠ r0 → ¬ machine.PendingFor destination →
        (next.operand destination).toInt = number))

theorem signBit_eq_msb (word : Word) : signBit word = word.msb := by
  unfold signBit
  rw [Bool.eq_iff_iff, bne_iff_ne, MultState.topBit_iff]

theorem addOverflows_eq {left right tested : Word}
    (isTested : tested = left ∨ tested = right) :
    addOverflows left right tested (left + right) =
      left.saddOverflow right := by
  unfold addOverflows
  rw [signBit_eq_msb, signBit_eq_msb, BitVec.saddOverflow_eq, BitVec.msb_xor,
    BitVec.msb_xor]
  rcases isTested with rfl | rfl
  · cases tested.msb <;> cases right.msb <;> simp
  · cases left.msb <;> cases tested.msb <;> simp

theorem subOverflows_eq (left right : Word) :
    (signBit (left ^^^ right) && signBit (left ^^^ (left - right))) =
      left.ssubOverflow right := by
  rw [signBit_eq_msb, signBit_eq_msb, BitVec.ssubOverflow_eq, BitVec.msb_xor,
    BitVec.msb_xor]
  cases left.msb <;> cases right.msb <;> simp

theorem saddOverflow_iff (left right : Word) :
    left.saddOverflow right = true ↔ ¬ IsInt (left.toInt + right.toInt) := by
  unfold BitVec.saddOverflow IsInt
  rw [Bool.or_eq_true, decide_eq_true_eq, decide_eq_true_eq]
  omega

theorem ssubOverflow_iff (left right : Word) :
    left.ssubOverflow right = true ↔ ¬ IsInt (left.toInt - right.toInt) := by
  unfold BitVec.ssubOverflow IsInt
  rw [Bool.or_eq_true, decide_eq_true_eq, decide_eq_true_eq]
  omega

theorem Sound.writeUnless
    (sound : machine.Sound) {fetched : Machine} (looked : machine.Looked fetched)
    {num : Fin numGPRegs} {result : Word} {overflows : Bool} {number : Int}
    (outcome : machine.nextOutcome =
      .ok (fetched.writeUnless overflows num result))
    (overflows_iff : overflows = true ↔ ¬ IsInt number)
    (isExact : ¬ overflows = true → result.toInt = number) :
    machine.TrapsExactly number num := by
  unfold Machine.writeUnless at outcome
  split_ifs at outcome with trap
  · have outOfRange := overflows_iff.mp trap
    obtain ⟨next, performed⟩ := sound.raise looked outcome
    exact ⟨next, _, performed, iff_of_true rfl outOfRange,
      fun inRange => absurd inRange outOfRange⟩
  · obtain ⟨next, performed, written⟩ := sound.write looked outcome
    have inRange : IsInt number := by
      by_contra outOfRange
      exact trap (overflows_iff.mpr outOfRange)
    refine ⟨next, none, performed, ?_, fun _ => ⟨rfl, ?_⟩⟩
    · exact iff_of_false (by decide) (not_not_intro inRange)
    · intro notZero notPending
      rw [written notZero notPending]
      exact isExact trap

/-- `ADD`, `ADDI` and `SUB` trap exactly. -/
theorem trapsExactly
    (sound : machine.Sound) (fetches : machine.Fetches value) {number : Int}
    {destination : Fin numGPRegs}
    (asked : machine.exactResult value = some (number, destination)) :
    machine.TrapsExactly number destination := by
  obtain ⟨fetched, looked, outcome⟩ := fetches.nextOutcome sound.ready
  unfold exactResult at asked
  dsimp only at asked
  split at asked
  · next isAdd =>
      cases asked
      simp only [execute, isAdd, looked.operand, addOverflows_eq (Or.inl rfl)] at outcome
      exact sound.writeUnless looked outcome (saddOverflow_iff _ _)
        BitVec.toInt_add_of_not_saddOverflow
  · next isAddi =>
      cases asked
      have immediate : (Instruction.decode value).extra.toInt =
          (value.setWidth 16).toInt := by
        rw [Instruction.extra_of_addi isAddi]
        exact BitVec.toInt_signExtend_of_le (by decide)
      simp only [execute, isAddi, looked.operand, addOverflows_eq (Or.inr rfl)] at outcome
      rw [← immediate]
      exact sound.writeUnless looked outcome (saddOverflow_iff _ _)
        BitVec.toInt_add_of_not_saddOverflow
  · next isSub =>
      cases asked
      simp only [execute, isSub, looked.operand, subOverflows_eq] at outcome
      exact sound.writeUnless looked outcome (ssubOverflow_iff _ _)
        BitVec.toInt_sub_of_not_ssubOverflow
  · cases asked

def oneWord (value : Word) : Machine :=
  onePage (fun address => (wordBytes value).getD address 0) false

/-- `add $9, $8, $8` of the largest `int`. -/
def addLargest : Machine :=
  (oneWord 0x01084820).set (gpr r8) 0x7fffffff

theorem trapsExactly_largest :
    addLargest.TrapsExactly (2 ^ 32 - 2) ⟨9, by decide⟩ := by
  have sound : addLargest.Sound := ⟨rfl, ⟨r0, rfl⟩, rfl⟩
  have fetches : addLargest.Fetches 0x01084820 := ⟨_, rfl⟩
  exact trapsExactly sound fetches rfl

/-! ## Shifts -/

inductive Shift where
  | left
  | logical
  | arithmetic
  deriving DecidableEq

/-- The result of a shift as the instruction set defines it. -/
def Shift.Gives : Shift → Word → Nat → Word → Prop
  | .left, word, amount, result =>
    result.toNat = word.toNat * 2 ^ amount % 2 ^ 32
  | .logical, word, amount, result => result.toNat = word.toNat / 2 ^ amount
  | .arithmetic, word, amount, result => result.toInt = word.toInt / 2 ^ amount

/-- What `OneInstruction` computes: the right shifts are both shifts of an
`int`. -/
def Shift.compute : Shift → Word → Nat → Word
  | .left, word, amount => word <<< amount
  | .logical, word, amount => word.sshiftRight amount
  | .arithmetic, word, amount => word.sshiftRight amount

def shiftOf (machine : Machine) (value : Word) : Option (Shift × Nat) :=
  let instr := Instruction.decode value
  let shamt := value.toNat / 64 % 32
  let low := (machine.operand instr.rs).toNat % 32
  match instr.opCode with
  | .sll => some (.left, shamt)
  | .sllv => some (.left, low)
  | .srl => some (.logical, shamt)
  | .srlv => some (.logical, low)
  | .sra => some (.arithmetic, shamt)
  | .srav => some (.arithmetic, low)
  | _ => none

theorem execute_shift
    {fetched : Machine} (looked : machine.Looked fetched)
    {shift : Shift} {amount : Nat}
    (asked : machine.shiftOf value = some (shift, amount)) :
    fetched.execute (Instruction.decode value) =
      .ok (fetched.write (Instruction.decode value).rd
        (shift.compute (machine.operand (Instruction.decode value).rt)
          amount)) := by
  have shamt := @Instruction.extra_of_shift value
  unfold shiftOf at asked
  dsimp only at asked
  split at asked <;> cases asked
  · next isSll =>
      simp only [execute, isSll, looked.operand, shamt (by rw [isSll]; decide),
        Shift.compute]
  · next isSllv =>
      simp only [execute, isSllv, looked.operand, toNat_and_31, Shift.compute]
  · next isSrl =>
      simp only [execute, isSrl, looked.operand, shamt (by rw [isSrl]; decide),
        Shift.compute]
  · next isSrlv =>
      simp only [execute, isSrlv, looked.operand, toNat_and_31, Shift.compute]
  · next isSra =>
      simp only [execute, isSra, looked.operand, shamt (by rw [isSra]; decide),
        Shift.compute]
  · next isSrav =>
      simp only [execute, isSrav, looked.operand, toNat_and_31, Shift.compute]

/-- The shifts are right, except `srl` of a word with its top bit set. -/
theorem gives_compute_iff (shift : Shift) (word : Word) (amount : Nat) :
    shift.Gives word amount (shift.compute word amount) ↔
      ¬ (shift = .logical ∧ amount ≠ 0 ∧ word.msb = true) := by
  cases shift with
  | left =>
    refine iff_of_true ?_ (fun impossible => by cases impossible.1)
    simp only [Shift.Gives, Shift.compute, BitVec.toNat_shiftLeft,
      Nat.shiftLeft_eq]
  | arithmetic =>
    refine iff_of_true ?_ (fun impossible => by cases impossible.1)
    simp only [Shift.Gives, Shift.compute, BitVec.toInt_sshiftRight,
      Int.shiftRight_eq_div_pow]
    norm_cast
  | logical =>
    simp only [Shift.Gives, Shift.compute, true_and]
    cases sign : word.msb with
    | false =>
      rw [BitVec.sshiftRight_eq_of_msb_false sign, BitVec.toNat_ushiftRight,
        Nat.shiftRight_eq_div_pow]
      exact iff_of_true rfl (fun impossible => by cases impossible.2)
    | true =>
      rcases Nat.eq_zero_or_pos amount with rfl | positive
      · exact iff_of_true (by simp) (fun impossible => impossible.1 rfl)
      · refine iff_of_false (fun same => ?_) (fun allowed => ?_)
        · have signKept : (word.sshiftRight amount).msb = true :=
            BitVec.msb_sshiftRight.trans sign
          have large := BitVec.le_toNat_of_msb_true signKept
          have halved : word.toNat / 2 ^ amount ≤ word.toNat / 2 ^ 1 :=
            Nat.div_le_div_left
              (Nat.pow_le_pow_right (by decide) positive) (by decide)
          omega
        · exact allowed ⟨positive.ne', rfl⟩

/-- A shift gives what it should, unless it is a logical one, of a number with
its top bit set. -/
theorem shift_gives_iff
    (sound : machine.Sound) (fetches : machine.Fetches value)
    {shift : Shift} {amount : Nat}
    (asked : machine.shiftOf value = some (shift, amount))
    (notZero : (Instruction.decode value).rd ≠ r0)
    (notPending : ¬ machine.PendingFor (Instruction.decode value).rd) :
    ∃ next, machine.oneInstruction = .ok (next, none) ∧
      (shift.Gives (machine.operand (Instruction.decode value).rt) amount
          (next.operand (Instruction.decode value).rd) ↔
        ¬ (shift = .logical ∧ amount ≠ 0 ∧
          (machine.operand (Instruction.decode value).rt).msb = true)) := by
  obtain ⟨fetched, looked, outcome⟩ := fetches.nextOutcome sound.ready
  rw [execute_shift looked asked] at outcome
  obtain ⟨next, performed, written⟩ := sound.write looked outcome
  refine ⟨next, performed, ?_⟩
  rw [written notZero notPending]
  exact gives_compute_iff shift _ amount

def shifting (word operand : Word) : Machine :=
  (oneWord word).set (gpr r8) operand

/-- `sll` and `sra` by 4 of a negative number, and `srl` of a positive one. -/
theorem shift_gives_by_four :
    (∃ next, (shifting 0x00084900 0xffffffff).oneInstruction =
        .ok (next, none) ∧
      Shift.left.Gives 0xffffffff 4 (next.operand ⟨9, by decide⟩)) ∧
    (∃ next, (shifting 0x00084902 0x7fffffff).oneInstruction =
        .ok (next, none) ∧
      Shift.logical.Gives 0x7fffffff 4 (next.operand ⟨9, by decide⟩)) ∧
    ∃ next, (shifting 0x00084903 0x80000000).oneInstruction =
        .ok (next, none) ∧
      Shift.arithmetic.Gives 0x80000000 4 (next.operand ⟨9, by decide⟩) := by
  have sound : ∀ word operand, (shifting word operand).Sound :=
    fun _ _ => ⟨rfl, ⟨r0, rfl⟩, rfl⟩
  have spared : ∀ word operand,
      ¬ (shifting word operand).PendingFor ⟨9, by decide⟩ :=
    fun _ _ => show ¬ (0 : Word) = 9 by decide
  refine ⟨?_, ?_, ?_⟩
  · obtain ⟨next, performed, gives⟩ :=
      @shift_gives_iff _ _ (sound 0x00084900 0xffffffff) ⟨_, rfl⟩ .left 4
        rfl (by decide) (spared _ _)
    exact ⟨next, performed, gives.mpr fun impossible => by cases impossible.1⟩
  · obtain ⟨next, performed, gives⟩ :=
      @shift_gives_iff _ _ (sound 0x00084902 0x7fffffff) ⟨_, rfl⟩ .logical 4
        rfl (by decide) (spared _ _)
    exact ⟨next, performed, gives.mpr fun negative =>
      absurd negative.2.2 (by decide)⟩
  · obtain ⟨next, performed, gives⟩ :=
      @shift_gives_iff _ _ (sound 0x00084903 0x80000000) ⟨_, rfl⟩ .arithmetic 4
        rfl (by decide) (spared _ _)
    exact ⟨next, performed, gives.mpr fun impossible => by cases impossible.1⟩

/-- `srl $9, $8, 1` of the least `int`. -/
def srlLeast : Machine :=
  shifting 0x00084842 0x80000000

/-- It leaves the top bit set. -/
theorem srl_least :
    ∃ next, srlLeast.oneInstruction = .ok (next, none) ∧
      next.operand ⟨9, by decide⟩ = 0xc0000000 ∧
      ¬ Shift.logical.Gives 0x80000000 1 (next.operand ⟨9, by decide⟩) := by
  refine ⟨_, rfl, rfl, ?_⟩
  unfold Shift.Gives
  decide

/-! ## Quotients -/

def Divides : Bool → Word → Word → Word → Word → Prop
  | true, dividend, divisor, hi, lo =>
    lo * divisor + hi = dividend ∧ |hi.toInt| < |divisor.toInt| ∧
      (hi = 0 ∨ hi.toInt.sign = dividend.toInt.sign)
  | false, dividend, divisor, hi, lo =>
    lo * divisor + hi = dividend ∧ hi.toNat < divisor.toNat

def divisionOf (value : Word) : Option Bool :=
  match (Instruction.decode value).opCode with
  | .div => some true
  | .divu => some false
  | _ => none

theorem sdiv_mul_add_srem (dividend divisor : Word) :
    dividend.sdiv divisor * divisor + dividend.srem divisor = dividend := by
  have quotient : dividend.sdiv divisor =
      BitVec.ofInt 32 (dividend.toInt.tdiv divisor.toInt) := by
    apply BitVec.eq_of_toInt_eq
    rw [BitVec.toInt_sdiv, BitVec.toInt_ofInt]
  have remainder : dividend.srem divisor =
      BitVec.ofInt 32 (dividend.toInt.tmod divisor.toInt) := by
    rw [← BitVec.toInt_srem, BitVec.ofInt_toInt]
  calc dividend.sdiv divisor * divisor + dividend.srem divisor
      = BitVec.ofInt 32 (dividend.toInt.tdiv divisor.toInt * divisor.toInt +
          dividend.toInt.tmod divisor.toInt) := by
        rw [BitVec.ofInt_add, BitVec.ofInt_mul, BitVec.ofInt_toInt, quotient,
          remainder]
    _ = dividend := by
        rw [Int.tdiv_mul_add_tmod, BitVec.ofInt_toInt]

theorem sign_tmod {dividend divisor : Int}
    (notZero : dividend.tmod divisor ≠ 0) :
    (dividend.tmod divisor).sign = dividend.sign := by
  rcases lt_trichotomy dividend 0 with negative | rfl | positive
  · have opposite := Int.tmod_nonneg divisor (Int.neg_nonneg_of_nonpos negative.le)
    rw [Int.neg_tmod] at opposite
    rw [Int.sign_eq_neg_one_of_neg negative,
      Int.sign_eq_neg_one_of_neg (by omega)]
  · exact absurd (Int.zero_tmod divisor) notZero
  · have nonnegative := Int.tmod_nonneg divisor positive.le
    rw [Int.sign_eq_one_of_pos positive, Int.sign_eq_one_of_pos (by omega)]

theorem divides_signed (dividend : Word) {divisor : Word} (notZero : divisor ≠ 0) :
    Divides true dividend divisor (dividend.srem divisor)
      (dividend.sdiv divisor) := by
  have divisorNotZero : divisor.toInt ≠ 0 := fun zero =>
    notZero (BitVec.eq_of_toInt_eq zero)
  refine ⟨sdiv_mul_add_srem dividend divisor, ?_, ?_⟩
  · rw [BitVec.toInt_srem, Int.abs_eq_natAbs, Int.abs_eq_natAbs, Int.natAbs_tmod]
    exact_mod_cast Nat.mod_lt _ (Int.natAbs_pos.mpr divisorNotZero)
  · by_cases zero : dividend.srem divisor = 0
    · exact Or.inl zero
    · right
      have remainderNotZero : (dividend.srem divisor).toInt ≠ 0 := fun isZero =>
        zero (BitVec.eq_of_toInt_eq isZero)
      rw [BitVec.toInt_srem] at remainderNotZero ⊢
      exact sign_tmod remainderNotZero

theorem divides_unsigned (dividend : Word) {divisor : Word}
    (notZero : divisor ≠ 0) :
    Divides false dividend divisor (dividend % divisor)
      (dividend / divisor) := by
  have positive : 0 < divisor.toNat := by
    rw [Nat.pos_iff_ne_zero]
    exact fun zero => notZero (BitVec.eq_of_toNat_eq zero)
  refine ⟨?_, ?_⟩
  · apply BitVec.eq_of_toNat_eq
    rw [BitVec.toNat_add, BitVec.toNat_mul, BitVec.toNat_udiv, BitVec.toNat_umod,
      Nat.mod_add_mod, Nat.div_add_mod', Nat.mod_eq_of_lt dividend.isLt]
  · rw [BitVec.toNat_umod]
    exact Nat.mod_lt _ positive

/-- A division is done, and gives what it should, unless it is that of the least
`int` by -1. -/
theorem divides_iff
    (sound : machine.Sound) (fetches : machine.Fetches value)
    {isSigned : Bool} (asked : divisionOf value = some isSigned) :
    (∃ next, machine.oneInstruction = .ok (next, none) ∧
      (machine.operand (Instruction.decode value).rt ≠ 0 →
        Divides isSigned (machine.operand (Instruction.decode value).rs)
          (machine.operand (Instruction.decode value).rt)
          (next.registers hiReg) (next.registers loReg))) ↔
      ¬ (isSigned = true ∧
        machine.operand (Instruction.decode value).rs = 0x80000000 ∧
        machine.operand (Instruction.decode value).rt = 0xffffffff) := by
  obtain ⟨fetched, looked, outcome⟩ := fetches.nextOutcome sound.ready
  unfold divisionOf at asked
  split at asked <;> cases asked
  · next isDiv =>
      simp only [execute, isDiv, looked.operand, divide] at outcome
      split_ifs at outcome with zero trap
      · obtain ⟨next, performed, -⟩ := sound.writeHiLo looked outcome
        refine iff_of_true ⟨next, performed, fun notZero => absurd zero notZero⟩ ?_
        rintro ⟨-, -, minusOne⟩
        rw [zero] at minusOne
        exact absurd minusOne (by decide)
      · refine iff_of_false ?_ (not_not_intro ⟨rfl, trap⟩)
        rintro ⟨next, performed, -⟩
        rw [oneInstruction_eq, outcome] at performed
        cases performed
      · obtain ⟨next, performed, hi, lo⟩ := sound.writeHiLo looked outcome
        refine iff_of_true ⟨next, performed, fun notZero => ?_⟩
          (fun impossible => trap impossible.2)
        rw [hi, lo]
        exact divides_signed _ notZero
  · next isDivu =>
      simp only [execute, isDivu, looked.operand, divideUnsigned] at outcome
      refine iff_of_true ?_ (fun impossible => by cases impossible.1)
      split_ifs at outcome with zero
      · obtain ⟨next, performed, -⟩ := sound.writeHiLo looked outcome
        exact ⟨next, performed, fun notZero => absurd zero notZero⟩
      · obtain ⟨next, performed, hi, lo⟩ := sound.writeHiLo looked outcome
        refine ⟨next, performed, fun notZero => ?_⟩
        rw [hi, lo]
        exact divides_unsigned _ notZero

/-- `div $8, $9` of -7 by 2. -/
def divMinusSeven : Machine :=
  ((oneWord 0x0109001a).set (gpr r8) 0xfffffff9).set
    (gpr ⟨9, by decide⟩) 2

theorem divides_minus_seven :
    ∃ next, divMinusSeven.oneInstruction = .ok (next, none) ∧
      Divides true 0xfffffff9 2 (next.registers hiReg)
        (next.registers loReg) := by
  have sound : divMinusSeven.Sound := ⟨rfl, ⟨r0, rfl⟩, rfl⟩
  have fetches : divMinusSeven.Fetches 0x0109001a := ⟨_, rfl⟩
  have asked : divisionOf 0x0109001a = some true := rfl
  obtain ⟨next, performed, divides⟩ :=
    (divides_iff sound fetches asked).mpr (by decide)
  exact ⟨next, performed, divides (by decide)⟩

/-- `div $8, $9` of the least `int` by -1. -/
def divLeast : Machine :=
  ((oneWord 0x0109001a).set (gpr r8) 0x80000000).set
    (gpr ⟨9, by decide⟩) 0xffffffff

/-- The host traps. -/
theorem div_least : divLeast.oneInstruction = .error .divisionOverflow :=
  rfl

end Machine

end Nachos
