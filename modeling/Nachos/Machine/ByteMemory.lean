import Nachos.Machine.Unaligned

/-!
# User memory as bytes
-/

namespace Nachos

open Foundation

namespace Machine

variable {machine next : Machine} {addr : Word} {size : Nat}

/-! ## Reads and writes -/

structure Quiet (machine next : Machine) : Prop where
  memory : next.mainMemory = machine.mainMemory
  settings : next.translation.settings = machine.translation.settings
  ready : next.translation.Ready

theorem Looked.quiet (looked : machine.Looked next) : machine.Quiet next :=
  ⟨looked.memory, looked.settings, looked.ready⟩

theorem Quiet.edits (quiet : machine.Quiet next) :
    machine.Edits (fun _ => none) next where
  bytes := by
    intro addr
    unfold byteAt
    rw [Translation.physical_congr quiet.settings, quiet.memory, Option.map_map]
    rfl
  mapped address changed := absurd (congrFun quiet.memory address) changed
  settings := quiet.settings
  ready := quiet.ready

theorem writeMem_edits
    (ready : machine.translation.Ready)
    (separate : machine.translation.Separate)
    (isSize : size = 1 ∨ size = 2 ∨ size = 4) {value : Word}
    (performed : machine.writeMem addr size value = .ok (.ok (), next)) :
    next.registers = machine.registers ∧
      (machine.translation.physical addr true).isSome ∧
      machine.Edits (bytesFrom addr size value) next := by
  obtain ⟨⟨result, touched⟩, translated, rest⟩ := exists_of_bind_eq_ok performed
  obtain ⟨settings, touchedReady⟩ :=
    Translation.translate_settings ready isSize translated
  cases result with
  | error exception => cases rest
  | ok place =>
    obtain ⟨aligned, writable⟩ :=
      Translation.physical_of_translate ready isSize translated
    have edits := edits_storeAt separate isSize aligned writable value settings
      touchedReady
    have mapped := Option.isSome_of_eq_some writable
    rcases isSize with rfl | rfl | rfl
    all_goals
      cases rest
      exact ⟨rfl, mapped, edits⟩

theorem writeMem_refused
    (ready : machine.translation.Ready)
    (isSize : size = 1 ∨ size = 2 ∨ size = 4) {value : Word}
    {exception : ExceptionType}
    (performed : machine.writeMem addr size value =
      .ok (.error exception, next)) :
    machine.Looked next := by
  obtain ⟨⟨result, touched⟩, translated, rest⟩ := exists_of_bind_eq_ok performed
  obtain ⟨settings, touchedReady⟩ :=
    Translation.translate_settings ready isSize translated
  cases result with
  | error exception =>
    cases rest
    exact ⟨rfl, rfl, settings, touchedReady⟩
  | ok place =>
    obtain ⟨bytes, -, impossible⟩ := exists_of_bind_eq_ok rest
    cases impossible

theorem readMem_bytes
    (ready : machine.translation.Ready)
    (isSize : size = 1 ∨ size = 2 ∨ size = 4) {value : Word}
    (performed : machine.readMem addr size = .ok (.ok value, next)) :
    ∃ place, valueAt machine.mainMemory place size = .ok value ∧
      ∀ index < size, machine.byteAt (addr + BitVec.ofNat 32 index) =
        some (machine.mainMemory (place + index)) := by
  obtain ⟨⟨result, touched⟩, translated, rest⟩ := exists_of_bind_eq_ok performed
  cases result with
  | error exception => cases rest
  | ok place =>
    obtain ⟨aligned, mapped⟩ :=
      Translation.physical_of_translate ready isSize translated
    obtain ⟨read, isValue, rest⟩ := exists_of_bind_eq_ok rest
    cases rest
    refine ⟨place, isValue, fun index inside => ?_⟩
    have distance : (addr + BitVec.ofNat 32 index - addr).toNat = index :=
      toNat_add_sub addr (by omega)
    have there := @Translation.physical_near _ _ _ _ isSize aligned _ mapped
      (addr + BitVec.ofNat 32 index) (by omega)
    unfold byteAt
    rw [there, distance]
    rfl

end Machine

/-! ## What an instruction stores -/

namespace Outcome

def after : Outcome → Machine
  | .completed machine _ _ _ => machine
  | .raised machine _ _ => machine

def exception : Outcome → Option ExceptionType
  | .completed _ _ _ _ => none
  | .raised _ which _ => some which

end Outcome

namespace Machine

variable {machine next : Machine} {addr : Word} {size : Nat} {outcome : Outcome}

theorem delayedLoad_leaves
    {nextReg : Fin numGPRegs} {nextValue : Word}
    (loaded : machine.delayedLoad nextReg nextValue = .ok next) :
    next.mainMemory = machine.mainMemory ∧
      next.translation = machine.translation := by
  obtain ⟨middle, indexed, loaded⟩ := exists_of_bind_eq_ok loaded
  cases loaded
  unfold setIndexed at indexed
  split_ifs at indexed
  cases indexed
  exact ⟨rfl, rfl⟩

theorem finish_leaves
    {exception : Option ExceptionType}
    (finished : finish outcome = .ok (next, exception)) :
    next.mainMemory = outcome.after.mainMemory ∧
      next.translation = outcome.after.translation ∧
      exception = outcome.exception := by
  cases outcome with
  | completed after nextReg nextValue pcAfter =>
    obtain ⟨middle, loaded, finished⟩ := exists_of_bind_eq_ok finished
    cases finished
    obtain ⟨memory, translation⟩ := delayedLoad_leaves loaded
    exact ⟨memory, translation, rfl⟩
  | raised after which badVAddr =>
    obtain ⟨middle, loaded, finished⟩ := exists_of_bind_eq_ok finished
    cases finished
    obtain ⟨memory, translation⟩ := delayedLoad_leaves loaded
    exact ⟨memory, translation, rfl⟩

theorem quiet_load
    (ready : machine.translation.Ready)
    (isSize : size = 1 ∨ size = 2 ∨ size = 4) {rt : Fin numGPRegs}
    {extend : Word → Word}
    (executed : machine.load rt addr size extend = .ok outcome) :
    machine.Quiet outcome.after := by
  obtain ⟨⟨result, after⟩, performed, rest⟩ := exists_of_bind_eq_ok executed
  have looked := readMem_looked ready isSize performed
  cases result with
  | error exception =>
    cases rest
    exact looked.quiet
  | ok value =>
    cases rest
    exact looked.quiet

theorem quiet_loadPart
    (ready : machine.translation.Ready) {rt : Fin numGPRegs}
    {merge : Word → Word → Word → Word}
    (executed : machine.loadPart rt addr merge = .ok outcome) :
    machine.Quiet outcome.after := by
  obtain ⟨⟨result, after⟩, performed, rest⟩ := exists_of_bind_eq_ok executed
  have looked := readMem_looked ready (Or.inr (Or.inr rfl)) performed
  cases result with
  | error exception =>
    cases rest
    exact looked.quiet
  | ok value =>
    cases rest
    exact looked.quiet

theorem edits_store
    (ready : machine.translation.Ready)
    (separate : machine.translation.Separate)
    (isSize : size = 1 ∨ size = 2 ∨ size = 4) {value : Word}
    (executed : machine.store addr size value = .ok outcome) :
    machine.Edits
      (match outcome.exception with
        | none => bytesFrom addr size value
        | some _ => fun _ => none) outcome.after := by
  obtain ⟨⟨result, after⟩, performed, rest⟩ := exists_of_bind_eq_ok executed
  cases result with
  | error exception =>
    cases rest
    exact (writeMem_refused ready isSize performed).quiet.edits
  | ok done =>
    cases rest
    exact (writeMem_edits ready separate isSize performed).2.2

theorem writable_of_alignedBase
    {translation : Translation}
    (writable : (translation.physical (alignedBase addr) true).isSome) :
    (translation.physical addr true).isSome := by
  obtain ⟨place, isPlace⟩ := Option.isSome_iff_exists.mp writable
  have near : (addr - alignedBase addr).toNat < 4 := by
    have bound := addr.isLt
    rw [BitVec.toNat_sub, toNat_alignedBase]
    omega
  rw [Translation.physical_near (Or.inr (Or.inr rfl)) (aligned_alignedBase addr)
    isPlace near]
  rfl

theorem storePart_cases
    (ready : machine.translation.Ready)
    (separate : machine.translation.Separate) {rt : Fin numGPRegs}
    {merge : Word → Word → Word → Word}
    (executed : machine.storePart rt addr merge = .ok outcome) :
    (outcome.exception ≠ none ∧ machine.Quiet outcome.after) ∨
      (outcome.exception = none ∧
        (machine.translation.physical addr true).isSome) := by
  have isSize : 4 = 1 ∨ 4 = 2 ∨ 4 = 4 := Or.inr (Or.inr rfl)
  obtain ⟨⟨result, middle⟩, performed, rest⟩ := exists_of_bind_eq_ok executed
  have looked := readMem_looked ready isSize performed
  cases result with
  | error exception =>
    cases rest
    exact Or.inl ⟨Option.some_ne_none _, looked.quiet⟩
  | ok value =>
    obtain ⟨⟨result, after⟩, written, rest⟩ := exists_of_bind_eq_ok rest
    cases result with
    | error exception =>
      cases rest
      exact Or.inl ⟨Option.some_ne_none _,
        (looked.trans (writeMem_refused looked.ready isSize written)).quiet⟩
    | ok done =>
      cases rest
      refine Or.inr ⟨rfl, ?_⟩
      obtain ⟨-, writable, -⟩ := writeMem_edits looked.ready
        (looked.separate separate) isSize written
      rw [Translation.physical_congr looked.settings] at writable
      exact writable_of_alignedBase writable

end Machine

def OpCode.isStore : OpCode → Bool
  | .sb | .sh | .sw | .swl | .swr => true
  | _ => false

def Instruction.stored (instr : Instruction) (machine : Machine) :
    Word → Option Byte :=
  let addr := machine.operand instr.rs + instr.extra
  let value := machine.operand instr.rt
  match instr.opCode with
  | .sb => Machine.bytesFrom addr 1 value
  | .sh => Machine.bytesFrom addr 2 value
  | .sw => Machine.bytesFrom addr 4 value
  | .swl =>
    Machine.partFrom (addr - 3) value (Machine.LeftCovers (addr - 3))
  | .swr => Machine.partFrom addr value (Machine.RightCovers addr)
  | _ => fun _ => none

namespace Machine

variable {machine next : Machine} {addr : Word} {size : Nat} {outcome : Outcome}

theorem quiet_execute
    (ready : machine.translation.Ready) {instr : Instruction}
    (noStore : instr.opCode.isStore = false)
    (executed : machine.execute instr = .ok outcome) :
    machine.Quiet outcome.after := by
  obtain ⟨opCode, rs, rt, rd, extra⟩ := instr
  cases opCode with
  | addiu | addu | and | andi | lui | mfhi | mflo | nor | or | ori | sll | sllv
  | slt | slti | sltiu | sltu | sra | srav | srl | srlv | subu | xor | xori
  | j | jr | jal | jalr | mthi | mtlo | mult | multu | syscall | res | unimp =>
    cases executed
    exact ⟨rfl, rfl, ready⟩
  | add | addi | sub =>
    cases executed
    unfold writeUnless
    split_ifs <;> exact ⟨rfl, rfl, ready⟩
  | beq | bgez | bgtz | blez | bltz | bne | bgezal | bltzal =>
    cases executed
    unfold branch
    split_ifs <;> exact ⟨rfl, rfl, ready⟩
  | divu =>
    cases executed
    unfold divideUnsigned
    split_ifs <;> exact ⟨rfl, rfl, ready⟩
  | div =>
    change machine.divide _ _ = _ at executed
    unfold divide at executed
    split_ifs at executed <;> cases executed <;> exact ⟨rfl, rfl, ready⟩
  | lb | lbu => exact quiet_load ready (Or.inl rfl) executed
  | lh | lhu =>
    simp only [execute, loadHalf] at executed
    split at executed
    · cases executed
      exact ⟨rfl, rfl, ready⟩
    · exact quiet_load ready (Or.inr (Or.inl rfl)) executed
  | lw =>
    simp only [execute, loadWord] at executed
    split at executed
    · cases executed
      exact ⟨rfl, rfl, ready⟩
    · exact quiet_load ready (Or.inr (Or.inr rfl)) executed
  | lwl | lwr => exact quiet_loadPart ready executed
  | sb | sh | sw | swl | swr => cases noStore
  | rfe | special | bcond => cases executed

/-- The bytes that the next instruction stores, if it raises no exception. -/
def storedBy (machine : Machine) (exception : Option ExceptionType) :
    Word → Option Byte :=
  match exception, machine.nextInstruction with
  | none, some instr => instr.stored machine
  | _, _ => fun _ => none

theorem edits_execute
    (ready : machine.translation.Ready)
    (separate : machine.translation.Separate) {instr : Instruction}
    (notPart : instr.opCode ≠ .swl ∧ instr.opCode ≠ .swr)
    (executed : machine.execute instr = .ok outcome) :
    machine.Edits
      (match outcome.exception with
        | none => instr.stored machine
        | some _ => fun _ => none) outcome.after := by
  cases isStore : instr.opCode.isStore with
  | true =>
    obtain ⟨opCode, rs, rt, rd, extra⟩ := instr
    cases opCode with
    | sb => exact edits_store ready separate (Or.inl rfl) executed
    | sh => exact edits_store ready separate (Or.inr (Or.inl rfl)) executed
    | sw => exact edits_store ready separate (Or.inr (Or.inr rfl)) executed
    | swl => exact absurd rfl notPart.1
    | swr => exact absurd rfl notPart.2
    | _ => cases isStore
  | false =>
    have nothing : instr.stored machine = fun _ => none := by
      obtain ⟨opCode, rs, rt, rd, extra⟩ := instr
      cases opCode <;> first | rfl | cases isStore
    rw [nothing]
    have edits := (quiet_execute ready isStore executed).edits
    cases outcome.exception <;> exact edits

theorem edits_part
    {fetched : Machine} (looked : machine.Looked fetched)
    (separate : machine.translation.Separate) {rt : Fin numGPRegs}
    {merge : Word → Word → Word → Word}
    (executed : fetched.storePart rt addr merge = .ok outcome)
    (performed : machine.oneInstruction = .ok (next, outcome.exception))
    (memory : next.mainMemory = outcome.after.mainMemory)
    (translation : next.translation = outcome.after.translation)
    {change : Word → Option Byte}
    (stores : (machine.translation.physical addr true).isSome →
      ∃ after last, machine.oneInstruction = .ok (last, none) ∧
        machine.Completed after r0 0 last ∧ machine.Edits change last) :
    machine.Edits
      (match outcome.exception with
        | none => change
        | some _ => fun _ => none) next := by
  rcases storePart_cases looked.ready (looked.separate separate) executed with
    ⟨raised, quiet⟩ | ⟨completes, writable⟩
  · have edits := (looked.edits quiet.edits).leave memory translation
    cases isException : outcome.exception with
    | none => exact absurd isException raised
    | some which => exact edits
  · rw [Translation.physical_congr looked.settings] at writable
    rw [completes] at performed ⊢
    obtain ⟨after, last, same, -, edits⟩ := stores writable
    cases same.symm.trans performed
    exact edits

theorem oneInstruction_leaves
    {exception : Option ExceptionType}
    (performed : machine.oneInstruction = .ok (next, exception)) :
    ∃ outcome, machine.nextOutcome = .ok outcome ∧
      next.mainMemory = outcome.after.mainMemory ∧
      next.translation = outcome.after.translation ∧
      exception = outcome.exception := by
  rw [oneInstruction_eq] at performed
  obtain ⟨outcome, executed, finished⟩ := exists_of_bind_eq_ok performed
  exact ⟨outcome, executed, finish_leaves finished⟩

theorem nextOutcome_cases
    (ready : machine.translation.Ready)
    (executed : machine.nextOutcome = .ok outcome) :
    (machine.nextInstruction = none ∧ machine.Quiet outcome.after) ∨
      ∃ instr fetched, machine.nextInstruction = some instr ∧
        machine.Looked fetched ∧ fetched.execute instr = .ok outcome := by
  obtain ⟨⟨raw, fetched⟩, fetches, executed⟩ := exists_of_bind_eq_ok executed
  have looked := readMem_looked ready (Or.inr (Or.inr rfl)) fetches
  unfold nextInstruction
  rw [fetches]
  cases raw with
  | error exception =>
    cases executed
    exact Or.inl ⟨rfl, looked.quiet⟩
  | ok value => exact Or.inr ⟨_, fetched, rfl, looked, executed⟩

/-- One instruction changes the bytes that it stores, and no others. -/
theorem Sound.edits
    (sound : machine.Sound) (separate : machine.translation.Separate)
    {exception : Option ExceptionType}
    (performed : machine.oneInstruction = .ok (next, exception)) :
    machine.Edits (machine.storedBy exception) next := by
  obtain ⟨outcome, executed, memory, translation, rfl⟩ :=
    oneInstruction_leaves performed
  unfold storedBy
  rcases nextOutcome_cases sound.ready executed with
    ⟨noInstr, quiet⟩ | ⟨instr, fetched, isInstr, looked, executed⟩
  · have edits := quiet.edits.leave memory translation
    rw [noInstr]
    cases outcome.exception <;> exact edits
  · have change :
        (match outcome.exception, machine.nextInstruction with
          | none, some instr => instr.stored machine
          | _, _ => fun _ => none) =
        match outcome.exception with
          | none => instr.stored machine
          | some _ => fun _ => none := by
      rw [isInstr]
      cases outcome.exception <;> rfl
    rw [change]
    by_cases notPart : instr.opCode ≠ .swl ∧ instr.opCode ≠ .swr
    · have same : instr.stored fetched = instr.stored machine := by
        unfold Instruction.stored
        rw [looked.operand, looked.operand]
      have edits := edits_execute looked.ready (looked.separate separate)
        notPart executed
      rw [same] at edits
      exact (looked.edits edits).leave memory translation
    · obtain ⟨opCode, rs, rt, rd, extra⟩ := instr
      rw [not_and_or, not_not, not_not] at notPart
      rcases notPart with rfl | rfl
      · have address : machine.operand rs + extra - 3 + 3 =
            machine.operand rs + extra := BitVec.sub_add_cancel _ _
        refine edits_part looked separate executed performed memory translation
          fun writable => ?_
        rw [looked.operand, ← address] at writable
        exact sound.swl separate ⟨_, isInstr, rfl, rfl, address.symm⟩ writable
      · refine edits_part looked separate executed performed memory translation
          fun writable => ?_
        rw [looked.operand] at writable
        exact sound.swr separate ⟨_, isInstr, rfl, rfl, rfl⟩ writable

/-! ## Runs -/

inductive MemoryRun (machine : Machine) : (Word → Option Byte) → Machine → Prop
  | start : MemoryRun machine (fun _ => none) machine
  | instruction {stored : Word → Option Byte} {middle next : Machine}
      {exception : Option ExceptionType} (run : MemoryRun machine stored middle)
      (performed : middle.oneInstruction = .ok (next, exception)) :
      MemoryRun machine
        (fun addr => (middle.storedBy exception addr).or (stored addr)) next
  /-- A system call handler calls `WriteMem`. -/
  | kernelWrite {stored : Word → Option Byte} {middle next : Machine}
      {addr : Word} {size : Nat} {value : Word}
      (run : MemoryRun machine stored middle)
      (isSize : size = 1 ∨ size = 2 ∨ size = 4)
      (performed : middle.writeMem addr size value = .ok (.ok (), next)) :
      MemoryRun machine
        (fun other => (bytesFrom addr size value other).or (stored other)) next
  /-- Anything else, other processes included, that leaves the memory of the
  process alone. -/
  | event {stored : Word → Option Byte} {middle next : Machine}
      {event : ProcessorEvent} (run : MemoryRun machine stored middle)
      (taken : processor.step middle event next)
      (settings : next.translation.settings = middle.translation.settings)
      (bytes : next.byteAt = middle.byteAt) : MemoryRun machine stored next

/-- User code sees the bytes that were stored last. -/
structure Remembers (machine : Machine) (stored : Word → Option Byte)
    (next : Machine) : Prop where
  sound : next.Sound
  separate : next.translation.Separate
  bytes : ∀ addr, next.byteAt addr =
    (machine.byteAt addr).map fun old => (stored addr).getD old

variable {stored : Word → Option Byte} {middle : Machine}

theorem Remembers.edits
    (remembers : machine.Remembers stored middle) {change : Word → Option Byte}
    (edits : middle.Edits change next) (sound : next.Sound) :
    machine.Remembers (fun addr => (change addr).or (stored addr)) next where
  sound := sound
  separate := remembers.separate.congr edits.settings
  bytes := by
    intro addr
    rw [edits.bytes, remembers.bytes, Option.map_map]
    congr 1
    funext old
    cases change addr <;> rfl

/-- After any run user code sees the bytes that were stored last. -/
theorem MemoryRun.remembers
    (run : machine.MemoryRun stored next) (sound : machine.Sound)
    (separate : machine.translation.Separate) : machine.Remembers stored next := by
  induction run with
  | start =>
    refine ⟨sound, separate, fun addr => ?_⟩
    cases machine.byteAt addr <;> rfl
  | instruction run performed ih =>
    exact ih.edits (ih.sound.edits ih.separate performed)
      (ih.sound.of_oneInstruction performed)
  | kernelWrite run isSize performed ih =>
    obtain ⟨registers, -, edits⟩ :=
      writeMem_edits ih.sound.ready ih.separate isSize performed
    refine ih.edits edits ⟨?_, ?_, edits.ready⟩
    · rw [registers]
      exact ih.sound.zero
    · unfold PendingFor
      rw [registers]
      exact ih.sound.pending
  | event run taken settings bytes ih =>
    refine ⟨ih.sound.of_step taken, ih.separate.congr settings, ?_⟩
    rw [bytes]
    exact ih.bytes

end Machine

/-! ## Loads -/

/-- How many bytes `LB` to `LW` load, and whether they are signed. -/
def OpCode.loads : OpCode → Option (Nat × Bool)
  | .lb => some (1, true)
  | .lbu => some (1, false)
  | .lh => some (2, true)
  | .lhu => some (2, false)
  | .lw => some (4, false)
  | _ => none

namespace Machine

variable {machine next middle : Machine} {addr : Word} {size : Nat}
  {outcome : Outcome} {rt : Fin numGPRegs} {stored : Word → Option Byte}

theorem setWidth_valueAt
    (isSize : size = 1 ∨ size = 2 ∨ size = 4) {memory : Nat → Byte}
    {place : Nat} {value : Word}
    (isValue : valueAt memory place size = .ok value) :
    value.setWidth (8 * size) =
      BitVec.ofNat (8 * size)
        (littleEndian size fun index => memory (place + index)) := by
  rcases isSize with rfl | rfl | rfl
  · cases isValue
    have whole : BitVec.ofNat 8
        (littleEndian 1 fun index => memory (place + index)) = memory place := by
      simp [littleEndian]
    rw [show 8 * 1 = 8 from rfl, whole]
    apply BitVec.eq_of_getLsbD_eq
    intro bit inside
    rw [BitVec.getLsbD_setWidth, BitVec.getLsbD_signExtend,
      decide_eq_true inside, decide_eq_true (by omega), if_pos inside]
    rfl
  · cases isValue
    apply BitVec.eq_of_toNat_eq
    have number := toNat_append_byte (memory (place + 1)) (memory place)
    have low := (memory place).isLt
    have high := (memory (place + 1)).isLt
    simp only [littleEndian, BitVec.toNat_setWidth, number, BitVec.toNat_ofNat,
      BitVec.zeroExtend]
    simp only [Nat.add_zero, Nat.zero_add]
    omega
  · cases isValue
    apply BitVec.eq_of_toNat_eq
    rw [BitVec.toNat_setWidth, toNat_bytesWord, BitVec.toNat_ofNat]
    congr 1
    simp only [littleEndian, Nat.add_zero, Nat.zero_add, Nat.reduceAdd]
    omega

/-- The extensions of `OneInstruction`, for values of `ReadMem` that are
extended already. -/
theorem extended_eq
    (some : 0 < size) (few : size ≤ 4) (isSigned : Bool) {value : Word}
    {number : Nat}
    (isNumber : value.setWidth (8 * size) = BitVec.ofNat (8 * size) number) :
    extended isSigned (BitVec.twoPow 32 (8 * size - 1)) (~~~lowBytes size)
      (lowBytes size) value = extendTo isSigned size number := by
  unfold extended extendTo
  rw [and_lowBytes, ← isNumber]
  have sign := @and_twoPow_ne_zero_iff value size some few
  cases isSigned with
  | false => rw [if_neg fun both => Bool.false_ne_true both.2, if_neg (by decide)]
  | true =>
    by_cases negative : (value.setWidth (8 * size)).msb = true
    · rw [if_pos ⟨sign.mpr negative, rfl⟩, or_not_lowBytes negative,
        if_pos rfl]
    · rw [if_neg fun both => negative (sign.mp both.1), if_pos rfl]
      exact (BitVec.signExtend_eq_setWidth_of_msb_false
        (Bool.eq_false_iff.mpr negative)).symm

theorem load_completes
    {extend : Word → Word}
    (executed : machine.load rt addr size extend = .ok outcome)
    (completes : outcome.exception = none) :
    ∃ value after, machine.readMem addr size = .ok (.ok value, after) ∧
      outcome = .completed after rt (extend value) after.following := by
  obtain ⟨⟨result, after⟩, performed, rest⟩ := exists_of_bind_eq_ok executed
  cases result with
  | error exception =>
    cases rest
    cases completes
  | ok value =>
    cases rest
    exact ⟨value, after, performed, rfl⟩

theorem execute_load
    {isSigned : Bool} {instr : Instruction}
    (isLoad : instr.opCode.loads = some (size, isSigned))
    (executed : machine.execute instr = .ok outcome)
    (completes : outcome.exception = none) :
    (size = 1 ∨ size = 2 ∨ size = 4) ∧ ∃ extend : Word → Word,
      machine.load instr.rt (machine.operand instr.rs + instr.extra) size
        extend = .ok outcome ∧
      ∀ value number,
        value.setWidth (8 * size) = BitVec.ofNat (8 * size) number →
        extend value = extendTo isSigned size number := by
  obtain ⟨opCode, rs, rt, rd, extra⟩ := instr
  cases opCode with
  | lb | lbu =>
    cases isLoad
    exact ⟨Or.inl rfl, _, executed, fun value number =>
      extended_eq Nat.one_pos (by decide) _⟩
  | lh | lhu =>
    cases isLoad
    change machine.loadHalf _ _ _ = _ at executed
    unfold loadHalf at executed
    split at executed
    · cases executed
      cases completes
    · exact ⟨Or.inr (Or.inl rfl), _, executed, fun value number =>
        extended_eq Nat.two_pos (by decide) _⟩
  | lw =>
    cases isLoad
    change machine.loadWord _ _ = _ at executed
    unfold loadWord at executed
    split at executed
    · cases executed
      cases completes
    · refine ⟨Or.inr (Or.inr rfl), _, executed, fun value number isNumber => ?_⟩
      exact (BitVec.setWidth_eq value).symm.trans isNumber
  | _ => cases isLoad

variable {opCode : OpCode} {isSigned : Bool}

/-- A load combines the bytes that user code sees from its address on. -/
theorem Sound.loads
    (sound : machine.Sound) (isNext : machine.Next opCode rt addr)
    (isLoad : opCode.loads = some (size, isSigned))
    (performed : machine.oneInstruction = .ok (next, none)) :
    ∃ bytes : Nat → Byte,
      (∀ index < size, machine.byteAt (addr + BitVec.ofNat 32 index) =
        some (bytes index)) ∧
      next.PendingFor rt ∧
      next.registers loadValueReg =
        extendTo isSigned size (littleEndian size bytes) := by
  obtain ⟨outcome, executes, -, -, completes⟩ := oneInstruction_leaves performed
  obtain ⟨instr, isInstr, rfl, rfl, rfl⟩ := isNext
  obtain ⟨fetched, looked, fetches⟩ := exists_nextOutcome sound.ready isInstr
  obtain ⟨isSize, extend, executed, extension⟩ :=
    execute_load isLoad (fetches.symm.trans executes) completes.symm
  obtain ⟨value, after, read, rfl⟩ := load_completes executed completes.symm
  obtain ⟨place, isValue, bytes⟩ := readMem_bytes looked.ready isSize read
  have lookedTwice := looked.trans (readMem_looked looked.ready isSize read)
  obtain ⟨last, again, completed⟩ := sound.completed executes
    lookedTwice.registers lookedTwice.ready
  cases again.symm.trans performed
  rw [looked.byteAt, looked.memory, looked.operand] at bytes
  rw [looked.memory] at isValue
  refine ⟨fun index => machine.mainMemory (place + index), bytes,
    completed.pending, ?_⟩
  rw [completed.value]
  exact extension value _ (setWidth_valueAt isSize isValue)

/-- In every run, a load of any size gives the bytes that were stored last, by
stores of whatever sizes, and every other byte is as it was. -/
theorem load_most_recent
    (sound : machine.Sound) (separate : machine.translation.Separate)
    (run : machine.MemoryRun stored middle)
    (isNext : middle.Next opCode rt addr)
    (isLoad : opCode.loads = some (size, isSigned))
    (performed : middle.oneInstruction = .ok (next, none)) :
    (∃ bytes : Nat → Byte,
      (∀ index < size,
        (machine.byteAt (addr + BitVec.ofNat 32 index)).map
          (fun old => (stored (addr + BitVec.ofNat 32 index)).getD old) =
          some (bytes index)) ∧
      next.PendingFor rt ∧
      next.registers loadValueReg =
        extendTo isSigned size (littleEndian size bytes)) ∧
    ∀ other, middle.byteAt other =
      (machine.byteAt other).map fun old => (stored other).getD old := by
  have remembers := run.remembers sound separate
  obtain ⟨bytes, seen, loaded⟩ := remembers.sound.loads isNext isLoad performed
  refine ⟨⟨bytes, fun index inside => ?_, loaded⟩, remembers.bytes⟩
  rw [← remembers.bytes]
  exact seen index inside

/-- `sw $8, 64($0)` and `lh $9, 66($0)`. -/
def storeLoad : Machine :=
  ((onePage (fun address =>
    ([64, 0x00, 0x08, 0xac, 66, 0x00, 0x09, 0x84] : List Byte).getD address
      0) false).initRegisters 1).set (gpr r8) 0x8001abcd

theorem load_most_recent_half :
    ∃ middle next, storeLoad.oneInstruction = .ok (middle, none) ∧
      middle.oneInstruction = .ok (next, none) ∧
      next.registers loadValueReg = 0xffff8001 := by
  obtain ⟨middle, isMiddle⟩ :
      ∃ middle, storeLoad.oneInstruction = .ok (middle, none) := ⟨_, rfl⟩
  obtain ⟨next, performed⟩ :
      ∃ next, middle.oneInstruction = .ok (next, none) := by
    cases isMiddle
    exact ⟨_, rfl⟩
  have isNext : middle.Next .lh ⟨9, by decide⟩ 66 := by
    cases isMiddle
    exact ⟨_, rfl, rfl, rfl, rfl⟩
  have sound : storeLoad.Sound := ⟨rfl, ⟨r0, rfl⟩, rfl⟩
  have separate : storeLoad.translation.Separate :=
    separate_onePage (fun _ => 0) false
  obtain ⟨⟨bytes, seen, -, value⟩, -⟩ :=
    load_most_recent sound separate (.instruction .start isMiddle) isNext rfl
      performed
  have low : bytes 0 = 0x01 := (Option.some.inj (seen 0 (by decide))).symm
  have high : bytes 1 = 0x80 := (Option.some.inj (seen 1 (by decide))).symm
  refine ⟨middle, next, isMiddle, performed, ?_⟩
  rw [value]
  simp only [littleEndian, low, high]
  rfl

end Machine

end Nachos
