import Nachos.Foundation.Transitions
import Nachos.Machine.Mipssim
import Nachos.Machine.UserMemory

/-!
# Runs of the processor
-/

namespace Nachos

open Foundation

def OpCode.hasCase : OpCode → Bool
  | .rfe | .special | .bcond => false
  | _ => true

namespace Instruction

theorem hasCase_opTable :
    ∀ index : Fin 64, (opTable.get index).1 = .special ∨
      (opTable.get index).1 = .bcond ∨
        (opTable.get index).1.hasCase = true := by
  decide

theorem hasCase_specialTable :
    ∀ index : Fin 64, (specialTable.get index).hasCase = true := by
  decide

theorem hasCase_bcondCode (value : Word) :
    (bcondCode value).hasCase = true := by
  simp only [bcondCode]
  split_ifs <;> rfl

theorem hasCase_decode (value : Word) :
    (decode value).opCode.hasCase = true := by
  unfold decode
  dsimp only
  split
  · exact hasCase_specialTable _
  · exact hasCase_bcondCode value
  · next notSpecial notBcond =>
      rcases hasCase_opTable (tableField value 26) with special | bcond | has
      · exact (notSpecial special).elim
      · exact (notBcond bcond).elim
      · exact has

end Instruction

namespace Machine

variable {machine next : Machine}

@[simp]
theorem set_self (machine : Machine) (num : Fin numTotalRegs) (value : Word) :
    (machine.set num value).registers num = value :=
  Function.update_self ..

theorem set_of_ne
    (machine : Machine) {num other : Fin numTotalRegs} (different : other ≠ num)
    (value : Word) :
    (machine.set num value).registers other = machine.registers other :=
  Function.update_of_ne different ..

theorem gpr_injective : Function.Injective gpr := by
  intro first second same
  have values : (gpr first).val = (gpr second).val := congrArg Fin.val same
  exact Fin.ext values

theorem gpr_ne
    (num : Fin numGPRegs) {other : Fin numTotalRegs}
    (special : numGPRegs ≤ other.val) : gpr num ≠ other := by
  intro same
  have below : (gpr num).val < numGPRegs := num.isLt
  rw [same] at below
  omega

end Machine

/-- The general register that an instruction writes at once, before the delayed
load is done. -/
def Instruction.destination (instr : Instruction) : Option (Fin numGPRegs) :=
  match instr.opCode with
  | .add | .addu | .and | .jalr | .mfhi | .mflo | .nor | .or | .sll | .sllv
  | .slt | .sltu | .sra | .srav | .srl | .srlv | .sub | .subu | .xor =>
    some instr.rd
  | .addi | .addiu | .andi | .lui | .ori | .slti | .sltiu | .xori =>
    some instr.rt
  | .bgezal | .bltzal | .jal => some r31
  | _ => none

namespace Machine

variable {machine next : Machine} {written : Option (Fin numGPRegs)}

structure Keeps (machine : Machine) (written : Option (Fin numGPRegs))
    (next : Machine) : Prop where
  others : ∀ num, num ≠ hiReg → num ≠ loReg → num ∉ written.map gpr →
    next.registers num = machine.registers num
  ready : next.translation.Ready

/-- An exception is raised before anything but the translation tables is
changed. -/
structure Untouched (machine next : Machine) : Prop where
  registers : next.registers = machine.registers
  memory : next.mainMemory = machine.mainMemory
  ready : next.translation.Ready

end Machine

def Outcome.Sound (machine : Machine) (written : Option (Fin numGPRegs)) :
    Outcome → Prop
  | .completed next _ _ _ => machine.Keeps written next
  | .raised next _ _ => machine.Untouched next

namespace Machine

variable {machine next : Machine} {written : Option (Fin numGPRegs)}

/-- The only fault of an instruction is a division that the host traps. -/
def Executes (machine : Machine) (written : Option (Fin numGPRegs))
    (result : Except Fault Outcome) : Prop :=
  (∃ outcome, result = .ok outcome ∧ outcome.Sound machine written) ∨
    result = .error .divisionOverflow

theorem executes_ok
    {outcome : Outcome} (sound : outcome.Sound machine written) :
    machine.Executes written (.ok outcome) :=
  Or.inl ⟨outcome, rfl, sound⟩

theorem keeps_refl (ready : machine.translation.Ready) :
    machine.Keeps written machine :=
  ⟨fun _ _ _ _ => rfl, ready⟩

theorem untouched_refl (ready : machine.translation.Ready) :
    machine.Untouched machine :=
  ⟨rfl, rfl, ready⟩

theorem keeps_setGpr
    (ready : machine.translation.Ready) (num : Fin numGPRegs) (value : Word) :
    machine.Keeps (some num) (machine.set (gpr num) value) where
  others := by
    intro other _ _ notWritten
    refine set_of_ne machine ?_ value
    rintro rfl
    exact notWritten rfl
  ready := ready

theorem Keeps.setHi (keeps : machine.Keeps written next) (value : Word) :
    machine.Keeps written (next.set hiReg value) where
  others := by
    intro other notHi notLo notWritten
    rw [set_of_ne next notHi]
    exact keeps.others other notHi notLo notWritten
  ready := keeps.ready

theorem Keeps.setLo (keeps : machine.Keeps written next) (value : Word) :
    machine.Keeps written (next.set loReg value) where
  others := by
    intro other notHi notLo notWritten
    rw [set_of_ne next notLo]
    exact keeps.others other notHi notLo notWritten
  ready := keeps.ready

theorem Keeps.control
    (keeps : machine.Keeps written next) {num : Fin numTotalRegs}
    (isControl : pcReg.val ≤ num.val) :
    next.registers num = machine.registers num := by
  refine keeps.others num ?_ ?_ ?_
  · rintro rfl
    exact absurd isControl (by decide)
  · rintro rfl
    exact absurd isControl (by decide)
  · intro isWritten
    obtain ⟨target, -, same⟩ := Option.map_eq_some_iff.mp isWritten
    exact gpr_ne target (Nat.le_trans (by decide) isControl) same

theorem executes_write
    (ready : machine.translation.Ready) (num : Fin numGPRegs) (value : Word) :
    machine.Executes (some num) (.ok (machine.write num value)) :=
  executes_ok (keeps_setGpr ready num value)

theorem executes_writeUnless
    (ready : machine.translation.Ready) (overflows : Bool)
    (num : Fin numGPRegs) (value : Word) :
    machine.Executes (some num)
      (.ok (machine.writeUnless overflows num value)) := by
  unfold writeUnless
  split
  · exact executes_ok (untouched_refl ready)
  · exact executes_write ready num value

theorem executes_branch
    (keeps : machine.Keeps written next) (taken : Bool) (extra : Word) :
    machine.Executes written (.ok (next.branch taken extra)) := by
  unfold branch
  split
  · exact executes_ok keeps
  · exact executes_ok keeps

theorem executes_writeHiLo
    (ready : machine.translation.Ready) (hi lo : Word) :
    machine.Executes written (.ok (machine.writeHiLo hi lo)) :=
  executes_ok (((keeps_refl ready).setLo lo).setHi hi)

theorem executes_divide
    (ready : machine.translation.Ready) (rs rt : Word) :
    machine.Executes written (machine.divide rs rt) := by
  unfold divide
  split_ifs
  · exact executes_writeHiLo ready 0 0
  · exact Or.inr rfl
  · exact executes_writeHiLo ready _ _

theorem executes_divideUnsigned
    (ready : machine.translation.Ready) (rs rt : Word) :
    machine.Executes written (.ok (machine.divideUnsigned rs rt)) := by
  unfold divideUnsigned
  split_ifs
  · exact executes_writeHiLo ready 0 0
  · exact executes_writeHiLo ready _ _

theorem executes_load
    (ready : machine.translation.Ready) (rt : Fin numGPRegs) (addr : Word)
    {size : Nat} (isSize : size = 1 ∨ size = 2 ∨ size = 4)
    (extend : Word → Word) :
    machine.Executes written (machine.load rt addr size extend) := by
  obtain ⟨result, translation, performed, nextReady⟩ :=
    readMem_spec ready addr isSize
  unfold load
  rw [performed]
  cases result with
  | error exception =>
    exact executes_ok ⟨rfl, rfl, nextReady⟩
  | ok value =>
    exact executes_ok ⟨fun _ _ _ _ => rfl, nextReady⟩

theorem executes_loadPart
    (ready : machine.translation.Ready) (rt : Fin numGPRegs) (addr : Word)
    (merge : Word → Word → Word → Word) :
    machine.Executes written (machine.loadPart rt addr merge) := by
  obtain ⟨result, translation, performed, nextReady⟩ :=
    readMem_spec ready (addr - (addr &&& 3)) (Or.inr (Or.inr rfl))
  simp only [loadPart, performed]
  cases result with
  | error exception =>
    exact executes_ok ⟨rfl, rfl, nextReady⟩
  | ok value =>
    exact executes_ok ⟨fun _ _ _ _ => rfl, nextReady⟩

theorem executes_store
    (untouched : machine.Untouched next) (addr : Word) {size : Nat}
    (isSize : size = 1 ∨ size = 2 ∨ size = 4) (value : Word) :
    machine.Executes written (next.store addr size value) := by
  obtain ⟨result, memory, translation, performed, same, nextReady⟩ :=
    writeMem_spec untouched.ready addr isSize value
  unfold store
  rw [performed]
  cases result with
  | error exception =>
    exact executes_ok ⟨untouched.registers,
      (same exception rfl).trans untouched.memory, nextReady⟩
  | ok done =>
    refine executes_ok ⟨fun num _ _ _ => ?_, nextReady⟩
    exact congrFun untouched.registers num

theorem executes_storePart
    (ready : machine.translation.Ready) (rt : Fin numGPRegs) (addr : Word)
    (merge : Word → Word → Word → Word) :
    machine.Executes written (machine.storePart rt addr merge) := by
  obtain ⟨result, translation, performed, nextReady⟩ :=
    readMem_spec ready (addr - (addr &&& 3)) (Or.inr (Or.inr rfl))
  simp only [storePart, performed]
  cases result with
  | error exception =>
    exact executes_ok ⟨rfl, rfl, nextReady⟩
  | ok value =>
    have untouched :
        machine.Untouched { machine with translation := translation } :=
      ⟨rfl, rfl, nextReady⟩
    exact executes_store untouched _ (Or.inr (Or.inr rfl)) _

/-- Every operation that has a case writes its destination at most, and raises
an exception before it changes anything. -/
theorem executes_execute
    (ready : machine.translation.Ready) {instr : Instruction}
    (hasCase : instr.opCode.hasCase = true) :
    machine.Executes instr.destination (machine.execute instr) := by
  obtain ⟨opCode, rs, rt, rd, extra⟩ := instr
  cases opCode with
  | add | addi | sub => exact executes_writeUnless ready _ _ _
  | addiu | addu | and | andi | lui | mfhi | mflo | nor | or | ori | sll | sllv
  | slt | slti | sltiu | sltu | sra | srav | srl | srlv | subu | xor | xori =>
    exact executes_write ready _ _
  | beq | bgez | bgtz | blez | bltz | bne =>
    exact executes_branch (keeps_refl ready) _ _
  | bgezal | bltzal => exact executes_branch (keeps_setGpr ready r31 _) _ _
  | div => exact executes_divide ready _ _
  | divu => exact executes_divideUnsigned ready _ _
  | j | jr => exact executes_ok (keeps_refl ready)
  | jal => exact executes_ok (keeps_setGpr ready r31 _)
  | jalr => exact executes_ok (keeps_setGpr ready rd _)
  | lb | lbu => exact executes_load ready _ _ (Or.inl rfl) _
  | lh | lhu =>
    simp only [execute, loadHalf]
    split
    · exact executes_ok (untouched_refl ready)
    · exact executes_load ready _ _ (Or.inr (Or.inl rfl)) _
  | lw =>
    simp only [execute, loadWord]
    split
    · exact executes_ok (untouched_refl ready)
    · exact executes_load ready _ _ (Or.inr (Or.inr rfl)) _
  | lwl | lwr => exact executes_loadPart ready _ _ _
  | mthi => exact executes_ok ((keeps_refl ready).setHi _)
  | mtlo => exact executes_ok ((keeps_refl ready).setLo _)
  | mult | multu => exact executes_writeHiLo ready _ _
  | sb => exact executes_store (untouched_refl ready) _ (Or.inl rfl) _
  | sh =>
    exact executes_store (untouched_refl ready) _ (Or.inr (Or.inl rfl)) _
  | sw =>
    exact executes_store (untouched_refl ready) _ (Or.inr (Or.inr rfl)) _
  | swl | swr => exact executes_storePart ready _ _ _
  | syscall | res | unimp => exact executes_ok (untouched_refl ready)
  | rfe | special | bcond => cases hasCase

/-! ## The delayed load -/

/-- What `DelayedLoad` does if the load is pending for `target`. -/
def loaded (machine : Machine) (target nextReg : Fin numGPRegs)
    (nextValue : Word) : Machine :=
  (((machine.set (gpr target) (machine.registers loadValueReg)).set loadReg
    (BitVec.ofNat 32 nextReg)).set loadValueReg nextValue).set (gpr r0) 0

def PendingFor (machine : Machine) (target : Fin numGPRegs) : Prop :=
  machine.registers loadReg = BitVec.ofNat 32 target

theorem toNat_ofNat_gpr (num : Fin numGPRegs) :
    (BitVec.ofNat 32 num).toNat = num.val := by
  rw [BitVec.toNat_ofNat]
  exact Nat.mod_eq_of_lt (Nat.lt_of_lt_of_le num.isLt (by decide))

variable {target : Fin numGPRegs}

theorem delayedLoad_eq
    (pending : machine.PendingFor target) (nextReg : Fin numGPRegs)
    (nextValue : Word) :
    machine.delayedLoad nextReg nextValue =
      .ok (machine.loaded target nextReg nextValue) := by
  have indexed :
      machine.setIndexed (machine.registers loadReg)
          (machine.registers loadValueReg) =
        .ok (machine.set (gpr target) (machine.registers loadValueReg)) := by
    rw [show machine.registers loadReg = BitVec.ofNat 32 target from pending]
    unfold setIndexed
    have toNat := toNat_ofNat_gpr target
    rw [dif_pos (by rw [toNat]; exact (gpr target).isLt)]
    congr
  unfold delayedLoad
  rw [indexed]
  rfl

theorem loaded_zero (nextReg : Fin numGPRegs) (nextValue : Word) :
    (machine.loaded target nextReg nextValue).registers (gpr r0) = 0 :=
  set_self ..

theorem loaded_pendingFor (nextReg : Fin numGPRegs) (nextValue : Word) :
    (machine.loaded target nextReg nextValue).PendingFor nextReg := by
  unfold PendingFor loaded
  rw [set_of_ne _ (by decide), set_of_ne _ (by decide), set_self]

theorem loaded_loadValueReg (nextReg : Fin numGPRegs) (nextValue : Word) :
    (machine.loaded target nextReg nextValue).registers loadValueReg =
      nextValue := by
  unfold loaded
  rw [set_of_ne _ (by decide), set_self]

/-- `DelayedLoad` leaves `Hi`, `Lo`, the program counters and `BadVAddrReg`
alone. -/
theorem loaded_special
    (nextReg : Fin numGPRegs) (nextValue : Word) {num : Fin numTotalRegs}
    (special : numGPRegs ≤ num.val) (notLoadReg : num ≠ loadReg)
    (notLoadValueReg : num ≠ loadValueReg) :
    (machine.loaded target nextReg nextValue).registers num =
      machine.registers num := by
  unfold loaded
  rw [set_of_ne _ (gpr_ne r0 special).symm, set_of_ne _ notLoadValueReg,
    set_of_ne _ notLoadReg, set_of_ne _ (gpr_ne target special).symm]

/-- `DelayedLoad` gives the target the value that was pending, and leaves the
other general registers alone. -/
theorem loaded_general
    (nextReg : Fin numGPRegs) (nextValue : Word) {num : Fin numGPRegs}
    (notZero : num ≠ r0) :
    (machine.loaded target nextReg nextValue).registers (gpr num) =
      if num = target then machine.registers loadValueReg
      else machine.registers (gpr num) := by
  unfold loaded
  rw [set_of_ne _ (gpr_injective.ne notZero), set_of_ne _ (gpr_ne num (by decide)),
    set_of_ne _ (gpr_ne num (by decide))]
  split_ifs with same
  · rw [same, set_self]
  · exact set_of_ne _ (gpr_injective.ne same) _

/-! ## What every step preserves -/

/-- Register 0 is zero, the delayed load is for a general register, and there
is one translation table. -/
structure Sound (machine : Machine) : Prop where
  zero : machine.registers (gpr r0) = 0
  pending : ∃ target, machine.PendingFor target
  ready : machine.translation.Ready

theorem sound_loaded
    (ready : machine.translation.Ready) (nextReg : Fin numGPRegs)
    (nextValue : Word) : (machine.loaded target nextReg nextValue).Sound :=
  ⟨loaded_zero .., ⟨nextReg, loaded_pendingFor ..⟩, ready⟩

theorem Sound.delayedLoad
    (sound : machine.Sound) (nextReg : Fin numGPRegs) (nextValue : Word) :
    ∃ next, machine.delayedLoad nextReg nextValue = .ok next ∧ next.Sound := by
  obtain ⟨target, pending⟩ := sound.pending
  exact ⟨_, delayedLoad_eq pending .., sound_loaded sound.ready ..⟩

theorem Sound.set
    (sound : machine.Sound) {num : Fin numTotalRegs} (notZero : num ≠ gpr r0)
    (notLoadReg : num ≠ loadReg) (value : Word) :
    (machine.set num value).Sound where
  zero := by
    rw [set_of_ne _ notZero.symm]
    exact sound.zero
  pending := by
    obtain ⟨target, pending⟩ := sound.pending
    exact ⟨target, (set_of_ne _ notLoadReg.symm _).trans pending⟩
  ready := sound.ready

theorem Sound.advance (sound : machine.Sound) (pcAfter : Word) :
    (machine.advance pcAfter).Sound :=
  ((sound.set (by decide) (by decide) _).set (by decide) (by decide) _).set
    (by decide) (by decide) _

theorem advance_of_ne
    (pcAfter : Word) {num : Fin numTotalRegs} (notPrevPC : num ≠ prevPCReg)
    (notPC : num ≠ pcReg) (notNextPC : num ≠ nextPCReg) :
    (machine.advance pcAfter).registers num = machine.registers num := by
  unfold Machine.advance
  rw [set_of_ne _ notNextPC, set_of_ne _ notPC, set_of_ne _ notPrevPC]

theorem advance_general
    (machine : Machine) (pcAfter : Word) (num : Fin numGPRegs) :
    (machine.advance pcAfter).registers (gpr num) =
      machine.registers (gpr num) :=
  advance_of_ne pcAfter (gpr_ne num (by decide)) (gpr_ne num (by decide))
    (gpr_ne num (by decide))

theorem finish_completed
    (pending : machine.PendingFor target) (nextLoadReg : Fin numGPRegs)
    (nextLoadValue pcAfter : Word) :
    finish (.completed machine nextLoadReg nextLoadValue pcAfter) =
      .ok ((machine.loaded target nextLoadReg nextLoadValue).advance pcAfter,
        none) := by
  simp only [finish, delayedLoad_eq pending, ok_bind]
  rfl

theorem raiseException_eq
    (pending : machine.PendingFor target) (badVAddr : Word) :
    machine.raiseException badVAddr =
      .ok ((machine.set badVAddrReg badVAddr).loaded target r0 0) :=
  delayedLoad_eq ((set_of_ne _ (by decide) _).trans pending) r0 0

theorem finish_raised
    (pending : machine.PendingFor target) (which : ExceptionType)
    (badVAddr : Word) :
    finish (.raised machine which badVAddr) =
      .ok ((machine.set badVAddrReg badVAddr).loaded target r0 0,
        some which) := by
  simp only [finish, raiseException_eq pending, ok_bind]
  rfl

theorem Keeps.pendingFor
    (keeps : machine.Keeps written next) (pending : machine.PendingFor target) :
    next.PendingFor target :=
  (keeps.control (by decide)).trans pending

theorem Untouched.pendingFor
    (untouched : machine.Untouched next)
    (pending : machine.PendingFor target) : next.PendingFor target := by
  unfold PendingFor
  rw [untouched.registers]
  exact pending

theorem Sound.finish
    (sound : machine.Sound) {outcome : Outcome}
    (outcomeSound : outcome.Sound machine written) :
    ∃ next exception, Machine.finish outcome = .ok (next, exception) ∧
      next.Sound := by
  obtain ⟨target, pending⟩ := sound.pending
  cases outcome with
  | raised middle which badVAddr =>
    have ready : (middle.set badVAddrReg badVAddr).translation.Ready :=
      outcomeSound.ready
    exact ⟨_, _, finish_raised (outcomeSound.pendingFor pending) which badVAddr,
      sound_loaded ready ..⟩
  | completed middle nextLoadReg nextLoadValue pcAfter =>
    exact ⟨_, _, finish_completed (outcomeSound.pendingFor pending) ..,
      (sound_loaded outcomeSound.ready ..).advance _⟩

/-- A fetch changes the tables at most, so what an instruction does from there
on it does from the machine before the fetch. -/
theorem Outcome.Sound.ofFetched
    {translation : Translation} {outcome : Outcome}
    (sound :
      outcome.Sound { machine with translation := translation } written) :
    outcome.Sound machine written := by
  cases outcome with
  | completed _ _ _ _ => exact ⟨sound.others, sound.ready⟩
  | raised _ _ _ => exact ⟨sound.registers, sound.memory, sound.ready⟩

def nextInstruction (machine : Machine) : Option Instruction :=
  match machine.readMem (machine.registers pcReg) 4 with
  | .ok (.ok value, _) => some (Instruction.decode value)
  | _ => none

def nextWritten (machine : Machine) : Option (Fin numGPRegs) :=
  machine.nextInstruction.bind Instruction.destination

/-- `Machine::OneInstruction` up to the end of the `switch`. -/
def nextOutcome (machine : Machine) : Except Fault Outcome := do
  let pc := machine.registers pcReg
  let (raw, fetched) ← machine.readMem pc 4
  match raw with
  | .error exception => return .raised fetched exception pc
  | .ok value => fetched.execute (Instruction.decode value)

theorem oneInstruction_eq (machine : Machine) :
    machine.oneInstruction = (do finish (← machine.nextOutcome)) := by
  simp only [oneInstruction, nextOutcome]
  cases machine.readMem (machine.registers pcReg) 4 with
  | error fault => rfl
  | ok pair =>
    obtain ⟨raw, fetched⟩ := pair
    cases raw <;> rfl

theorem Looked.operand
    {fetched : Machine} (looked : machine.Looked fetched)
    (num : Fin numGPRegs) : fetched.operand num = machine.operand num := by
  unfold Machine.operand
  rw [looked.registers]

theorem exists_nextOutcome
    (ready : machine.translation.Ready) {instr : Instruction}
    (isNext : machine.nextInstruction = some instr) :
    ∃ fetched, machine.Looked fetched ∧
      machine.nextOutcome = fetched.execute instr := by
  unfold nextInstruction at isNext
  split at isNext
  · next value fetched performed =>
      refine ⟨fetched, readMem_looked ready (Or.inr (Or.inr rfl)) performed, ?_⟩
      simp only [nextOutcome, performed, ok_bind, Option.some.inj isNext]
  · cases isNext

/-- Whatever word is fetched, it can be executed, unless it is a division that
the host traps. -/
theorem executes_nextOutcome (ready : machine.translation.Ready) :
    machine.Executes machine.nextWritten machine.nextOutcome := by
  obtain ⟨result, translation, performed, fetchedReady⟩ :=
    readMem_spec ready (machine.registers pcReg) (Or.inr (Or.inr rfl))
  simp only [nextWritten, nextInstruction, nextOutcome, performed, ok_bind]
  cases result with
  | error exception =>
    have untouched :
        machine.Untouched { machine with translation := translation } :=
      ⟨rfl, rfl, fetchedReady⟩
    exact Or.inl ⟨.raised _ exception _, rfl, untouched⟩
  | ok value =>
    rcases @executes_execute { machine with translation := translation }
        fetchedReady _ (Instruction.hasCase_decode value) with
      ⟨outcome, executed, sound⟩ | trapped
    · exact Or.inl ⟨outcome, executed, Outcome.Sound.ofFetched sound⟩
    · exact Or.inr trapped

theorem oneInstruction_cases (ready : machine.translation.Ready) :
    (∃ outcome, outcome.Sound machine machine.nextWritten ∧
      machine.oneInstruction = finish outcome) ∨
      machine.oneInstruction = .error .divisionOverflow := by
  rw [oneInstruction_eq]
  rcases executes_nextOutcome ready with ⟨outcome, executed, sound⟩ | trapped
  · rw [executed]
    exact Or.inl ⟨outcome, sound, rfl⟩
  · rw [trapped]
    exact Or.inr rfl

theorem Sound.oneInstruction (sound : machine.Sound) :
    (∃ next exception, machine.oneInstruction = .ok (next, exception) ∧
      next.Sound) ∨ machine.oneInstruction = .error .divisionOverflow := by
  rcases oneInstruction_cases sound.ready with
    ⟨outcome, outcomeSound, same⟩ | trapped
  · left
    rw [same]
    exact sound.finish outcomeSound
  · exact Or.inr trapped

theorem Sound.of_oneInstruction
    {next : Machine} (sound : machine.Sound) {exception : Option ExceptionType}
    (performed : machine.oneInstruction = .ok (next, exception)) :
    next.Sound := by
  rcases sound.oneInstruction with ⟨_, _, same, nextSound⟩ | trapped
  · cases same.symm.trans performed
    exact nextSound
  · cases trapped.symm.trans performed

/-- How an instruction ends that came to the `break` with `after`: the load of
the instruction before it is done, and its own one is pending. -/
structure Finished (machine after : Machine) (nextReg : Fin numGPRegs)
    (nextValue : Word) (next : Machine) : Prop where
  sound : next.Sound
  memory : next.mainMemory = after.mainMemory
  translation : next.translation = after.translation
  pending : next.PendingFor nextReg
  value : next.registers loadValueReg = nextValue
  general : ∀ num, num ≠ r0 → ¬machine.PendingFor num →
    next.operand num = after.operand num
  hi : next.registers hiReg = after.registers hiReg
  lo : next.registers loReg = after.registers loReg

theorem Sound.finished
    (sound : machine.Sound) {after : Machine} {nextReg : Fin numGPRegs}
    {nextValue pcAfter : Word}
    (outcome : machine.nextOutcome =
      .ok (.completed after nextReg nextValue pcAfter))
    (keeps : machine.Keeps written after) :
    ∃ next, machine.oneInstruction = .ok (next, none) ∧
      machine.Finished after nextReg nextValue next := by
  obtain ⟨target, pending⟩ := sound.pending
  have performed : machine.oneInstruction =
      .ok ((after.loaded target nextReg nextValue).advance pcAfter, none) := by
    rw [oneInstruction_eq, outcome, ok_bind]
    exact finish_completed (keeps.pendingFor pending) ..
  refine ⟨_, performed, (sound_loaded keeps.ready ..).advance pcAfter, rfl, rfl,
    ?_, ?_, ?_, ?_, ?_⟩
  · exact (advance_of_ne pcAfter (by decide) (by decide) (by decide)).trans
      (loaded_pendingFor ..)
  · exact (advance_of_ne pcAfter (by decide) (by decide) (by decide)).trans
      (loaded_loadValueReg ..)
  · intro num notZero notPending
    have notTarget : num ≠ target := fun same => notPending (same ▸ pending)
    unfold operand
    rw [advance_general, loaded_general _ _ notZero, if_neg notTarget]
  · exact (advance_of_ne pcAfter (by decide) (by decide) (by decide)).trans
      (loaded_special _ _ (by decide) (by decide) (by decide))
  · exact (advance_of_ne pcAfter (by decide) (by decide) (by decide)).trans
      (loaded_special _ _ (by decide) (by decide) (by decide))

/-! ## Exceptions -/

/-- How `ExceptionHandler` finds the machine: as it was before the instruction,
but for the delayed load, `BadVAddrReg` and the use bits of the tables. -/
structure Precise (machine : Machine) (target : Fin numGPRegs)
    (entry : Machine) : Prop where
  applied : target ≠ r0 →
    entry.registers (gpr target) = machine.registers loadValueReg
  general : ∀ num, num = r0 ∨ num ≠ target →
    entry.registers (gpr num) = machine.registers (gpr num)
  hi : entry.registers hiReg = machine.registers hiReg
  lo : entry.registers loReg = machine.registers loReg
  pc : entry.registers pcReg = machine.registers pcReg
  nextPC : entry.registers nextPCReg = machine.registers nextPCReg
  prevPC : entry.registers prevPCReg = machine.registers prevPCReg
  memory : entry.mainMemory = machine.mainMemory

theorem Untouched.precise
    (untouched : machine.Untouched next)
    (zero : machine.registers (gpr r0) = 0) (badVAddr : Word) :
    machine.Precise target
      ((next.set badVAddrReg badVAddr).loaded target r0 0) := by
  have before : ∀ num, num ≠ badVAddrReg →
      (next.set badVAddrReg badVAddr).registers num =
        machine.registers num := by
    intro num different
    rw [set_of_ne _ different, untouched.registers]
  have special : ∀ num : Fin numTotalRegs, numGPRegs ≤ num.val →
      num ≠ loadReg → num ≠ loadValueReg → num ≠ badVAddrReg →
      ((next.set badVAddrReg badVAddr).loaded target r0 0).registers num =
        machine.registers num := by
    intro num isSpecial notLoadReg notLoadValueReg notBadVAddr
    rw [loaded_special _ _ isSpecial notLoadReg notLoadValueReg]
    exact before num notBadVAddr
  refine ⟨?_, ?_, special _ ?_ ?_ ?_ ?_, special _ ?_ ?_ ?_ ?_,
    special _ ?_ ?_ ?_ ?_, special _ ?_ ?_ ?_ ?_, special _ ?_ ?_ ?_ ?_,
    untouched.memory⟩
  · intro notZero
    rw [loaded_general _ _ notZero, if_pos rfl]
    exact before _ (by decide)
  · intro num cases
    by_cases isZero : num = r0
    · rw [isZero, loaded_zero]
      exact zero.symm
    · rw [loaded_general _ _ isZero, if_neg (cases.resolve_left isZero)]
      exact before _ (gpr_ne num (by decide))
  all_goals decide

/-- Exceptions are precise: an instruction that raises one has changed nothing
but what `Precise` leaves out. -/
theorem exception_precise
    (sound : machine.Sound) (pending : machine.PendingFor target)
    {entry : Machine} {which : ExceptionType}
    (raised : machine.oneInstruction = .ok (entry, some which)) :
    machine.Precise target entry := by
  rcases oneInstruction_cases sound.ready with
    ⟨outcome, outcomeSound, same⟩ | trapped
  · rw [same] at raised
    cases outcome with
    | completed middle nextLoadReg nextLoadValue pcAfter =>
      rw [finish_completed (Keeps.pendingFor outcomeSound pending)] at raised
      cases raised
    | raised middle exception badVAddr =>
      rw [finish_raised (Untouched.pendingFor outcomeSound pending)] at raised
      cases raised
      exact Untouched.precise outcomeSound sound.zero badVAddr
  · rw [trapped] at raised
    cases raised

def onePage (memory : Nat → Byte) (readOnly : Bool) : Machine where
  registers := fun _ => 0
  mainMemory := memory
  translation := {
    tlb := none
    pageTable :=
      some ⟨[⟨0, 0, true, readOnly, false, false⟩], 1, Nat.le_refl 1⟩ }

/-- `swl $8, 0($0)` on a page it can read and not write, with a load pending
for `$8`. -/
def storeReadOnly : Machine :=
  ((onePage (fun address =>
    if address = 2 then 0x08 else if address = 3 then 0xa8 else 0) true).set
      loadReg 8).set loadValueReg 5

theorem exception_precise_of_store :
    ∃ entry,
      storeReadOnly.oneInstruction = .ok (entry, some .readOnlyException) ∧
      storeReadOnly.Precise ⟨8, by decide⟩ entry := by
  obtain ⟨entry, raised⟩ :
      ∃ entry, storeReadOnly.oneInstruction =
        .ok (entry, some .readOnlyException) := ⟨_, rfl⟩
  have pending : storeReadOnly.PendingFor ⟨8, by decide⟩ := rfl
  exact ⟨entry, raised,
    exception_precise ⟨rfl, ⟨_, pending⟩, rfl⟩ pending raised⟩

/-! ## Runs -/

def stackReg : Fin numTotalRegs := ⟨29, by decide⟩

def initRegisters (machine : Machine) (numPages : Word) : Machine :=
  ((({ machine with registers := fun _ => 0 } : Machine).set pcReg 0).set
    nextPCReg 4).set stackReg (numPages * BitVec.ofNat 32 pageSize - 16)

theorem sound_initRegisters
    (ready : machine.translation.Ready) (numPages : Word) :
    (machine.initRegisters numPages).Sound := by
  have zeroed : ({ machine with registers := fun _ => 0 } : Machine).Sound :=
    ⟨rfl, ⟨r0, rfl⟩, ready⟩
  exact ((zeroed.set (by decide) (by decide) 0).set (by decide)
    (by decide) 4).set (by decide) (by decide) _

end Machine

inductive ProcessorEvent where
  /-- `OneInstruction`, up to `ExceptionHandler` if there is an exception. -/
  | instruction
  /-- `CheckIfDue` does `DelayedLoad(0, 0)` before it calls a handler. -/
  | interrupt
  /-- A system call handler writes a register. -/
  | writeRegister (num : Fin numTotalRegs) (value : Word)
  /-- An access of the kernel to user memory raises an exception. -/
  | kernelException (badVAddr : Word)
  /-- The kernel or another process changes memory or the tables. -/
  | memory (mainMemory : Nat → Byte) (translation : Translation)

namespace ProcessorEvent

def handlerRegisters : List (Fin numTotalRegs) :=
  [⟨2, by decide⟩, prevPCReg, pcReg, nextPCReg]

def Allows : ProcessorEvent → Prop
  | .writeRegister num _ => num ∈ handlerRegisters
  | .memory _ translation => translation.Ready
  | _ => True

def perform (machine : Machine) : ProcessorEvent → Except Fault Machine
  | .instruction => do
    let (next, _) ← machine.oneInstruction
    return next
  | .interrupt => machine.delayedLoad r0 0
  | .writeRegister num value => .ok (machine.set num value)
  | .kernelException badVAddr => machine.raiseException badVAddr
  | .memory mainMemory translation =>
    .ok { machine with mainMemory := mainMemory, translation := translation }

end ProcessorEvent

def processor : TransitionSystem Machine ProcessorEvent where
  start machine := ∃ before numPages, before.translation.Ready ∧
    machine = Machine.initRegisters before numPages
  step machine event next := event.Allows ∧ event.perform machine = .ok next

namespace Machine

variable {machine next : Machine}

/-- One event: it keeps the invariant, and only a division can fail. -/
theorem Sound.perform
    (sound : machine.Sound) {event : ProcessorEvent} (allowed : event.Allows) :
    (∃ next, event.perform machine = .ok next ∧ next.Sound) ∨
      (event = .instruction ∧
        event.perform machine = .error .divisionOverflow) := by
  cases event with
  | instruction =>
    simp only [ProcessorEvent.perform]
    rcases sound.oneInstruction with ⟨next, _, performed, nextSound⟩ | trapped
    · left
      rw [performed]
      exact ⟨next, rfl, nextSound⟩
    · right
      simp only [trapped]
      exact ⟨trivial, rfl⟩
  | interrupt => exact Or.inl (sound.delayedLoad r0 0)
  | writeRegister num value =>
    have isHandlers : num ∈ ProcessorEvent.handlerRegisters := allowed
    refine Or.inl ⟨_, rfl, sound.set ?_ ?_ value⟩
    · rintro rfl
      exact absurd isHandlers (by decide)
    · rintro rfl
      exact absurd isHandlers (by decide)
  | kernelException badVAddr =>
    exact Or.inl ((sound.set (by decide) (by decide) badVAddr).delayedLoad r0 0)
  | memory mainMemory translation =>
    exact Or.inl ⟨_, rfl, sound.zero, sound.pending, allowed⟩

/-- No event of the processor breaks the invariant. -/
theorem Sound.of_step
    (sound : machine.Sound) {event : ProcessorEvent}
    (taken : processor.step machine event next) : next.Sound := by
  obtain ⟨allowed, performed⟩ := taken
  rcases sound.perform allowed with ⟨_, same, nextSound⟩ | ⟨_, trapped⟩
  · cases same.symm.trans performed
    exact nextSound
  · cases trapped.symm.trans performed

theorem sound_of_reachable (reachable : processor.Reachable machine) :
    machine.Sound := by
  refine reachable.invariant ?_ ?_
  · rintro _ ⟨before, numPages, ready, rfl⟩
    exact sound_initRegisters ready numPages
  · intro source event target sound taken
    exact sound.of_step taken

/-- What is safe about a state of the processor.  An index outside the
registers, or an operation without a case, would be a fault of `perform`. -/
structure Safe (machine : Machine) : Prop where
  zero : machine.registers (gpr r0) = 0
  loadReg : 0 ≤ (machine.registers loadReg).toInt ∧
    (machine.registers loadReg).toInt ≤ 31
  performs : ∀ event : ProcessorEvent, event.Allows →
    (∃ next, event.perform machine = .ok next) ∨
      (event = .instruction ∧
        event.perform machine = .error .divisionOverflow)

theorem Sound.safe (sound : machine.Sound) : machine.Safe where
  zero := sound.zero
  loadReg := by
    obtain ⟨target, pending⟩ := sound.pending
    have below : target.val < 32 := target.isLt
    rw [show machine.registers Nachos.loadReg = _ from pending,
      BitVec.toInt_eq_toNat_of_lt (by rw [toNat_ofNat_gpr]; omega),
      toNat_ofNat_gpr]
    omega
  performs := by
    intro event allowed
    rcases sound.perform allowed with ⟨next, performed, _⟩ | trapped
    · exact Or.inl ⟨next, performed⟩
    · exact Or.inr trapped

end Machine

namespace Instruction

def Decodes (value : Word) : Prop :=
  (decode value).opCode.hasCase = true ∧
    ∀ position : Nat, ((value >>> position) &&& 0x1f).toNat < numTotalRegs

theorem decodes (value : Word) : Decodes value :=
  ⟨hasCase_decode value, fun position =>
    Nat.lt_of_lt_of_le (registerField value position).isLt (by decide)⟩

end Instruction

/-- Along every run of instructions, interrupts and system calls, from any
memory, register 0 is zero, the delayed load is for a general register, all
indices are registers, and every word fetched has a case. -/
theorem processor_safe_of_reachable
    {machine : Machine} (reachable : processor.Reachable machine) :
    machine.Safe ∧ ∀ value, Instruction.Decodes value :=
  ⟨(Machine.sound_of_reachable reachable).safe, Instruction.decodes⟩

def loadZero : Machine :=
  (Machine.onePage (fun address => if address = 3 then 0x8c else 0)
    false).initRegisters 1

theorem processor_safe_of_load :
    ∃ next, ProcessorEvent.instruction.perform loadZero = .ok next ∧
      next.Safe := by
  obtain ⟨next, performed⟩ :
      ∃ next, ProcessorEvent.instruction.perform loadZero = .ok next :=
    ⟨_, rfl⟩
  have starting : processor.Reachable loadZero :=
    .start ⟨Machine.onePage _ _, 1, rfl, rfl⟩
  have taken : processor.step loadZero .instruction next := ⟨trivial, performed⟩
  exact ⟨next, performed,
    (processor_safe_of_reachable (.step starting taken)).1⟩

end Nachos
