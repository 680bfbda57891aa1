import Nachos.Foundation.Lockstep
import Nachos.Machine.CpuRuns

/-!
# Instructions on two machines

An instruction reads few registers.  On two machines that agree on those, and
whose memory answers in the same way, it does the same and keeps the differences
there are, whatever the operation.
-/

namespace Nachos

open Foundation

/-- The general registers an instruction reads, other than through the delayed
load that `LWL` and `LWR` look up themselves. -/
def Instruction.sources (instr : Instruction) : List (Fin numGPRegs) :=
  match instr.opCode with
  | .add | .addu | .and | .beq | .bne | .div | .divu | .mult | .multu | .nor
  | .or | .sb | .sh | .sllv | .slt | .sltu | .srav | .srlv | .sub | .subu | .sw
  | .swl | .swr | .xor =>
    [instr.rs, instr.rt]
  | .addi | .addiu | .andi | .bgez | .bgezal | .bgtz | .blez | .bltz | .bltzal
  | .jalr | .jr | .lb | .lbu | .lh | .lhu | .lw | .lwl | .lwr | .mthi | .mtlo
  | .ori | .slti | .sltiu | .xori =>
    [instr.rs]
  | .sll | .sra | .srl => [instr.rt]
  | _ => []

namespace Machine

/-- A register that both write with the same value is hidden no longer. -/
def without (hidden : Fin numTotalRegs → Prop)
    (written : Option (Fin numGPRegs)) (num : Fin numTotalRegs) : Prop :=
  hidden num ∧ num ∉ written.map gpr

def merged (machine : Machine) (rt : Fin numGPRegs) : Word :=
  if machine.registers loadReg = BitVec.ofNat 32 rt then
    machine.registers loadValueReg
  else
    machine.operand rt

def SameAnswer {Result : Type} (related : Machine → Machine → Prop)
    (left right : Result × Machine) : Prop :=
  left.1 = right.1 ∧ related left.2 right.2

/-- Machines that are related have the same registers, but for the hidden ones,
and stay related if both write a register or access memory. -/
structure Coupling
    (related : (Fin numTotalRegs → Prop) → Machine → Machine → Prop) :
    Prop where
  registers : ∀ {hidden left right}, related hidden left right →
    ∀ num, ¬hidden num → left.registers num = right.registers num
  mono : ∀ {hidden weaker : Fin numTotalRegs → Prop} {left right},
    related hidden left right → (∀ num, hidden num → weaker num) →
    related weaker left right
  set : ∀ {hidden left right}, related hidden left right → ∀ num value,
    related (fun other => hidden other ∧ other ≠ num) (left.set num value)
      (right.set num value)
  readMem : ∀ {hidden left right}, related hidden left right →
    ∀ addr {size}, size = 1 ∨ size = 2 ∨ size = 4 →
    Lockstep (SameAnswer (related hidden)) (left.readMem addr size)
      (right.readMem addr size)
  writeMem : ∀ {hidden left right}, related hidden left right →
    ∀ addr {size}, size = 1 ∨ size = 2 ∨ size = 4 → ∀ value,
    Lockstep (SameAnswer (related hidden)) (left.writeMem addr size value)
      (right.writeMem addr size value)

end Machine

/-- Two ways to leave the `switch` with related machines, and with the same
value of the delayed load if its register is among `known`. -/
inductive Outcome.Coupled
    (related : (Fin numTotalRegs → Prop) → Machine → Machine → Prop)
    (hidden : Fin numTotalRegs → Prop) (written : Option (Fin numGPRegs))
    (known : Fin numGPRegs → Prop) : Outcome → Outcome → Prop
  | completed {left right : Machine} {nextLoadReg : Fin numGPRegs}
      {first second pcAfter : Word} :
      related (Machine.without hidden written) left right →
      (known nextLoadReg → first = second) →
      Outcome.Coupled related hidden written known
        (.completed left nextLoadReg first pcAfter)
        (.completed right nextLoadReg second pcAfter)
  | raised {left right : Machine} {which : ExceptionType} {badVAddr : Word} :
      related hidden left right →
      Outcome.Coupled related hidden written known (.raised left which badVAddr)
        (.raised right which badVAddr)

namespace Machine

abbrev Alike
    (related : (Fin numTotalRegs → Prop) → Machine → Machine → Prop)
    (hidden : Fin numTotalRegs → Prop) (written : Option (Fin numGPRegs))
    (known : Fin numGPRegs → Prop) (first second : Except Fault Outcome) :
    Prop :=
  Lockstep (Outcome.Coupled related hidden written known) first second

structure Shows (hidden : Fin numTotalRegs → Prop) (instr : Instruction) :
    Prop where
  sources : ∀ num ∈ instr.sources, ¬hidden (gpr num)
  hi : ¬hidden hiReg
  lo : ¬hidden loReg
  nextPC : ¬hidden nextPCReg

/-- The instructions that set `NextPCReg` themselves. -/
def transfers : List OpCode :=
  [.beq, .bne, .bgez, .bgtz, .blez, .bltz, .bgezal, .bltzal, .j, .jal, .jr,
    .jalr]

/-- The instructions that read or write the main memory. -/
def accesses : List OpCode :=
  [.lb, .lbu, .lh, .lhu, .lw, .lwl, .lwr, .sb, .sh, .sw, .swl, .swr]

theorem registers_of_readMem
    {machine next : Machine} {addr : Word} {size : Nat}
    {result : Except ExceptionType Word}
    (performed : machine.readMem addr size = .ok (result, next)) :
    next.registers = machine.registers := by
  obtain ⟨⟨address, translation⟩, -, found⟩ := exists_of_bind_eq_ok performed
  cases address with
  | error exception =>
    cases found
    rfl
  | ok physicalAddress =>
    obtain ⟨value, -, found⟩ := exists_of_bind_eq_ok found
    cases found
    rfl

theorem merged_congr
    {machine next : Machine} (same : next.registers = machine.registers)
    (rt : Fin numGPRegs) : next.merged rt = machine.merged rt := by
  unfold merged Machine.operand
  rw [same]

namespace Coupling

variable {related : (Fin numTotalRegs → Prop) → Machine → Machine → Prop}
  {left right : Machine} {hidden : Fin numTotalRegs → Prop}
  {written : Option (Fin numGPRegs)} {known : Fin numGPRegs → Prop}
  {size : Nat} (coupling : Coupling related)

include coupling

theorem withoutNone (together : related hidden left right) :
    related (without hidden none) left right :=
  coupling.mono together fun _ isHidden => ⟨isHidden, nofun⟩

theorem setAny
    (together : related hidden left right) (num : Fin numTotalRegs)
    (value : Word) :
    related hidden (left.set num value) (right.set num value) :=
  coupling.mono (coupling.set together num value) fun _ isHidden => isHidden.1

theorem setGpr
    (together : related hidden left right) (num : Fin numGPRegs)
    (value : Word) :
    related (without hidden (some num)) (left.set (gpr num) value)
      (right.set (gpr num) value) := by
  refine coupling.mono (coupling.set together (gpr num) value) ?_
  rintro other ⟨isHidden, different⟩
  refine ⟨isHidden, ?_⟩
  rintro isWritten
  cases isWritten
  exact different rfl

theorem operand
    (together : related hidden left right) {num : Fin numGPRegs}
    (visible : ¬hidden (gpr num)) : right.operand num = left.operand num :=
  (coupling.registers together _ visible).symm

theorem following
    (together : related hidden left right) (visible : ¬hidden nextPCReg) :
    right.following = left.following := by
  unfold Machine.following
  rw [coupling.registers together _ visible]

theorem proceed
    (together : related (without hidden written) left right)
    (visible : ¬hidden nextPCReg) :
    Alike related hidden written known (.ok left.proceed)
      (.ok right.proceed) := by
  unfold Machine.proceed
  rw [coupling.following together fun isHidden => visible isHidden.1]
  exact .ok (.completed together fun _ => rfl)

theorem branch
    (together : related (without hidden written) left right)
    (visible : ¬hidden nextPCReg) (taken : Bool) (extra : Word) :
    Alike related hidden written known (.ok (left.branch taken extra))
      (.ok (right.branch taken extra)) := by
  unfold Machine.branch
  split
  · rw [coupling.registers together nextPCReg fun isHidden =>
      visible isHidden.1]
    exact .ok (.completed together fun _ => rfl)
  · exact coupling.proceed together visible

variable (together : related hidden left right) (visible : ¬hidden nextPCReg)

include together visible

theorem write (num : Fin numGPRegs) (value : Word) :
    Alike related hidden (some num) known (.ok (left.write num value))
      (.ok (right.write num value)) :=
  coupling.proceed (coupling.setGpr together num value) visible

theorem writeUnless
    (overflows : Bool) (num : Fin numGPRegs) (value : Word) :
    Alike related hidden (some num) known
      (.ok (left.writeUnless overflows num value))
      (.ok (right.writeUnless overflows num value)) := by
  unfold Machine.writeUnless
  split
  · exact .ok (.raised together)
  · exact coupling.write together visible num value

theorem link (num : Fin numGPRegs) :
    related (without hidden (some num)) (left.link num) (right.link num) := by
  unfold Machine.link
  rw [coupling.following together visible]
  exact coupling.setGpr together num _

theorem writeHiLo (hi lo : Word) :
    Alike related hidden none known (.ok (left.writeHiLo hi lo))
      (.ok (right.writeHiLo hi lo)) :=
  coupling.proceed (coupling.withoutNone
    (coupling.setAny (coupling.setAny together loReg lo) hiReg hi)) visible

theorem divide (rs rt : Word) :
    Alike related hidden none known (left.divide rs rt)
      (right.divide rs rt) := by
  unfold Machine.divide
  split_ifs
  · exact coupling.writeHiLo together visible 0 0
  · exact .error _
  · exact coupling.writeHiLo together visible _ _

theorem divideUnsigned (rs rt : Word) :
    Alike related hidden none known (.ok (left.divideUnsigned rs rt))
      (.ok (right.divideUnsigned rs rt)) := by
  unfold Machine.divideUnsigned
  split_ifs
  · exact coupling.writeHiLo together visible 0 0
  · exact coupling.writeHiLo together visible _ _

theorem load
    (rt : Fin numGPRegs) (addr : Word)
    (isSize : size = 1 ∨ size = 2 ∨ size = 4) (extend : Word → Word) :
    Alike related hidden none known (left.load rt addr size extend)
      (right.load rt addr size extend) := by
  refine Lockstep.bind (coupling.readMem together addr isSize) ?_
  rintro ⟨result, leftNext⟩ ⟨_, rightNext⟩ ⟨rfl, next⟩
  cases result with
  | error exception => exact .ok (.raised next)
  | ok value =>
    simp only [coupling.following next visible]
    exact .ok (.completed (coupling.withoutNone next) fun _ => rfl)

theorem loadPart
    {rt : Fin numGPRegs} (same : known rt → left.merged rt = right.merged rt)
    (addr : Word) (merge : Word → Word → Word → Word) :
    Alike related hidden none known (left.loadPart rt addr merge)
      (right.loadPart rt addr merge) := by
  refine Lockstep.bind
    (coupling.readMem together _ (Or.inr (Or.inr rfl))).results ?_
  rintro ⟨result, leftNext⟩ ⟨_, rightNext⟩ ⟨⟨rfl, next⟩, onLeft, onRight⟩
  cases result with
  | error exception => exact .ok (.raised next)
  | ok value =>
    simp only [coupling.following next visible]
    refine .ok (.completed (coupling.withoutNone next) fun isKnown => ?_)
    have merged := same isKnown
    rw [← merged_congr (registers_of_readMem onLeft),
      ← merged_congr (registers_of_readMem onRight)] at merged
    exact congrArg (merge _ · value) merged

theorem store
    (addr : Word) (isSize : size = 1 ∨ size = 2 ∨ size = 4) (value : Word) :
    Alike related hidden none known (left.store addr size value)
      (right.store addr size value) := by
  refine Lockstep.bind (coupling.writeMem together addr isSize value) ?_
  rintro ⟨result, leftNext⟩ ⟨_, rightNext⟩ ⟨rfl, next⟩
  cases result with
  | error exception => exact .ok (.raised next)
  | ok done => exact coupling.proceed (coupling.withoutNone next) visible

theorem storePart
    {rt : Fin numGPRegs} (rtVisible : ¬hidden (gpr rt)) (addr : Word)
    (merge : Word → Word → Word → Word) :
    Alike related hidden none known (left.storePart rt addr merge)
      (right.storePart rt addr merge) := by
  refine Lockstep.bind (coupling.readMem together _ (Or.inr (Or.inr rfl))) ?_
  rintro ⟨result, leftNext⟩ ⟨_, rightNext⟩ ⟨rfl, next⟩
  cases result with
  | error exception => exact .ok (.raised next)
  | ok value =>
    simp only [coupling.operand next rtVisible]
    exact coupling.store next visible _ (Or.inr (Or.inr rfl)) _

end Coupling

section Instructions

variable {related : (Fin numTotalRegs → Prop) → Machine → Machine → Prop}
  {left right : Machine} {hidden : Fin numTotalRegs → Prop}
  {known : Fin numGPRegs → Prop} {instr : Instruction}
  (coupling : Coupling related) (together : related hidden left right)
  (shows : Shows hidden instr)

include coupling together shows

theorem Coupling.source
    (num : Fin numGPRegs) (isSource : num ∈ instr.sources) :
    right.operand num = left.operand num :=
  coupling.operand together (shows.sources num isSource)

theorem Coupling.transfer (isTransfer : instr.opCode ∈ transfers) :
    Alike related hidden instr.destination known (left.execute instr)
      (right.execute instr) := by
  obtain ⟨opCode, rs, rt, rd, extra⟩ := instr
  dsimp only at isTransfer
  have nextPC := shows.nextPC
  have source := coupling.source together shows
  have plain := coupling.withoutNone together
  have linked := coupling.link together nextPC
  cases opCode with
  | beq | bne =>
    simp only [execute, source rs (.head _), source rt (.tail _ (.head _))]
    exact coupling.branch plain nextPC _ _
  | bgez | bgtz | blez | bltz =>
    simp only [execute, source rs (.head _)]
    exact coupling.branch plain nextPC _ _
  | bgezal | bltzal =>
    have rsSame := coupling.operand (linked r31) (fun isHidden =>
      shows.sources rs (.head _) isHidden.1)
    simp only [execute, rsSame]
    exact coupling.branch (linked r31) nextPC _ _
  | j =>
    simp only [execute, coupling.following together nextPC]
    exact .ok (.completed plain fun _ => rfl)
  | jal =>
    simp only [execute, coupling.following together nextPC]
    exact .ok (.completed (linked r31) fun _ => rfl)
  | jr =>
    simp only [execute, source rs (.head _)]
    exact .ok (.completed plain fun _ => rfl)
  | jalr =>
    have rsSame := coupling.operand (linked rd) (fun isHidden =>
      shows.sources rs (.head _) isHidden.1)
    simp only [execute, rsSame]
    exact .ok (.completed (linked rd) fun _ => rfl)
  | _ => exact absurd isTransfer (by decide)

theorem Coupling.access
    (same : ∀ rt, known rt → left.merged rt = right.merged rt)
    (isAccess : instr.opCode ∈ accesses) :
    Alike related hidden instr.destination known (left.execute instr)
      (right.execute instr) := by
  obtain ⟨opCode, rs, rt, rd, extra⟩ := instr
  dsimp only at isAccess
  have nextPC := shows.nextPC
  have source := coupling.source together shows
  cases opCode with
  | lb | lbu =>
    simp only [execute, source rs (.head _)]
    exact coupling.load together nextPC _ _ (Or.inl rfl) _
  | lh | lhu =>
    simp only [execute, source rs (.head _), loadHalf]
    split
    · exact .ok (.raised together)
    · exact coupling.load together nextPC _ _ (Or.inr (Or.inl rfl)) _
  | lw =>
    simp only [execute, source rs (.head _), loadWord]
    split
    · exact .ok (.raised together)
    · exact coupling.load together nextPC _ _ (Or.inr (Or.inr rfl)) _
  | lwl | lwr =>
    simp only [execute, source rs (.head _)]
    exact coupling.loadPart together nextPC (same rt) _ _
  | sb =>
    simp only [execute, source rs (.head _), source rt (.tail _ (.head _))]
    exact coupling.store together nextPC _ (Or.inl rfl) _
  | sh =>
    simp only [execute, source rs (.head _), source rt (.tail _ (.head _))]
    exact coupling.store together nextPC _ (Or.inr (Or.inl rfl)) _
  | sw =>
    simp only [execute, source rs (.head _), source rt (.tail _ (.head _))]
    exact coupling.store together nextPC _ (Or.inr (Or.inr rfl)) _
  | swl | swr =>
    simp only [execute, source rs (.head _)]
    exact coupling.storePart together nextPC
      (shows.sources rt (.tail _ (.head _))) _ _
  | _ => exact absurd isAccess (by decide)

/-- An instruction that reads no hidden register does the same on both
machines. -/
theorem Coupling.execute
    (same : ∀ rt, known rt → left.merged rt = right.merged rt) :
    Alike related hidden instr.destination known (left.execute instr)
      (right.execute instr) := by
  by_cases isTransfer : instr.opCode ∈ transfers
  · exact coupling.transfer together shows isTransfer
  by_cases isAccess : instr.opCode ∈ accesses
  · exact coupling.access together shows same isAccess
  obtain ⟨opCode, rs, rt, rd, extra⟩ := instr
  dsimp only at isTransfer isAccess
  have nextPC := shows.nextPC
  have source := coupling.source together shows
  cases opCode with
  | add | sub =>
    simp only [Machine.execute, source rs (.head _),
      source rt (.tail _ (.head _))]
    exact coupling.writeUnless together nextPC _ _ _
  | addu | and | nor | or | sllv | slt | sltu | srav | srlv | subu | xor =>
    simp only [Machine.execute, source rs (.head _),
      source rt (.tail _ (.head _))]
    exact coupling.write together nextPC _ _
  | addi =>
    simp only [Machine.execute, source rs (.head _)]
    exact coupling.writeUnless together nextPC _ _ _
  | addiu | andi | ori | slti | sltiu | xori =>
    simp only [Machine.execute, source rs (.head _)]
    exact coupling.write together nextPC _ _
  | sll | sra | srl =>
    simp only [Machine.execute, source rt (.head _)]
    exact coupling.write together nextPC _ _
  | lui => exact coupling.write together nextPC _ _
  | mfhi =>
    simp only [Machine.execute, coupling.registers together hiReg shows.hi]
    exact coupling.write together nextPC _ _
  | mflo =>
    simp only [Machine.execute, coupling.registers together loReg shows.lo]
    exact coupling.write together nextPC _ _
  | mthi | mtlo =>
    simp only [Machine.execute, source rs (.head _)]
    exact coupling.proceed (coupling.withoutNone
      (coupling.setAny together _ _)) nextPC
  | div =>
    simp only [Machine.execute, source rs (.head _),
      source rt (.tail _ (.head _))]
    exact coupling.divide together nextPC _ _
  | divu =>
    simp only [Machine.execute, source rs (.head _),
      source rt (.tail _ (.head _))]
    exact coupling.divideUnsigned together nextPC _ _
  | mult | multu =>
    simp only [Machine.execute, source rs (.head _),
      source rt (.tail _ (.head _))]
    exact coupling.writeHiLo together nextPC _ _
  | beq | bne | bgez | bgtz | blez | bltz | bgezal | bltzal | j | jal | jr
  | jalr =>
    exact absurd (by decide) isTransfer
  | lb | lbu | lh | lhu | lw | lwl | lwr | sb | sh | sw | swl | swr =>
    exact absurd (by decide) isAccess
  | syscall | res | unimp => exact .ok (.raised together)
  | rfe | special | bcond => exact .error _

end Instructions

section Next

variable {related : (Fin numTotalRegs → Prop) → Machine → Machine → Prop}
  {left right : Machine} {hidden : Fin numTotalRegs → Prop}
  (coupling : Coupling related) (together : related hidden left right)
  (pcVisible : ¬hidden pcReg)

include coupling together pcVisible

theorem Coupling.nextInstruction_eq :
    right.nextInstruction = left.nextInstruction := by
  have fetched := coupling.readMem together (left.registers pcReg)
    (Or.inr (Or.inr rfl))
  unfold nextInstruction
  rw [← coupling.registers together pcReg pcVisible]
  generalize left.readMem (left.registers pcReg) 4 = first at fetched ⊢
  generalize right.readMem (left.registers pcReg) 4 = second at fetched ⊢
  cases fetched with
  | error fault => rfl
  | @ok leftPair rightPair same =>
    obtain ⟨raw, leftNext⟩ := leftPair
    obtain ⟨_, rightNext⟩ := rightPair
    obtain ⟨rfl, -⟩ := same
    cases raw <;> rfl

/-- The next instruction does the same on both machines, fetch included. -/
theorem Coupling.nextOutcome
    {known : Fin numGPRegs → Prop}
    (shows : ∀ instr ∈ left.nextInstruction, Shows hidden instr)
    (same : ∀ rt, known rt → left.merged rt = right.merged rt) :
    Alike related hidden left.nextWritten known left.nextOutcome
      right.nextOutcome := by
  unfold Machine.nextOutcome
  rw [← coupling.registers together pcReg pcVisible]
  refine Lockstep.bind
    (coupling.readMem together _ (Or.inr (Or.inr rfl))).results ?_
  rintro ⟨raw, leftNext⟩ ⟨_, rightNext⟩ ⟨⟨rfl, next⟩, onLeft, onRight⟩
  cases raw with
  | error exception => exact .ok (.raised next)
  | ok value =>
    have isNext : left.nextInstruction = some (Instruction.decode value) := by
      unfold nextInstruction
      rw [onLeft]
    unfold nextWritten
    rw [isNext]
    refine coupling.execute next (shows _ isNext) ?_
    intro rt isKnown
    rw [merged_congr (registers_of_readMem onLeft),
      merged_congr (registers_of_readMem onRight)]
    exact same rt isKnown

end Next

/-! ## Machines with the same memory -/

variable {left right : Machine} {hidden : Fin numTotalRegs → Prop}

/-- Two machines that differ in hidden registers at most. -/
structure Agree (hidden : Fin numTotalRegs → Prop) (left right : Machine) :
    Prop where
  registers : ∀ num, ¬hidden num → left.registers num = right.registers num
  memory : left.mainMemory = right.mainMemory
  translation : left.translation = right.translation

theorem Agree.refl (machine : Machine) : machine.Agree hidden machine :=
  ⟨fun _ _ => rfl, rfl, rfl⟩

theorem Agree.mono
    {weaker : Fin numTotalRegs → Prop} (agree : left.Agree hidden right)
    (implied : ∀ num, hidden num → weaker num) : left.Agree weaker right :=
  ⟨fun num visible => agree.registers num fun isHidden =>
    visible (implied num isHidden), agree.memory, agree.translation⟩

theorem agreement : Coupling Agree where
  registers agree := agree.registers
  mono agree := agree.mono
  set := by
    intro hidden left right agree num value
    refine ⟨?_, agree.memory, agree.translation⟩
    intro other visible
    by_cases same : other = num
    · rw [same, set_self, set_self]
    · rw [set_of_ne _ same, set_of_ne _ same]
      exact agree.registers other fun isHidden => visible ⟨isHidden, same⟩
  readMem := by
    intro hidden left right agree addr size _
    unfold Machine.readMem
    rw [agree.memory, agree.translation]
    refine Lockstep.bind (Lockstep.same _) ?_
    rintro ⟨address, touched⟩ _ rfl
    cases address with
    | error exception => exact .ok ⟨rfl, agree.registers, rfl, rfl⟩
    | ok physicalAddress =>
      refine Lockstep.bind (Lockstep.same _) ?_
      rintro value _ rfl
      exact .ok ⟨rfl, agree.registers, rfl, rfl⟩
  writeMem := by
    intro hidden left right agree addr size _ value
    unfold Machine.writeMem
    rw [agree.memory, agree.translation]
    refine Lockstep.bind (Lockstep.same _) ?_
    rintro ⟨address, touched⟩ _ rfl
    cases address with
    | error exception => exact .ok ⟨rfl, agree.registers, rfl, rfl⟩
    | ok physicalAddress =>
      refine Lockstep.bind (Lockstep.same _) ?_
      rintro bytes _ rfl
      exact .ok ⟨rfl, agree.registers, rfl, rfl⟩

/-! ## The delayed loads of two machines -/

theorem eq_gpr_or_special (num : Fin numTotalRegs) :
    (∃ general, num = gpr general) ∨ numGPRegs ≤ num.val := by
  by_cases below : num.val < numGPRegs
  · exact Or.inl ⟨⟨num.val, below⟩, rfl⟩
  · exact Or.inr (Nat.le_of_not_lt below)

theorem Agree.eq (agree : left.Agree (fun _ => False) right) : left = right := by
  obtain ⟨registers, memory, translation⟩ := left
  have sameRegisters : registers = right.registers :=
    funext fun num => agree.registers num not_false
  have sameMemory : memory = right.mainMemory := agree.memory
  have sameTranslation : translation = right.translation := agree.translation
  rw [sameRegisters, sameMemory, sameTranslation]

/-- The value that a general register has once the delayed load is done. -/
def settled (machine : Machine) (target num : Fin numGPRegs) : Word :=
  if num = target then machine.registers loadValueReg
  else machine.registers (gpr num)

/-- After the delayed loads two machines differ in the value of the next
delayed load at most. -/
theorem Agree.loaded
    (agree : left.Agree hidden right) {first second : Fin numGPRegs}
    (general : ∀ num, num ≠ r0 → left.settled first num = right.settled second num)
    (special : ∀ num : Fin numTotalRegs, numGPRegs ≤ num.val → num ≠ loadReg →
      num ≠ loadValueReg → ¬hidden num)
    (nextReg : Fin numGPRegs) (leftValue rightValue : Word) :
    (left.loaded first nextReg leftValue).Agree
      (fun num => num = loadValueReg ∧ leftValue ≠ rightValue)
      (right.loaded second nextReg rightValue) where
  registers := by
    intro num visible
    rcases eq_gpr_or_special num with ⟨num, rfl⟩ | isSpecial
    · by_cases isZero : num = r0
      · rw [isZero, loaded_zero, loaded_zero]
      · rw [loaded_general _ _ isZero, loaded_general _ _ isZero]
        exact general num isZero
    · by_cases isLoadReg : num = loadReg
      · rw [isLoadReg]
        exact (loaded_pendingFor ..).trans (loaded_pendingFor ..).symm
      · by_cases isLoadValueReg : num = loadValueReg
        · have same : leftValue = rightValue := by
            by_contra different
            exact visible ⟨isLoadValueReg, different⟩
          rw [isLoadValueReg, loaded_loadValueReg, loaded_loadValueReg, same]
        · rw [loaded_special _ _ isSpecial isLoadReg isLoadValueReg,
            loaded_special _ _ isSpecial isLoadReg isLoadValueReg]
          exact agree.registers num
            (special num isSpecial isLoadReg isLoadValueReg)
  memory := agree.memory
  translation := agree.translation

theorem Agree.advance
    (agree : left.Agree hidden right) (pcVisible : ¬hidden pcReg)
    (nextPCVisible : ¬hidden nextPCReg) (pcAfter : Word) :
    (left.advance pcAfter).Agree hidden (right.advance pcAfter) := by
  unfold Machine.advance
  rw [agree.registers pcReg pcVisible, agree.registers nextPCReg nextPCVisible]
  exact agreement.setAny (agreement.setAny (agreement.setAny agree _ _) _ _) _ _

end Machine

end Nachos
