import Nachos.Machine.CpuAgreement

/-!
# Interrupts and load delay slots

`CheckIfDue` does `DelayedLoad(0, 0)` before it calls an interrupt handler, so
an interrupt between two instructions brings a pending load forward.
-/

namespace Nachos

open Foundation

namespace Machine

/-! ## One instruction after an interrupt -/

/-- What is different right after `DelayedLoad(0, 0)`. -/
def ofPending (target : Fin numGPRegs) (num : Fin numTotalRegs) : Prop :=
  num = gpr target ∨ num = loadReg ∨ num = loadValueReg

theorem not_ofPending
    (target : Fin numGPRegs) {num : Fin numTotalRegs}
    (special : numGPRegs ≤ num.val) (notLoadReg : num ≠ loadReg)
    (notLoadValueReg : num ≠ loadValueReg) : ¬ofPending target num := by
  rintro (rfl | isLoadReg | isLoadValueReg)
  · exact gpr_ne target special rfl
  · exact notLoadReg isLoadReg
  · exact notLoadValueReg isLoadValueReg

variable {machine : Machine} {target : Fin numGPRegs}

theorem shows_ofPending
    {instr : Instruction} (notSource : target ∉ instr.sources) :
    Shows (ofPending target) instr where
  sources := by
    rintro num isSource (same | isLoadReg | isLoadValueReg)
    · exact notSource (gpr_injective same ▸ isSource)
    · exact gpr_ne num (by decide) isLoadReg
    · exact gpr_ne num (by decide) isLoadValueReg
  hi := not_ofPending target (by decide) (by decide) (by decide)
  lo := not_ofPending target (by decide) (by decide) (by decide)
  nextPC := not_ofPending target (by decide) (by decide) (by decide)

theorem agree_flushed (sound : machine.Sound) :
    machine.Agree (ofPending target) (machine.loaded target r0 0) where
  registers := by
    intro num visible
    rcases eq_gpr_or_special num with ⟨num, rfl⟩ | isSpecial
    · by_cases isZero : num = r0
      · rw [isZero, loaded_zero]
        exact sound.zero
      · rw [loaded_general _ _ isZero, if_neg]
        rintro rfl
        exact visible (Or.inl rfl)
    · refine (loaded_special _ _ isSpecial ?_ ?_).symm
      · exact fun isLoadReg => visible (Or.inr (Or.inl isLoadReg))
      · exact fun isLoadValueReg => visible (Or.inr (Or.inr isLoadValueReg))
  memory := rfl
  translation := rfl

theorem merged_eq (pending : machine.PendingFor target) (rt : Fin numGPRegs) :
    machine.merged rt = machine.settled target rt := by
  unfold merged settled
  have condition :
      machine.registers loadReg = BitVec.ofNat 32 rt ↔ rt = target := by
    rw [show machine.registers loadReg = BitVec.ofNat 32 target from pending]
    constructor
    · intro same
      have toNat := congrArg BitVec.toNat same
      rw [toNat_ofNat_gpr, toNat_ofNat_gpr] at toNat
      exact Fin.ext toNat.symm
    · rintro rfl
      rfl
  simp only [condition]
  rfl

theorem merged_flushed
    (sound : machine.Sound) (pending : machine.PendingFor target)
    (notZero : target ≠ r0) (rt : Fin numGPRegs) :
    machine.merged rt = (machine.loaded target r0 0).merged rt := by
  rw [merged_eq pending, merged_eq (loaded_pendingFor r0 0)]
  unfold settled
  by_cases isZero : rt = r0
  · rw [if_neg (isZero.trans_ne notZero.symm), if_pos isZero,
      loaded_loadValueReg, isZero]
    exact sound.zero
  · rw [if_neg isZero, loaded_general _ _ isZero]

end Machine

def Outcome.Clobbers (machine : Machine) (target : Fin numGPRegs)
    (written : Option (Fin numGPRegs)) : Outcome → Prop
  | .completed next _ _ _ => written = some target ∧
      next.registers (gpr target) ≠ machine.registers loadValueReg
  | .raised _ _ _ => False

namespace Machine

variable {machine : Machine} {target : Fin numGPRegs}
  {written : Option (Fin numGPRegs)}

theorem settled_flushed
    {left right : Machine} (keepsLeft : machine.Keeps written left)
    (keepsRight : (machine.loaded target r0 0).Keeps written right)
    (agree : left.Agree (without (ofPending target) written) right)
    (notZero : target ≠ r0)
    (notClobbers : ¬(written = some target ∧
      left.registers (gpr target) ≠ machine.registers loadValueReg))
    {num : Fin numGPRegs} (numNotZero : num ≠ r0) :
    left.settled target num = right.settled r0 num := by
  unfold settled
  rw [if_neg numNotZero]
  split_ifs with isTarget
  · rw [isTarget, keepsLeft.control (by decide)]
    by_cases isWritten : written = some target
    · have same : left.registers (gpr target) = machine.registers loadValueReg := by
        by_contra different
        exact notClobbers ⟨isWritten, different⟩
      rw [← same]
      refine agree.registers _ fun isHidden => isHidden.2 ?_
      rw [isWritten]
      rfl
    · rw [keepsRight.others (gpr target) (gpr_ne target (by decide))
        (gpr_ne target (by decide)), loaded_general _ _ notZero, if_pos rfl]
      intro isMapped
      obtain ⟨other, isOther, same⟩ := Option.map_eq_some_iff.mp isMapped
      exact isWritten (isOther.trans (congrArg some (gpr_injective same)))
  · refine agree.registers _ fun isHidden => ?_
    rcases isHidden.1 with same | isLoadReg | isLoadValueReg
    · exact isTarget (gpr_injective same)
    · exact gpr_ne num (by decide) isLoadReg
    · exact gpr_ne num (by decide) isLoadValueReg

theorem settled_raised
    {left right : Machine} (untouchedLeft : machine.Untouched left)
    (untouchedRight : (machine.loaded target r0 0).Untouched right)
    (badVAddr : Word) {num : Fin numGPRegs} (notZero : num ≠ r0) :
    (left.set badVAddrReg badVAddr).settled target num =
      (right.set badVAddrReg badVAddr).settled r0 num := by
  unfold settled
  have notBadVAddr : gpr num ≠ badVAddrReg := gpr_ne num (by decide)
  rw [if_neg notZero, set_of_ne _ (by decide), set_of_ne _ notBadVAddr,
    set_of_ne _ notBadVAddr, untouchedLeft.registers, untouchedRight.registers,
    loaded_general _ _ notZero]

/-- If the pending load is not clobbered, the interrupt makes no difference at
the end of the instruction. -/
theorem finish_flushed
    (pending : machine.PendingFor target) (notZero : target ≠ r0)
    {first second : Outcome} (firstSound : first.Sound machine written)
    (secondSound : second.Sound (machine.loaded target r0 0) written)
    (agree : first.Coupled Agree (ofPending target) written (fun _ => True)
      second)
    (notClobbers : ¬first.Clobbers machine target written) :
    finish second = finish first := by
  cases agree with
  | @completed left right nextLoadReg _ value pcAfter machines values =>
    rw [values trivial,
      finish_completed (Keeps.pendingFor firstSound pending),
      finish_completed (Keeps.pendingFor secondSound (loaded_pendingFor r0 0))]
    have settled := fun num isNum =>
      @settled_flushed _ _ _ _ _ firstSound secondSound machines notZero
        notClobbers num isNum
    have loads := machines.loaded settled (fun num special notLoadReg
      notLoadValueReg isHidden =>
        not_ofPending target special notLoadReg notLoadValueReg isHidden.1)
      nextLoadReg value value
    have same := ((loads.mono fun _ isHidden => isHidden.2 rfl).advance id id
      pcAfter).eq
    rw [same]
  | @raised left right which badVAddr machines =>
    rw [finish_raised (Untouched.pendingFor firstSound pending),
      finish_raised (Untouched.pendingFor secondSound (loaded_pendingFor r0 0))]
    have settled := fun num isNum =>
      @settled_raised _ _ _ _ firstSound secondSound badVAddr num isNum
    have loads := (agreement.setAny machines badVAddrReg badVAddr).loaded settled
      (fun num special notLoadReg notLoadValueReg =>
        not_ofPending target special notLoadReg notLoadValueReg) r0 0 0
    have same := (loads.mono fun _ isHidden => isHidden.2 rfl).eq
    rw [same]

def SameState (left right : Machine) : Prop :=
  (∀ num, num ≠ badVAddrReg → left.registers num = right.registers num) ∧
    left.mainMemory = right.mainMemory

def SameResult :
    Except Fault (Machine × Option ExceptionType) →
    Except Fault (Machine × Option ExceptionType) → Prop
  | .ok (left, first), .ok (right, second) =>
    first = second ∧ left.SameState right
  | .error first, .error second => first = second
  | _, _ => False

theorem SameResult.refl
    (result : Except Fault (Machine × Option ExceptionType)) :
    SameResult result result := by
  rcases result with fault | ⟨machine, exception⟩
  · exact rfl
  · exact ⟨rfl, fun _ _ => rfl, rfl⟩

/-- If it is clobbered, the target of the load shows the difference. -/
theorem not_sameResult_of_clobbers
    (pending : machine.PendingFor target) (notZero : target ≠ r0)
    {first second : Outcome} (firstSound : first.Sound machine written)
    (secondSound : second.Sound (machine.loaded target r0 0) written)
    (agree : first.Coupled Agree (ofPending target) written (fun _ => True)
      second)
    (clobbers : first.Clobbers machine target written) :
    ¬SameResult (finish second) (finish first) := by
  cases agree with
  | completed machines values =>
    rw [finish_completed (Keeps.pendingFor firstSound pending),
      finish_completed (Keeps.pendingFor secondSound (loaded_pendingFor r0 0))]
    rintro ⟨-, registers, -⟩
    have same := registers (gpr target) (gpr_ne target (by decide))
    rw [advance_general, advance_general, loaded_general _ _ notZero,
      loaded_general _ _ notZero, if_neg notZero, if_pos rfl,
      Keeps.control firstSound (by decide)] at same
    refine clobbers.2 (Eq.trans ?_ same)
    refine machines.registers _ fun isHidden => isHidden.2 ?_
    rw [clobbers.1]
    rfl
  | raised _ => exact clobbers.elim

/-- The next instruction does not use `target` as a source operand. -/
def Avoids (machine : Machine) (target : Fin numGPRegs) : Prop :=
  ∀ instr ∈ machine.nextInstruction, target ∉ instr.sources

/-- The next instruction does not write `target` at once. -/
def Spares (machine : Machine) (target : Fin numGPRegs) : Prop :=
  ∀ instr ∈ machine.nextInstruction, instr.destination ≠ some target

def Clobbers (machine : Machine) (target : Fin numGPRegs) : Prop :=
  ∃ outcome, machine.nextOutcome = .ok outcome ∧
    outcome.Clobbers machine target machine.nextWritten

theorem Executes.sound
    {outcome : Outcome} (executes : machine.Executes written (.ok outcome)) :
    outcome.Sound machine written := by
  rcases executes with ⟨other, same, sound⟩ | trapped
  · cases same
    exact sound
  · cases trapped

/-- Without and with an interrupt before it, the next instruction meets the
same fault, or leaves the `switch` in ways that agree. -/
theorem nextOutcome_flushed
    (sound : machine.Sound) (pending : machine.PendingFor target)
    (notZero : target ≠ r0) (avoids : machine.Avoids target) :
    (∃ fault, machine.nextOutcome = .error fault ∧
      (machine.loaded target r0 0).nextOutcome = .error fault) ∨
    ∃ first second, machine.nextOutcome = .ok first ∧
      (machine.loaded target r0 0).nextOutcome = .ok second ∧
      first.Sound machine machine.nextWritten ∧
      second.Sound (machine.loaded target r0 0) machine.nextWritten ∧
      first.Coupled Agree (ofPending target) machine.nextWritten
        (fun _ => True) second := by
  have agree := @agree_flushed machine target sound
  have pcVisible : ¬ofPending target pcReg :=
    not_ofPending target (by decide) (by decide) (by decide)
  have alike := agreement.nextOutcome agree pcVisible
    (fun instr isNext => shows_ofPending (avoids instr isNext))
    (fun rt (_ : True) => merged_flushed sound pending notZero rt)
  have sameWritten :
      (machine.loaded target r0 0).nextWritten = machine.nextWritten := by
    unfold nextWritten
    rw [agreement.nextInstruction_eq agree pcVisible]
  have direct := executes_nextOutcome sound.ready
  have flushed := @executes_nextOutcome (machine.loaded target r0 0) sound.ready
  rw [sameWritten] at flushed
  generalize machine.nextOutcome = firstResult at alike direct ⊢
  generalize (machine.loaded target r0 0).nextOutcome = secondResult
    at alike flushed ⊢
  cases alike with
  | ok agreeing =>
    exact Or.inr ⟨_, _, rfl, rfl, direct.sound, flushed.sound, agreeing⟩
  | error fault => exact Or.inl ⟨fault, rfl, rfl⟩

theorem oneInstruction_flushed
    (sound : machine.Sound) (pending : machine.PendingFor target)
    (notZero : target ≠ r0) (avoids : machine.Avoids target)
    (notClobbers : ¬machine.Clobbers target) :
    (machine.loaded target r0 0).oneInstruction = machine.oneInstruction := by
  rw [oneInstruction_eq, oneInstruction_eq]
  rcases nextOutcome_flushed sound pending notZero avoids with
    ⟨fault, direct, flushed⟩ |
    ⟨first, second, direct, flushed, firstSound, secondSound, agree⟩
  · rw [direct, flushed]
  · rw [direct, flushed]
    exact finish_flushed pending notZero firstSound secondSound agree
      fun isClobbered => notClobbers ⟨first, direct, isClobbered⟩

theorem sameResult_flushed_iff
    (sound : machine.Sound) (pending : machine.PendingFor target)
    (notZero : target ≠ r0) (avoids : machine.Avoids target) :
    SameResult (machine.loaded target r0 0).oneInstruction
      machine.oneInstruction ↔ ¬machine.Clobbers target := by
  constructor
  · rintro same ⟨outcome, isOutcome, isClobbered⟩
    rw [oneInstruction_eq, oneInstruction_eq] at same
    rcases nextOutcome_flushed sound pending notZero avoids with
      ⟨fault, direct, -⟩ |
      ⟨first, second, direct, flushed, firstSound, secondSound, agree⟩
    · cases direct.symm.trans isOutcome
    · rw [direct, flushed] at same
      cases direct.symm.trans isOutcome
      exact not_sameResult_of_clobbers pending notZero firstSound secondSound
        agree isClobbered same
  · intro notClobbers
    rw [oneInstruction_flushed sound pending notZero avoids notClobbers]
    exact SameResult.refl _

theorem not_clobbers_of_spares
    (spares : machine.Spares target) : ¬machine.Clobbers target := by
  rintro ⟨outcome, _, clobbers⟩
  cases outcome with
  | completed =>
    obtain ⟨instr, isNext, isWritten⟩ := Option.bind_eq_some_iff.mp clobbers.1
    exact spares instr isNext isWritten
  | raised => exact clobbers

theorem PendingFor.set_loadValueReg
    (pending : machine.PendingFor target) (value : Word) :
    (machine.set loadValueReg value).PendingFor target :=
  (set_of_ne machine (by decide) value).trans pending

theorem nextOutcome_of_completes
    (sound : machine.Sound) {next : Machine}
    (completes : machine.oneInstruction = .ok (next, none)) :
    ∃ left nextLoadReg nextLoadValue pcAfter,
      machine.nextOutcome =
        .ok (.completed left nextLoadReg nextLoadValue pcAfter) := by
  obtain ⟨target, pending⟩ := sound.pending
  rw [oneInstruction_eq] at completes
  rcases executes_nextOutcome sound.ready with
    ⟨outcome, executed, outcomeSound⟩ | trapped
  · rw [executed] at completes ⊢
    cases outcome with
    | completed left nextLoadReg nextLoadValue pcAfter =>
      exact ⟨left, nextLoadReg, nextLoadValue, pcAfter, rfl⟩
    | raised left which badVAddr =>
      rw [ok_bind, finish_raised (Untouched.pendingFor outcomeSound pending)]
        at completes
      cases completes
  · rw [trapped] at completes
    cases completes

/-- An instruction that writes the target of the load shows the interrupt, but
for one value of the load at most: what it writes does not depend on that
value. -/
theorem exists_hidden_value
    (sound : machine.Sound) (pending : machine.PendingFor target)
    (notZero : target ≠ r0) (avoids : machine.Avoids target)
    (writes : ¬machine.Spares target)
    {next : Machine} (completes : machine.oneInstruction = .ok (next, none)) :
    ∃ written, ∀ value, value ≠ written →
      ¬SameResult
        ((machine.set loadValueReg value).loaded target r0 0).oneInstruction
        (machine.set loadValueReg value).oneInstruction := by
  have isWritten : machine.nextWritten = some target := by
    unfold Spares at writes
    push Not at writes
    exact Option.bind_eq_some_iff.mpr writes
  obtain ⟨left, nextLoadReg, nextLoadValue, pcAfter, executed⟩ :=
    nextOutcome_of_completes sound completes
  refine ⟨left.registers (gpr target), fun value different same => ?_⟩
  have agree :
      machine.Agree (· = loadValueReg) (machine.set loadValueReg value) :=
    ⟨fun num visible => (set_of_ne _ visible _).symm, rfl, rfl⟩
  have nextPending := pending.set_loadValueReg value
  have nextSound : (machine.set loadValueReg value).Sound :=
    ⟨(set_of_ne _ (by decide) _).trans sound.zero, ⟨target, nextPending⟩,
      sound.ready⟩
  have merged : ∀ rt, rt ≠ target →
      machine.merged rt = (machine.set loadValueReg value).merged rt := by
    intro rt other
    rw [merged_eq pending, merged_eq nextPending]
    unfold settled
    rw [if_neg other, if_neg other, set_of_ne _ (gpr_ne rt (by decide))]
  have alike := agreement.nextOutcome agree (by decide)
    (fun instr _ => ⟨fun num _ => gpr_ne num (by decide), by decide, by decide,
      by decide⟩) merged
  have sameNext := agreement.nextInstruction_eq agree (by decide)
  rw [executed] at alike
  generalize isOutcome : (machine.set loadValueReg value).nextOutcome = outcome
    at alike
  cases alike with
  | ok agreeing =>
    cases agreeing with
    | completed machines values =>
      have nextAvoids : (machine.set loadValueReg value).Avoids target := by
        unfold Avoids
        rw [sameNext]
        exact avoids
      have nextWrites :
          (machine.set loadValueReg value).nextWritten = some target := by
        unfold nextWritten
        rw [sameNext]
        exact isWritten
      refine (sameResult_flushed_iff nextSound nextPending notZero
        nextAvoids).mp same ⟨_, isOutcome, nextWrites, ?_⟩
      rw [← machines.registers (gpr target)
        (fun isHidden => gpr_ne target (by decide) isHidden.1), set_self]
      exact different.symm

/-! ## Whole runs -/

/-- The machines do not differ, but for the value of a delayed load for
register 0. -/
def Matches (left right : Machine) : Prop :=
  left.Agree (fun num => num = loadValueReg ∧ left.PendingFor r0) right

inductive MatchingResult :
    Except Fault (Machine × Option ExceptionType) →
    Except Fault (Machine × Option ExceptionType) → Prop
  | ok {left right : Machine} (exception : Option ExceptionType) :
      left.Matches right →
      MatchingResult (.ok (left, exception)) (.ok (right, exception))
  | error (fault : Fault) : MatchingResult (.error fault) (.error fault)

theorem Matches.refl (machine : Machine) : machine.Matches machine :=
  Agree.refl machine

theorem MatchingResult.refl
    (result : Except Fault (Machine × Option ExceptionType)) :
    MatchingResult result result := by
  rcases result with fault | ⟨machine, exception⟩
  · exact .error fault
  · exact .ok exception (Matches.refl machine)

theorem matches_finish
    {left right : Machine} (leftPending : left.PendingFor r0)
    (rightPending : right.PendingFor r0) {first second : Outcome}
    (firstSound : first.Sound left written)
    (secondSound : second.Sound right written)
    (agree : first.Coupled Agree (· = loadValueReg) written (· ≠ r0) second) :
    MatchingResult (finish first) (finish second) := by
  cases agree with
  | @completed leftNext rightNext nextLoadReg leftValue rightValue pcAfter
      machines values =>
    rw [finish_completed (Keeps.pendingFor firstSound leftPending),
      finish_completed (Keeps.pendingFor secondSound rightPending)]
    have settled : ∀ num, num ≠ r0 →
        leftNext.settled r0 num = rightNext.settled r0 num := by
      intro num notZero
      unfold Machine.settled
      rw [if_neg notZero, if_neg notZero]
      exact machines.registers _ fun isHidden =>
        gpr_ne num (by decide) isHidden.1
    have loads := machines.loaded settled
      (fun _ _ _ notLoadValueReg isHidden => notLoadValueReg isHidden.1)
      nextLoadReg leftValue rightValue
    refine .ok none ((loads.advance ?_ ?_ pcAfter).mono ?_)
    · exact fun isHidden => absurd isHidden.1 (by decide)
    · exact fun isHidden => absurd isHidden.1 (by decide)
    · rintro num ⟨isLoadValueReg, different⟩
      refine ⟨isLoadValueReg, ?_⟩
      have isZero : nextLoadReg = r0 := by
        by_contra notZero
        exact different (values notZero)
      rw [isZero]
      exact (advance_of_ne pcAfter (by decide) (by decide)
        (by decide)).trans (loaded_pendingFor r0 _)
  | @raised leftNext rightNext which badVAddr machines =>
    rw [finish_raised (Untouched.pendingFor firstSound leftPending),
      finish_raised (Untouched.pendingFor secondSound rightPending)]
    have both := agreement.setAny machines badVAddrReg badVAddr
    have settled : ∀ num, num ≠ r0 →
        (leftNext.set badVAddrReg badVAddr).settled r0 num =
          (rightNext.set badVAddrReg badVAddr).settled r0 num := by
      intro num notZero
      unfold Machine.settled
      rw [if_neg notZero, if_neg notZero]
      exact both.registers _ (gpr_ne num (by decide))
    have loads := both.loaded settled
      (fun _ _ _ notLoadValueReg => notLoadValueReg) r0 0 0
    exact .ok (some which) (loads.mono fun _ isHidden =>
      (isHidden.2 rfl).elim)

/-- Machines that match still do after the next instruction. -/
theorem Matches.oneInstruction
    {left right : Machine} (matching : left.Matches right) (sound : left.Sound) :
    MatchingResult left.oneInstruction right.oneInstruction := by
  by_cases pending : left.PendingFor r0
  · have agree : left.Agree (· = loadValueReg) right :=
      matching.mono fun _ isHidden => isHidden.1
    have rightPending : right.PendingFor r0 :=
      (agree.registers loadReg (by decide)).symm.trans pending
    have merged : ∀ rt, rt ≠ r0 → left.merged rt = right.merged rt := by
      intro rt notZero
      rw [merged_eq pending, merged_eq rightPending]
      unfold settled
      rw [if_neg notZero, if_neg notZero]
      exact agree.registers _ (gpr_ne rt (by decide))
    have shows : ∀ instr ∈ left.nextInstruction, Shows (· = loadValueReg) instr :=
      fun instr _ => ⟨fun num _ => gpr_ne num (by decide), by decide, by decide,
        by decide⟩
    have alike := agreement.nextOutcome agree (by decide) shows merged
    have sameWritten : right.nextWritten = left.nextWritten := by
      unfold nextWritten
      rw [agreement.nextInstruction_eq agree (by decide)]
    have leftExecutes := executes_nextOutcome sound.ready
    have rightExecutes := @executes_nextOutcome right
      (agree.translation ▸ sound.ready)
    rw [sameWritten] at rightExecutes
    rw [oneInstruction_eq, oneInstruction_eq]
    generalize left.nextOutcome = firstResult at alike leftExecutes ⊢
    generalize right.nextOutcome = secondResult at alike rightExecutes ⊢
    cases alike with
    | ok agreeing =>
      exact matches_finish pending rightPending leftExecutes.sound
        rightExecutes.sound agreeing
    | error fault => exact .error fault
  · have same : left = right :=
      (matching.mono fun _ isHidden => pending isHidden.2).eq
    rw [same]
    exact MatchingResult.refl _

theorem Matches.flushed
    {left right : Machine} (matching : left.Matches right) (sound : left.Sound)
    (pending : left.PendingFor r0) : left.Matches (right.loaded r0 r0 0) where
  registers := by
    intro num visible
    have same := matching.registers num visible
    rcases eq_gpr_or_special num with ⟨num, rfl⟩ | isSpecial
    · by_cases isZero : num = r0
      · rw [isZero, loaded_zero]
        exact sound.zero
      · rw [loaded_general _ _ isZero, if_neg isZero]
        exact same
    · by_cases isLoadReg : num = loadReg
      · rw [isLoadReg]
        exact pending.trans (loaded_pendingFor ..).symm
      · rw [loaded_special _ _ isSpecial isLoadReg fun isLoadValueReg =>
          visible ⟨isLoadValueReg, pending⟩]
        exact same
  memory := matching.memory
  translation := matching.translation

def interruptedIf (machine : Machine) (interrupted : Bool) :
    Except Fault Machine :=
  if interrupted then machine.delayedLoad r0 0 else .ok machine

/-- `Machine::Run` up to the first exception, with an interrupt before each
instruction that is marked. -/
def runInterrupted : List Bool → Machine →
    Except Fault (Machine × Option ExceptionType)
  | [], machine => .ok (machine, none)
  | interrupted :: rest, machine => do
    let entered ← machine.interruptedIf interrupted
    let (next, exception) ← entered.oneInstruction
    match exception with
    | some which => return (next, some which)
    | none => runInterrupted rest next

/-- The program respects load delay slots for a number of instructions: the
instruction behind a load neither reads nor writes its target. -/
def Respects : Nat → Machine → Prop
  | 0, _ => True
  | count + 1, machine =>
    (∀ target, machine.PendingFor target → target ≠ r0 →
      machine.Avoids target ∧ machine.Spares target) ∧
    ∀ next, machine.oneInstruction = .ok (next, none) → Respects count next

/-- One instruction of a program that respects load delay slots, with or without
an interrupt before it. -/
theorem Matches.interrupted
    {left right : Machine} (matching : left.Matches right) (sound : left.Sound)
    (respects : ∀ target, left.PendingFor target → target ≠ r0 →
      left.Avoids target ∧ left.Spares target) :
    ∃ entered, right.delayedLoad r0 0 = .ok entered ∧
      MatchingResult left.oneInstruction entered.oneInstruction := by
  obtain ⟨target, pending⟩ := sound.pending
  by_cases isZero : target = r0
  · subst isZero
    have rightPending : right.PendingFor r0 :=
      (matching.registers _ fun isHidden =>
        absurd isHidden.1 (by decide)).symm.trans pending
    exact ⟨_, delayedLoad_eq rightPending r0 0,
      (matching.flushed sound pending).oneInstruction sound⟩
  · have notZero : ¬left.PendingFor r0 := by
      intro pendingZero
      have toNat := congrArg BitVec.toNat (pending.symm.trans pendingZero)
      rw [toNat_ofNat_gpr, toNat_ofNat_gpr] at toNat
      exact isZero (Fin.ext toNat)
    obtain rfl : left = right :=
      (matching.mono fun _ isHidden => notZero isHidden.2).eq
    obtain ⟨avoids, spares⟩ := respects target pending isZero
    refine ⟨_, delayedLoad_eq pending r0 0, ?_⟩
    rw [oneInstruction_flushed sound pending isZero avoids
      (not_clobbers_of_spares spares)]
    exact MatchingResult.refl _

/-- The result of a program that respects load delay slots does not depend on
when interrupts occur. -/
theorem Matches.runInterrupted
    (schedule : List Bool) {left right : Machine}
    (matching : left.Matches right) (sound : left.Sound)
    (respects : Respects schedule.length left) :
    MatchingResult
      (Machine.runInterrupted (schedule.map fun _ => false) left)
      (Machine.runInterrupted schedule right) := by
  induction schedule generalizing left right with
  | nil => exact .ok none matching
  | cons interrupted rest ih =>
    obtain ⟨respectsNow, respectsNext⟩ := respects
    have step : ∃ entered, right.interruptedIf interrupted = .ok entered ∧
        MatchingResult left.oneInstruction entered.oneInstruction := by
      cases interrupted with
      | true => exact matching.interrupted sound respectsNow
      | false => exact ⟨right, rfl, matching.oneInstruction sound⟩
    obtain ⟨entered, isEntered, results⟩ := step
    have soundNext := sound.oneInstruction
    have notInterrupted : left.interruptedIf false = .ok left := rfl
    simp only [List.map_cons, Machine.runInterrupted, isEntered,
      notInterrupted, ok_bind]
    generalize left.oneInstruction = leftResult at *
    generalize entered.oneInstruction = rightResult at *
    cases results with
    | error fault => exact .error fault
    | ok exception matchingNext =>
      cases exception with
      | some which => exact .ok (some which) matchingNext
      | none =>
        rcases soundNext with ⟨next, _, same, nextSound⟩ | trapped
        · cases same
          exact ih matchingNext nextSound (respectsNext _ rfl)
        · cases trapped

/-- An interrupt between a load and the next instruction is not seen if that
instruction does not write the target of the load.  If it does, the interrupt is
seen for all values of the load but one, unless there is an exception.  And if no
instruction does, whole runs do not depend on the interrupts. -/
theorem interrupt_transparent_of_spares
    {machine : Machine} (sound : machine.Sound) :
    (∀ target : Fin numGPRegs,
      machine.PendingFor target → target ≠ r0 → machine.Avoids target →
      (machine.Spares target →
        SameResult (do (← machine.delayedLoad r0 0).oneInstruction)
          machine.oneInstruction) ∧
      (¬machine.Spares target →
        ∀ next, machine.oneInstruction = .ok (next, none) →
        ∃ written, ∀ value, value ≠ written →
          ¬SameResult
            (do (← (machine.set loadValueReg value).delayedLoad r0 0).oneInstruction)
            (machine.set loadValueReg value).oneInstruction)) ∧
    ∀ schedule : List Bool, Respects schedule.length machine →
      MatchingResult
        (runInterrupted (schedule.map fun _ => false) machine)
        (runInterrupted schedule machine) := by
  constructor
  · intro target pending notZero avoids
    refine ⟨fun spares => ?_, fun writes next completes => ?_⟩
    · rw [delayedLoad_eq pending, ok_bind]
      exact (sameResult_flushed_iff sound pending notZero avoids).mpr
        (not_clobbers_of_spares spares)
    · obtain ⟨written, isSeen⟩ :=
        exists_hidden_value sound pending notZero avoids writes completes
      refine ⟨written, fun value different => ?_⟩
      rw [delayedLoad_eq (pending.set_loadValueReg value), ok_bind]
      exact isSeen value different
  · intro schedule respects
    exact (Matches.refl machine).runInterrupted schedule sound respects

/-- A program: `lw $8, 0($0)`, and `addiu` of register 0 and 1 to another
register. -/
def loadThenAdd (rt : Byte) : Machine :=
  (onePage (fun address =>
    ([0x00, 0x00, 0x08, 0x8c, 0x01, 0x00, rt, 0x24] : List Byte).getD address
      0) false).initRegisters 1

def afterLoad (rt : Byte) : Machine :=
  match (loadThenAdd rt).oneInstruction with
  | .ok (next, _) => next
  | .error _ => loadThenAdd rt

def r8 : Fin numGPRegs := ⟨8, by decide⟩

/-- With `$9` as its destination, the second instruction does not see an
interrupt. -/
theorem interrupt_transparent_of_add :
    SameResult (do (← (afterLoad 9).delayedLoad r0 0).oneInstruction)
      (afterLoad 9).oneInstruction := by
  have sound : (afterLoad 9).Sound := ⟨rfl, ⟨r8, rfl⟩, rfl⟩
  refine ((interrupt_transparent_of_spares sound).1 r8 rfl (by decide) ?_).1 ?_
  · intro instr isNext
    cases isNext
    decide
  · intro instr isNext
    cases isNext
    decide

/-- With `$8` as its destination: without an interrupt the load overwrites what
the second instruction has written, with one it does not. -/
theorem interrupt_seen_after_load :
    processor.start (loadThenAdd 8) ∧
    (loadThenAdd 8).oneInstruction = .ok (afterLoad 8, none) ∧
    (afterLoad 8).PendingFor r8 ∧ (afterLoad 8).Avoids r8 ∧
    ∃ direct flushed,
      (afterLoad 8).oneInstruction = .ok (direct, none) ∧
      (do (← (afterLoad 8).delayedLoad r0 0).oneInstruction) =
        .ok (flushed, none) ∧
      direct.operand r8 = 0x8c080000 ∧ flushed.operand r8 = 1 := by
  refine ⟨⟨onePage _ _, 1, rfl, rfl⟩, rfl, rfl, ?_, _, _, rfl, rfl, rfl, rfl⟩
  intro instr isNext
  cases isNext
  decide

end Machine

end Nachos
