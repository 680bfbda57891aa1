import Nachos.Machine.LoadDelay
import Nachos.Machine.WordMemory

/-!
# Unaligned words

`LWL`, `LWR`, `SWL` and `SWR` each access the aligned word around an address and
merge a part of it with a register.  A pair of them together accesses the four
bytes from any address on.
-/

namespace Nachos

open Foundation

namespace Machine

/-! ## The parts of a word -/

theorem lwlMerge_eq {part : Nat} (few : part < 4) (old value : Word) :
    lwlMerge (BitVec.ofNat 32 part) old value = mergeUp part old value := by
  match part, few with
  | 0, _ => exact (mergeUp_zero old value).symm
  | 1, _ => rfl
  | 2, _ => rfl
  | 3, _ => rfl

theorem swrMerge_eq {part : Nat} (few : part < 4) (value register : Word) :
    swrMerge (BitVec.ofNat 32 part) value register =
      mergeUp (3 - part) value register := by
  match part, few with
  | 0, _ => rfl
  | 1, _ => rfl
  | 2, _ => rfl
  | 3, _ => exact (mergeUp_zero value register).symm

theorem lwrMerge_eq {part : Nat} (few : part < 4) (old value : Word) :
    lwrMerge (BitVec.ofNat 32 part) old value =
      mergeDown (3 - part) old value := by
  match part, few with
  | 0, _ => rfl
  | 1, _ => rfl
  | 2, _ => rfl
  | 3, _ => exact (mergeDown_zero old value).symm

theorem swlMerge_eq {part : Nat} (few : part < 4) (value register : Word) :
    swlMerge (BitVec.ofNat 32 part) value register =
      mergeDown part value register := by
  match part, few with
  | 0, _ => exact (mergeDown_zero value register).symm
  | 1, _ => rfl
  | 2, _ => rfl
  | 3, _ => rfl

theorem three_sub_and (addr : Word) :
    3 - (addr &&& 3) = BitVec.ofNat 32 (3 - addr.toNat % 4) := by
  apply BitVec.eq_of_toNat_eq
  rw [BitVec.toNat_sub, toNat_and_three, BitVec.toNat_ofNat]
  have three : (3 : Word).toNat = 3 := rfl
  omega

variable {machine next : Machine} {addr : Word}

/-! ## One instruction -/

def Next (machine : Machine) (opCode : OpCode) (rt : Fin numGPRegs)
    (addr : Word) : Prop :=
  ∃ instr, machine.nextInstruction = some instr ∧ instr.opCode = opCode ∧
    instr.rt = rt ∧ machine.operand instr.rs + instr.extra = addr

variable {opCode : OpCode} {rt : Fin numGPRegs}

theorem Next.nextOutcome
    (isNext : machine.Next opCode rt addr) (ready : machine.translation.Ready)
    (access : Machine → Word → Except Fault Outcome)
    (executes : ∀ fetched rs rd extra,
      execute fetched ⟨opCode, rs, rt, rd, extra⟩ =
        access fetched (fetched.operand rs + extra)) :
    ∃ fetched, machine.Looked fetched ∧
      machine.nextOutcome = access fetched addr := by
  obtain ⟨⟨_, rs, _, rd, extra⟩, isInstr, rfl, rfl, rfl⟩ := isNext
  obtain ⟨fetched, looked, fetches⟩ := exists_nextOutcome ready isInstr
  refine ⟨fetched, looked, ?_⟩
  rw [fetches, ← looked.operand]
  exact executes fetched rs rd extra

/-- A load or a store completes: it leaves the registers as they were, but for
the load that was pending. -/
structure Completed (machine after : Machine) (nextReg : Fin numGPRegs)
    (nextValue : Word) (next : Machine) : Prop
    extends machine.Finished after nextReg nextValue next where
  operand : ∀ num, num = r0 ∨ ¬machine.PendingFor num →
    next.operand num = machine.operand num

theorem Sound.completed
    (sound : machine.Sound) {after : Machine} {nextReg : Fin numGPRegs}
    {nextValue pcAfter : Word}
    (outcome : machine.nextOutcome =
      .ok (.completed after nextReg nextValue pcAfter))
    (registers : after.registers = machine.registers)
    (ready : after.translation.Ready) :
    ∃ next, machine.oneInstruction = .ok (next, none) ∧
      machine.Completed after nextReg nextValue next := by
  have keeps : machine.Keeps none after :=
    ⟨fun num _ _ _ => congrFun registers num, ready⟩
  obtain ⟨next, performed, finished⟩ := sound.finished outcome keeps
  refine ⟨next, performed, finished, ?_⟩
  intro num kept
  by_cases isZero : num = r0
  · rw [isZero]
    exact finished.sound.zero.trans sound.zero.symm
  · rw [finished.general num isZero (kept.resolve_left isZero)]
    exact congrFun registers (gpr num)

theorem Sound.loadPart
    (sound : machine.Sound) (isNext : machine.Next opCode rt addr)
    (merge : Word → Word → Word → Word)
    (executes : ∀ fetched rs rd extra,
      execute fetched ⟨opCode, rs, rt, rd, extra⟩ =
        fetched.loadPart rt (fetched.operand rs + extra) merge)
    (mapped : (machine.translation.physical addr false).isSome) :
    ∃ value after next, machine.oneInstruction = .ok (next, none) ∧
      machine.Completed after rt
        (merge (3 - (addr &&& 3)) (machine.merged rt) value) next ∧
      machine.Looked after ∧
      ∀ other : Word, (other - alignedBase addr).toNat < 4 →
        machine.byteAt other =
          some (byteOf value (other - alignedBase addr).toNat) := by
  obtain ⟨fetched, looked, outcome⟩ :=
    isNext.nextOutcome sound.ready (fun fetched addr =>
      fetched.loadPart rt addr merge) executes
  rw [← Translation.physical_congr looked.settings] at mapped
  obtain ⟨value, after, performed, lookedAgain, bytes⟩ :=
    readMem_alignedBase looked.ready mapped
  have lookedTwice := looked.trans lookedAgain
  have sameMerged := merged_congr lookedTwice.registers rt
  have loads : fetched.loadPart rt addr merge =
      .ok (.completed after rt
        (merge (3 - (addr &&& 3)) (machine.merged rt) value)
        after.following) := by
    unfold Machine.loadPart
    dsimp only
    rw [show addr - (addr &&& 3) = alignedBase addr from rfl, performed,
      ok_bind, ← sameMerged]
    rfl
  obtain ⟨next, completes, completed⟩ :=
    sound.completed (outcome.trans loads) lookedTwice.registers
      lookedTwice.ready
  rw [looked.byteAt] at bytes
  exact ⟨value, after, next, completes, completed, lookedTwice, bytes⟩

theorem Sound.storePart
    (sound : machine.Sound) (separate : machine.translation.Separate)
    (isNext : machine.Next opCode rt addr)
    (merge : Word → Word → Word → Word)
    (executes : ∀ fetched rs rd extra,
      execute fetched ⟨opCode, rs, rt, rd, extra⟩ =
        fetched.storePart rt (fetched.operand rs + extra) merge)
    (writable : (machine.translation.physical addr true).isSome) :
    ∃ value after next, machine.oneInstruction = .ok (next, none) ∧
      machine.Completed after r0 0 next ∧
      machine.Edits (wordFrom (alignedBase addr)
        (merge (3 - (addr &&& 3)) value (machine.operand rt))) next ∧
      ∀ other : Word, (other - alignedBase addr).toNat < 4 →
        machine.byteAt other =
          some (byteOf value (other - alignedBase addr).toNat) := by
  obtain ⟨fetched, looked, outcome⟩ :=
    isNext.nextOutcome sound.ready (fun fetched addr =>
      fetched.storePart rt addr merge) executes
  have readable : (fetched.translation.physical addr false).isSome := by
    rw [Translation.physical_congr looked.settings]
    exact isSome_read_of_write writable
  obtain ⟨value, middle, performed, lookedAgain, bytes⟩ :=
    readMem_alignedBase looked.ready readable
  have lookedTwice := looked.trans lookedAgain
  obtain ⟨after, written, registers, edits⟩ :=
    writeMem_alignedBase lookedTwice.ready
      (lookedTwice.separate separate)
      (by rw [Translation.physical_congr lookedTwice.settings]; exact writable)
      (merge (3 - (addr &&& 3)) value (machine.operand rt))
  have stores : fetched.storePart rt addr merge = .ok after.proceed := by
    unfold Machine.storePart Machine.store
    dsimp only
    rw [show addr - (addr &&& 3) = alignedBase addr from rfl, performed,
      ok_bind]
    dsimp only
    rw [lookedTwice.operand, written]
    rfl
  obtain ⟨next, completes, completed⟩ :=
    sound.completed (outcome.trans stores)
      (registers.trans lookedTwice.registers) edits.ready
  rw [looked.byteAt] at bytes
  exact ⟨value, after, next, completes, completed,
    (lookedTwice.edits edits).leave completed.memory completed.translation,
    bytes⟩

/-! ## The two parts of an unaligned word -/

/-- The bytes of the word at `addr` that `LWR` and `SWR` access. -/
def RightCovers (addr : Word) (index : Nat) : Prop :=
  index + addr.toNat % 4 < 4

/-- The bytes of the word at `addr` that `LWL` and `SWL` access, at the address
of its last byte. -/
def LeftCovers (addr : Word) (index : Nat) : Prop :=
  3 ≤ index + (addr + 3).toNat % 4

theorem right_or_left (addr : Word) {index : Nat} (inside : index < 4) :
    RightCovers addr index ∨ LeftCovers addr index := by
  have bound := addr.isLt
  have three : (3 : Word).toNat = 3 := rfl
  unfold RightCovers LeftCovers
  rw [BitVec.toNat_add]
  omega

instance (addr : Word) : DecidablePred (RightCovers addr) :=
  fun _ => inferInstanceAs (Decidable (_ < _))

instance (addr : Word) : DecidablePred (LeftCovers addr) :=
  fun _ => inferInstanceAs (Decidable (_ ≤ _))

section Distances

variable {other : Word}

theorem RightCovers.distance
    (covers : RightCovers addr (other - addr).toNat) :
    (other - alignedBase addr).toNat =
      (other - addr).toNat + addr.toNat % 4 := by
  have bound := addr.isLt
  have otherBound := other.isLt
  unfold RightCovers at covers
  rw [BitVec.toNat_sub] at covers ⊢
  rw [BitVec.toNat_sub, toNat_alignedBase]
  omega

theorem below_right
    (near : (other - alignedBase addr).toNat < 4)
    (outside : ¬RightCovers addr (other - addr).toNat) :
    (other - alignedBase addr).toNat < addr.toNat % 4 := by
  have bound := addr.isLt
  have otherBound := other.isLt
  unfold RightCovers at outside
  rw [BitVec.toNat_sub] at outside
  rw [BitVec.toNat_sub, toNat_alignedBase] at near ⊢
  omega

theorem LeftCovers.distance
    (covers : LeftCovers addr (other - addr).toNat)
    (inside : (other - addr).toNat < 4) :
    (other - alignedBase (addr + 3)).toNat + 3 =
      (other - addr).toNat + (addr + 3).toNat % 4 := by
  have bound := addr.isLt
  have otherBound := other.isLt
  have three : (3 : Word).toNat = 3 := rfl
  unfold LeftCovers at covers
  rw [BitVec.toNat_sub] at covers inside ⊢
  rw [BitVec.toNat_sub, toNat_alignedBase]
  rw [BitVec.toNat_add] at covers ⊢
  omega

theorem above_left
    (near : (other - alignedBase (addr + 3)).toNat < 4)
    (outside : ¬(LeftCovers addr (other - addr).toNat ∧
      (other - addr).toNat < 4)) :
    (addr + 3).toNat % 4 < (other - alignedBase (addr + 3)).toNat := by
  have bound := addr.isLt
  have otherBound := other.isLt
  have three : (3 : Word).toNat = 3 := rfl
  unfold LeftCovers at outside
  rw [BitVec.toNat_sub] at outside
  rw [BitVec.toNat_sub, toNat_alignedBase] at near ⊢
  rw [BitVec.toNat_add] at near outside ⊢
  omega

end Distances

/-- The bytes of `value`, from `addr` on, as far as they are covered. -/
def partFrom (addr value : Word) (covers : Nat → Prop) [DecidablePred covers]
    (other : Word) : Option Byte :=
  if covers (other - addr).toNat then wordFrom addr value other else none

theorem partFrom_or (addr value : Word) :
    (fun other => (partFrom addr value (LeftCovers addr) other).or
      (partFrom addr value (RightCovers addr) other)) =
      wordFrom addr value := by
  funext other
  unfold partFrom wordFrom
  by_cases inside : (other - addr).toNat < 4
  · rcases right_or_left addr inside with right | left
    · rw [if_pos right, if_pos inside]
      split_ifs <;> rfl
    · rw [if_pos left, if_pos inside]
      rfl
  · simp only [if_neg inside, ite_self, Option.or_none]

theorem Edits.part
    {base value merged old : Word} {covers : Nat → Prop}
    [DecidablePred covers]
    (edits : machine.Edits (wordFrom base merged) next)
    (bytes : ∀ other : Word, (other - base).toNat < 4 →
      machine.byteAt other = some (byteOf old (other - base).toNat))
    (inside : ∀ other : Word, covers (other - addr).toNat →
      (other - addr).toNat < 4 →
      (other - base).toNat < 4 ∧
        byteOf merged (other - base).toNat =
          byteOf value (other - addr).toNat)
    (outside : ∀ other : Word, (other - base).toNat < 4 →
      ¬(covers (other - addr).toNat ∧ (other - addr).toNat < 4) →
      byteOf merged (other - base).toNat = byteOf old (other - base).toNat) :
    machine.Edits (partFrom addr value covers) next := by
  refine edits.congr fun other byte seen => ?_
  unfold partFrom wordFrom
  by_cases covered : covers (other - addr).toNat ∧ (other - addr).toNat < 4
  · obtain ⟨near, same⟩ := inside other covered.1 covered.2
    rw [if_pos near, if_pos covered.1, if_pos covered.2, same]
  · have nothing : (if covers (other - addr).toNat then
        if (other - addr).toNat < 4 then
          some (byteOf value (other - addr).toNat)
        else none
      else none) = none := by
      rw [← ite_and, if_neg covered]
    rw [nothing]
    split_ifs with near
    · rw [bytes other near] at seen
      rw [outside other near covered, Option.some.inj seen]
      rfl
    · rfl

theorem Sound.swr
    (sound : machine.Sound) (separate : machine.translation.Separate)
    (isNext : machine.Next .swr rt addr)
    (writable : (machine.translation.physical addr true).isSome) :
    ∃ after next, machine.oneInstruction = .ok (next, none) ∧
      machine.Completed after r0 0 next ∧
      machine.Edits (partFrom addr (machine.operand rt) (RightCovers addr))
        next := by
  obtain ⟨old, after, next, completes, completed, edits, bytes⟩ :=
    sound.storePart separate isNext swrMerge (fun _ _ _ _ => rfl) writable
  have part : 3 - (3 - addr.toNat % 4) = addr.toNat % 4 := by omega
  rw [three_sub_and, swrMerge_eq (by omega), part] at edits
  refine ⟨after, next, completes, completed, edits.part bytes ?_ ?_⟩
  · intro other covers _
    have distance := covers.distance
    unfold RightCovers at covers
    have near : (other - alignedBase addr).toNat < 4 := by omega
    refine ⟨near, ?_⟩
    rw [byteOf_mergeUp _ _ _ near, if_neg (by omega), distance,
      Nat.add_sub_cancel]
  · intro other near uncovered
    have below := below_right near fun covers =>
      uncovered ⟨covers, by unfold RightCovers at covers; omega⟩
    rw [byteOf_mergeUp _ _ _ near, if_pos below]

theorem Sound.swl
    (sound : machine.Sound) (separate : machine.translation.Separate)
    (isNext : machine.Next .swl rt (addr + 3))
    (writable : (machine.translation.physical (addr + 3) true).isSome) :
    ∃ after next, machine.oneInstruction = .ok (next, none) ∧
      machine.Completed after r0 0 next ∧
      machine.Edits (partFrom addr (machine.operand rt) (LeftCovers addr))
        next := by
  obtain ⟨old, after, next, completes, completed, edits, bytes⟩ :=
    sound.storePart separate isNext swlMerge (fun _ _ _ _ => rfl) writable
  rw [three_sub_and, swlMerge_eq (by omega)] at edits
  refine ⟨after, next, completes, completed, edits.part bytes ?_ ?_⟩
  · intro other covers inside
    have distance := covers.distance inside
    have near : (other - alignedBase (addr + 3)).toNat < 4 := by omega
    refine ⟨near, ?_⟩
    rw [byteOf_mergeDown _ _ (by omega) near, if_pos (by omega)]
    congr 1
    omega
  · intro other near uncovered
    have above := above_left near uncovered
    rw [byteOf_mergeDown _ _ (by omega) near, if_neg (by omega)]

/-- A load is pending for `rt`.  Where it is covered its value is that of memory
from `addr` on, and elsewhere that of the register before. -/
structure LoadsPart (machine : Machine) (rt : Fin numGPRegs) (addr : Word)
    (covers : Nat → Prop) (next : Machine) : Prop where
  sound : next.Sound
  memory : next.mainMemory = machine.mainMemory
  settings : next.translation.settings = machine.translation.settings
  pending : next.PendingFor rt
  covered : ∀ index < 4, covers index →
    machine.byteAt (addr + BitVec.ofNat 32 index) =
      some (byteOf (next.registers loadValueReg) index)
  kept : ∀ index < 4, ¬covers index →
    byteOf (next.registers loadValueReg) index =
      byteOf (machine.merged rt) index

theorem Completed.loadsPart
    {after : Machine} {value : Word} {covers : Nat → Prop}
    (completed : machine.Completed after rt value next)
    (looked : machine.Looked after)
    (covered : ∀ index < 4, covers index →
      machine.byteAt (addr + BitVec.ofNat 32 index) = some (byteOf value index))
    (kept : ∀ index < 4, ¬covers index →
      byteOf value index = byteOf (machine.merged rt) index) :
    machine.LoadsPart rt addr covers next where
  sound := completed.sound
  memory := completed.memory.trans looked.memory
  settings := by
    rw [completed.translation]
    exact looked.settings
  pending := completed.pending
  covered := by
    rw [completed.value]
    exact covered
  kept := by
    rw [completed.value]
    exact kept

theorem Sound.lwr
    (sound : machine.Sound) (isNext : machine.Next .lwr rt addr)
    (mapped : (machine.translation.physical addr false).isSome) :
    ∃ next, machine.oneInstruction = .ok (next, none) ∧
      machine.LoadsPart rt addr (RightCovers addr) next := by
  obtain ⟨value, after, next, completes, completed, looked, bytes⟩ :=
    sound.loadPart isNext lwrMerge (fun _ _ _ _ => rfl) mapped
  have part : 3 - (3 - addr.toNat % 4) = addr.toNat % 4 := by omega
  rw [three_sub_and, lwrMerge_eq (by omega), part] at completed
  refine ⟨next, completes, completed.loadsPart looked ?_ ?_⟩
  · intro index inside covers
    have index_eq := @toNat_add_sub addr index (by omega)
    have distance := RightCovers.distance (index_eq.symm ▸ covers)
    unfold RightCovers at covers
    rw [index_eq] at distance
    rw [bytes _ (by omega), byteOf_mergeDown _ _ (by omega) inside,
      if_pos covers, distance]
  · intro index inside uncovered
    unfold RightCovers at uncovered
    rw [byteOf_mergeDown _ _ (by omega) inside, if_neg uncovered]

theorem Sound.lwl
    (sound : machine.Sound) (isNext : machine.Next .lwl rt (addr + 3))
    (mapped : (machine.translation.physical (addr + 3) false).isSome) :
    ∃ next, machine.oneInstruction = .ok (next, none) ∧
      machine.LoadsPart rt addr (LeftCovers addr) next := by
  obtain ⟨value, after, next, completes, completed, looked, bytes⟩ :=
    sound.loadPart isNext lwlMerge (fun _ _ _ _ => rfl) mapped
  rw [three_sub_and, lwlMerge_eq (by omega)] at completed
  refine ⟨next, completes, completed.loadsPart looked ?_ ?_⟩
  · intro index inside covers
    have index_eq := @toNat_add_sub addr index (by omega)
    have distance := LeftCovers.distance (index_eq.symm ▸ covers) (by omega)
    unfold LeftCovers at covers
    rw [index_eq] at distance
    rw [bytes _ (by omega), byteOf_mergeUp _ _ _ inside, if_neg (by omega)]
    congr 2
    omega
  · intro index inside uncovered
    unfold LeftCovers at uncovered
    rw [byteOf_mergeUp _ _ _ inside, if_pos (by omega)]

def WordAt (machine : Machine) (addr value : Word) : Prop :=
  ∀ index < 4, machine.byteAt (addr + BitVec.ofNat 32 index) =
    some (byteOf value index)

/-- The second load merges with the one that is pending, so what is pending in
the end is the whole word. -/
theorem LoadsPart.wordAt
    {last : Machine} {covers later : Nat → Prop}
    (first : machine.LoadsPart rt addr covers next)
    (second : next.LoadsPart rt addr later last)
    (whole : ∀ index < 4, covers index ∨ later index) :
    machine.WordAt addr (last.registers loadValueReg) := by
  have sameBytes : next.byteAt = machine.byteAt := by
    funext other
    unfold byteAt
    rw [Translation.physical_congr first.settings, first.memory]
  have mergedPending : next.merged rt = next.registers loadValueReg :=
    if_pos first.pending
  intro index inside
  by_cases isLater : later index
  · rw [← sameBytes]
    exact second.covered index inside isLater
  · rw [second.kept index inside isLater, mergedPending]
    exact first.covered index inside
      ((whole index inside).resolve_right isLater)

theorem LoadsPart.delayedLoad
    {last : Machine} {covers later : Nat → Prop}
    (first : machine.LoadsPart rt addr covers next)
    (second : next.LoadsPart rt addr later last)
    (whole : ∀ index < 4, covers index ∨ later index) (notZero : rt ≠ r0)
    (nextReg : Fin numGPRegs) (nextValue : Word) :
    ∃ final, last.delayedLoad nextReg nextValue = .ok final ∧
      machine.WordAt addr (final.operand rt) := by
  refine ⟨_, delayedLoad_eq second.pending nextReg nextValue, ?_⟩
  unfold Machine.operand
  rw [loaded_general _ _ notZero, if_pos rfl]
  exact first.wordAt second whole

/-! ## Pairs of instructions -/

/-- The next instructions have these operations and effective addresses, each
when its turn comes, and the same register. -/
def Upcoming (rt : Fin numGPRegs) : List (OpCode × Word) → Machine → Prop
  | [], _ => True
  | (opCode, addr) :: rest, machine =>
    machine.Next opCode rt addr ∧
    ∀ next, machine.oneInstruction = .ok (next, none) → Upcoming rt rest next

/-- Two instructions complete, without an interrupt between them. -/
def Completes (machine last : Machine) : Prop :=
  ∃ middle, machine.oneInstruction = .ok (middle, none) ∧
    middle.oneInstruction = .ok (last, none)

def Writable (machine : Machine) (addr : Word) : Prop :=
  ∀ index < 4,
    (machine.translation.physical (addr + BitVec.ofNat 32 index) true).isSome

theorem Writable.first (writable : machine.Writable addr) :
    (machine.translation.physical addr true).isSome := by
  have atZero := writable 0 (by decide)
  rw [BitVec.add_zero] at atZero
  exact atZero

/-- `SWR` and `SWL` together store the word at any address. -/
theorem Sound.storePair
    (sound : machine.Sound) (separate : machine.translation.Separate)
    (writable : machine.Writable addr)
    (notPending : rt = r0 ∨ ¬machine.PendingFor rt)
    (upcoming : machine.Upcoming rt [(.swr, addr), (.swl, addr + 3)]) :
    ∃ last, machine.Completes last ∧
      machine.Edits (wordFrom addr (machine.operand rt)) last := by
  obtain ⟨isSwr, upcomingSwl⟩ := upcoming
  obtain ⟨_, middle, stored, completed, edits⟩ :=
    sound.swr separate isSwr writable.first
  obtain ⟨isSwl, -⟩ := upcomingSwl middle stored
  have stillSeparate : middle.translation.Separate := by
    unfold Translation.Separate
    rw [edits.settings]
    exact separate
  have stillWritable :
      (middle.translation.physical (addr + 3) true).isSome := by
    rw [Translation.physical_congr edits.settings]
    exact writable 3 (by decide)
  obtain ⟨_, last, storedAgain, -, editsAgain⟩ :=
    completed.sound.swl stillSeparate isSwl stillWritable
  rw [completed.operand rt notPending] at editsAgain
  have both := edits.trans editsAgain
  rw [partFrom_or] at both
  exact ⟨last, ⟨middle, stored, storedAgain⟩, both⟩

/-- `LWR rt, addr` and `LWL rt, addr + 3` load the word at `addr`, in either
order. -/
theorem Sound.loadPair
    (sound : machine.Sound) (writable : machine.Writable addr)
    (notZero : rt ≠ r0)
    (upcoming : machine.Upcoming rt [(.lwr, addr), (.lwl, addr + 3)] ∨
      machine.Upcoming rt [(.lwl, addr + 3), (.lwr, addr)]) :
    ∃ last, machine.Completes last ∧
      ∀ nextReg nextValue, ∃ final,
        last.delayedLoad nextReg nextValue = .ok final ∧
        machine.WordAt addr (final.operand rt) := by
  have firstMapped := isSome_read_of_write writable.first
  have lastMapped :
      (machine.translation.physical (addr + 3) false).isSome :=
    isSome_read_of_write (writable 3 (by decide))
  rcases upcoming with ⟨isLwr, upcomingLwl⟩ | ⟨isLwl, upcomingLwr⟩
  · obtain ⟨middle, loaded, right⟩ := sound.lwr isLwr firstMapped
    rw [← Translation.physical_congr right.settings] at lastMapped
    obtain ⟨last, loadedAgain, left⟩ :=
      right.sound.lwl (upcomingLwl middle loaded).1 lastMapped
    exact ⟨last, ⟨middle, loaded, loadedAgain⟩,
      right.delayedLoad left (fun _ => right_or_left addr) notZero⟩
  · obtain ⟨middle, loaded, left⟩ := sound.lwl isLwl lastMapped
    rw [← Translation.physical_congr left.settings] at firstMapped
    obtain ⟨last, loadedAgain, right⟩ :=
      left.sound.lwr (upcomingLwr middle loaded).1 firstMapped
    exact ⟨last, ⟨middle, loaded, loadedAgain⟩,
      left.delayedLoad right (fun _ inside => (right_or_left addr inside).symm)
        notZero⟩

/-- Unaligned words can be written and read, at any address. -/
theorem unaligned_access_exact
    (sound : machine.Sound) (separate : machine.translation.Separate)
    (writable : machine.Writable addr) (rt : Fin numGPRegs) :
    (rt = r0 ∨ ¬machine.PendingFor rt →
      machine.Upcoming rt [(.swr, addr), (.swl, addr + 3)] →
      ∃ last, machine.Completes last ∧
        machine.Edits (wordFrom addr (machine.operand rt)) last) ∧
    (rt ≠ r0 →
      machine.Upcoming rt [(.lwr, addr), (.lwl, addr + 3)] ∨
        machine.Upcoming rt [(.lwl, addr + 3), (.lwr, addr)] →
      ∃ last, machine.Completes last ∧
        ∀ nextReg nextValue, ∃ final,
          last.delayedLoad nextReg nextValue = .ok final ∧
          machine.WordAt addr (final.operand rt)) :=
  ⟨sound.storePair separate writable, sound.loadPair writable⟩

def unalignedPair (first second : Byte) : Machine :=
  ((onePage (fun address =>
    ([17, 0x00, 0x08, first, 20, 0x00, 0x08, second] : List Byte).getD address
      0) false).initRegisters 1).set (gpr r8) 0x12345678

theorem separate_onePage (memory : Nat → Byte) (readOnly : Bool) :
    (onePage memory readOnly).translation.Separate := by
  have onlyPage : ∀ vpn pageFrame,
      Translation.frameOf (onePage memory readOnly).translation.settings vpn
        false = .ok pageFrame → vpn = 0 := by
    intro vpn pageFrame found
    by_contra notZero
    have outside : ¬vpn < (1 : Word).toNat := fun inside =>
      notZero (Nat.lt_one_iff.mp inside)
    change (if vpn < (1 : Word).toNat then _ else _) = _ at found
    rw [if_neg outside] at found
    cases found
  intro one other pageFrame oneFound otherFound
  rw [onlyPage _ pageFrame oneFound, onlyPage _ pageFrame otherFound]

/-- `SWR` and `SWL`, and `LWR` and `LWL`. -/
theorem unaligned_access_at_seventeen :
    (∃ last, (unalignedPair 0xb8 0xa8).Completes last ∧
      (unalignedPair 0xb8 0xa8).Edits (wordFrom 17 0x12345678) last) ∧
    ∃ last, (unalignedPair 0x98 0x88).Completes last ∧
      ∀ nextReg nextValue, ∃ final,
        last.delayedLoad nextReg nextValue = .ok final ∧
        (unalignedPair 0x98 0x88).WordAt 17 (final.operand r8) := by
  have sound : ∀ first second, (unalignedPair first second).Sound :=
    fun _ _ => ⟨rfl, ⟨r0, rfl⟩, rfl⟩
  have writable : ∀ first second,
      (unalignedPair first second).Writable 17 := by
    intro first second index inside
    match index, inside with
    | 0, _ => rfl
    | 1, _ => rfl
    | 2, _ => rfl
    | 3, _ => rfl
  have access := fun first second =>
    unaligned_access_exact (sound first second)
      (separate_onePage (fun _ => 0) false) (writable first second) r8
  refine ⟨(access 0xb8 0xa8).1 ?_ ?_,
    (access 0x98 0x88).2 (by decide) (Or.inl ?_)⟩
  · exact Or.inr (by unfold PendingFor; decide)
  all_goals
    refine ⟨⟨_, rfl, rfl, rfl, rfl⟩, fun middle performed => ?_⟩
    cases performed
    exact ⟨⟨_, rfl, rfl, rfl, rfl⟩, fun _ _ => trivial⟩

end Machine

end Nachos
