import Nachos.Machine.ByteMemory
import Nachos.Machine.LoadDelay

/-!
# Machines that look the same to user code

Two machines may keep the pages of a program in different frames, and have
different contents elsewhere.  If the registers agree, and each address is
refused in the same way or holds the same byte, an instruction does the same on
both.
-/

namespace Nachos

open Foundation

namespace Translation

variable {translation : Translation} {addr : Word} {size : Nat} {writing : Bool}

/-- Whether the page of an address may be accessed, or else the exception. -/
def admits (translation : Translation) (addr : Word) (writing : Bool) :
    Except ExceptionType Unit :=
  (frameOf translation.settings (addr.toNat / pageSize) writing).map fun _ => ()

/-- Two addresses are at one place in memory. -/
def Shares (translation : Translation) (first second : Word) : Prop :=
  ∃ place, translation.physical first false = some place ∧
    translation.physical second false = some place

theorem shares_congr {first second : Translation}
    (same : first.settings = second.settings) :
    first.Shares = second.Shares := by
  unfold Shares
  rw [physical_congr same]

theorem Separate.shares_iff
    (separate : translation.Separate) (first second : Word) :
    translation.Shares first second ↔
      first = second ∧ (translation.physical first false).isSome := by
  constructor
  · rintro ⟨place, here, there⟩
    exact ⟨separate.physical_injective here there, by rw [here]; rfl⟩
  · rintro ⟨rfl, mapped⟩
    obtain ⟨place, here⟩ := Option.isSome_iff_exists.mp mapped
    exact ⟨place, here, here⟩

theorem admits_congr {first second : Translation}
    (same : first.settings = second.settings) :
    first.admits = second.admits := by
  funext addr writing
  unfold admits
  rw [same]

theorem translate_refused
    (ready : translation.Ready) (isSize : size = 1 ∨ size = 2 ∨ size = 4)
    (aligned : misaligned addr size = false) {exception : ExceptionType}
    (refused : frameOf translation.settings (addr.toNat / pageSize) writing =
      .error exception) :
    translation.translate addr size writing =
      .ok (.error exception, translation) := by
  rw [translate_of_ready ready isSize aligned]
  rw [← frame_eq_frameOf] at refused
  cases search : translation.frame (addr.toNat / pageSize) writing with
  | error reason =>
    rw [search] at refused
    cases refused
    rfl
  | ok pair =>
    rw [search] at refused
    cases refused

/-- Tables with the same permissions refuse an access for the same reason, or
both let it through to a place. -/
theorem translate_together
    {left right : Translation} (same : left.admits = right.admits)
    (leftReady : left.Ready) (rightReady : right.Ready)
    (isSize : size = 1 ∨ size = 2 ∨ size = 4) (addr : Word) (writing : Bool) :
    (∃ exception,
        left.translate addr size writing = .ok (.error exception, left) ∧
        right.translate addr size writing = .ok (.error exception, right)) ∨
      misaligned addr size = false ∧ ∃ place other,
        left.physical addr writing = some place ∧
        right.physical addr writing = some other := by
  cases aligned : misaligned addr size with
  | true =>
    exact Or.inl ⟨_, translate_misaligned left aligned writing,
      translate_misaligned right aligned writing⟩
  | false =>
    have admitted := congrFun (congrFun same addr) writing
    unfold admits at admitted
    -- Of the four cases, those where only one side has a frame are excluded.
    cases onLeft : frameOf left.settings (addr.toNat / pageSize) writing <;>
      cases onRight : frameOf right.settings (addr.toNat / pageSize) writing <;>
      rw [onLeft, onRight] at admitted <;> cases admitted
    · exact Or.inl ⟨_, translate_refused leftReady isSize aligned onLeft,
        translate_refused rightReady isSize aligned onRight⟩
    · exact Or.inr ⟨rfl, _, _, physical_eq_some_iff.mpr ⟨_, onLeft, rfl⟩,
        physical_eq_some_iff.mpr ⟨_, onRight, rfl⟩⟩

end Translation

namespace Machine

structure Confined (machine next : Machine) : Prop where
  settings : next.translation.settings = machine.translation.settings
  mapped : ∀ address, next.mainMemory address ≠ machine.mainMemory address →
    ∃ addr, machine.translation.physical addr false = some address

theorem Confined.refl (machine : Machine) : machine.Confined machine :=
  ⟨rfl, fun _ changed => absurd rfl changed⟩

theorem Confined.trans
    {origin machine next : Machine} (earlier : origin.Confined machine)
    (later : machine.Confined next) : origin.Confined next where
  settings := later.settings.trans earlier.settings
  mapped := by
    intro address changed
    by_cases same : next.mainMemory address = machine.mainMemory address
    · exact earlier.mapped address (same ▸ changed)
    · obtain ⟨addr, isAddr⟩ := later.mapped address same
      rw [Translation.physical_congr earlier.settings] at isAddr
      exact ⟨addr, isAddr⟩

/-- User code cannot tell these machines apart. -/
structure SameView (left right : Machine) : Prop where
  registers : left.registers = right.registers
  bytes : left.byteAt = right.byteAt
  admits : left.translation.admits = right.translation.admits
  leftReady : left.translation.Ready
  rightReady : right.translation.Ready
  shares : left.translation.Shares = right.translation.Shares

theorem SameView.refl
    {machine : Machine} (ready : machine.translation.Ready) :
    machine.SameView machine :=
  ⟨rfl, rfl, rfl, ready, ready, rfl⟩

/-- Tables that give every page a frame of its own share nothing. -/
theorem SameView.of_separate
    {left right : Machine} (registers : left.registers = right.registers)
    (bytes : left.byteAt = right.byteAt)
    (admits : left.translation.admits = right.translation.admits)
    (leftReady : left.translation.Ready)
    (rightReady : right.translation.Ready)
    (leftSeparate : left.translation.Separate)
    (rightSeparate : right.translation.Separate) : left.SameView right := by
  refine ⟨registers, bytes, admits, leftReady, rightReady, ?_⟩
  funext first second
  have mapped := congrArg Option.isSome (congrFun bytes first)
  unfold byteAt at mapped
  rw [Option.isSome_map, Option.isSome_map] at mapped
  rw [leftSeparate.shares_iff, rightSeparate.shares_iff, mapped]

/-- The two machines look the same, and the first one comes from `origin`
without touching memory that is not mapped. -/
structure Follows (origin left right : Machine) : Prop extends
    left.SameView right where
  confined : origin.Confined left

namespace Follows

variable {origin left right leftNext rightNext : Machine} {addr : Word}
  {size : Nat} (same : Follows origin left right)

include same

theorem withRegisters (registers : Fin numTotalRegs → Word) :
    Follows origin { left with registers := registers }
      { right with registers := registers } :=
  ⟨⟨rfl, same.bytes, same.admits, same.leftReady, same.rightReady,
    same.shares⟩,
    ⟨same.confined.settings, same.confined.mapped⟩⟩

theorem set (num : Fin numTotalRegs) (value : Word) :
    Follows origin (left.set num value) (right.set num value) := by
  unfold Machine.set
  rw [same.registers]
  exact same.withRegisters _

theorem operand (num : Fin numGPRegs) :
    right.operand num = left.operand num := by
  unfold Machine.operand
  rw [same.registers]

theorem edits
    {change : Word → Option Byte}
    (leftEdits : left.Edits change leftNext)
    (rightEdits : right.Edits change rightNext)
    (registers : leftNext.registers = rightNext.registers) :
    Follows origin leftNext rightNext where
  registers := registers
  bytes := by
    funext addr
    rw [leftEdits.bytes, rightEdits.bytes, same.bytes]
  admits := by
    rw [Translation.admits_congr leftEdits.settings,
      Translation.admits_congr rightEdits.settings, same.admits]
  leftReady := leftEdits.ready
  rightReady := rightEdits.ready
  shares := by
    rw [Translation.shares_congr leftEdits.settings,
      Translation.shares_congr rightEdits.settings, same.shares]
  confined := same.confined.trans ⟨leftEdits.settings, leftEdits.mapped⟩

theorem looked
    (leftLooked : left.Looked leftNext)
    (rightLooked : right.Looked rightNext) :
    Follows origin leftNext rightNext := by
  refine same.edits leftLooked.quiet.edits rightLooked.quiet.edits ?_
  rw [leftLooked.registers, rightLooked.registers, same.registers]

theorem places
    (isSize : size = 1 ∨ size = 2 ∨ size = 4)
    (aligned : Translation.misaligned addr size = false) {place other : Nat}
    (onLeft : left.translation.physical addr false = some place)
    (onRight : right.translation.physical addr false = some other) :
    ∀ index < size,
      left.mainMemory (place + index) = right.mainMemory (other + index) := by
  intro index inside
  have seen := congrFun same.bytes (addr + BitVec.ofNat 32 index)
  unfold byteAt at seen
  rw [Translation.physical_index isSize aligned onLeft inside,
    Translation.physical_index isSize aligned onRight inside] at seen
  exact Option.some.inj seen

/-- An address names one of the stored bytes on the left just if it names the
same one on the right. -/
theorem place_iff
    (isSize : size = 1 ∨ size = 2 ∨ size = 4)
    (aligned : Translation.misaligned addr size = false) {place other : Nat}
    (onLeft : left.translation.physical addr false = some place)
    (onRight : right.translation.physical addr false = some other)
    {seen : Word} {here there : Nat}
    (isHere : left.translation.physical seen false = some here)
    (isThere : right.translation.physical seen false = some there)
    {index : Nat} (inside : index < size) :
    place + index = here ↔ other + index = there := by
  have leftIndex := Translation.physical_index isSize aligned onLeft inside
  have rightIndex := Translation.physical_index isSize aligned onRight inside
  have shares := congrFun (congrFun same.shares seen)
    (addr + BitVec.ofNat 32 index)
  unfold Translation.Shares at shares
  rw [isHere, isThere, leftIndex, rightIndex] at shares
  simpa [eq_comm] using shares

theorem stored_byte
    (isSize : size = 1 ∨ size = 2 ∨ size = 4)
    (aligned : Translation.misaligned addr size = false) {place other : Nat}
    (onLeft : left.translation.physical addr false = some place)
    (onRight : right.translation.physical addr false = some other)
    (value : Word) {seen : Word} {here there : Nat}
    (isHere : left.translation.physical seen false = some here)
    (isThere : right.translation.physical seen false = some there) :
    storeAt left.mainMemory place ((wordBytes value).take size) here =
      storeAt right.mainMemory other ((wordBytes value).take size) there := by
  have sameIndex := @place_iff _ _ _ _ _ same isSize aligned _ _ onLeft onRight
    _ _ _ isHere isThere
  by_cases near : ∃ index < size, place + index = here
  · obtain ⟨index, inside, atHere⟩ := near
    rw [← atHere, ← (sameIndex inside).mp atHere,
      storeAt_take _ _ _ (by omega) inside,
      storeAt_take _ _ _ (by omega) inside]
  · have before := congrFun same.bytes seen
    unfold byteAt at before
    rw [isHere, isThere] at before
    have farLeft : ∀ index < size, place + index ≠ here :=
      fun index inside atHere => near ⟨index, inside, atHere⟩
    have farRight : ∀ index < size, other + index ≠ there :=
      fun index inside atThere =>
        farLeft index inside ((sameIndex inside).mpr atThere)
    rw [storeAt_take_of_ne _ _ farLeft, storeAt_take_of_ne _ _ farRight]
    exact Option.some.inj before

theorem stored
    (isSize : size = 1 ∨ size = 2 ∨ size = 4)
    (aligned : Translation.misaligned addr size = false) {place other : Nat}
    (onLeft : left.translation.physical addr false = some place)
    (onRight : right.translation.physical addr false = some other)
    (value : Word) {leftTouched rightTouched : Translation}
    (leftSettings : leftTouched.settings = left.translation.settings)
    (leftReady : leftTouched.Ready)
    (rightSettings : rightTouched.settings = right.translation.settings)
    (rightReady : rightTouched.Ready) :
    Follows origin
      { left with
        mainMemory :=
          storeAt left.mainMemory place ((wordBytes value).take size)
        translation := leftTouched }
      { right with
        mainMemory :=
          storeAt right.mainMemory other ((wordBytes value).take size)
        translation := rightTouched } := by
  refine ⟨⟨same.registers, ?_, ?_, leftReady, rightReady, ?_⟩, ?_⟩
  · funext seen
    have before := congrFun same.bytes seen
    unfold byteAt at before ⊢
    rw [Translation.physical_congr leftSettings,
      Translation.physical_congr rightSettings]
    cases isHere : left.translation.physical seen false <;>
      cases isThere : right.translation.physical seen false <;>
      rw [isHere, isThere] at before
    case none.none => rfl
    case none.some there => cases before
    case some.none here => cases before
    case some.some here there =>
      exact congrArg some (same.stored_byte isSize aligned onLeft onRight value
        isHere isThere)
  · rw [Translation.admits_congr leftSettings,
      Translation.admits_congr rightSettings, same.admits]
  · rw [Translation.shares_congr leftSettings,
      Translation.shares_congr rightSettings, same.shares]
  · exact same.confined.trans ⟨leftSettings,
      fun _ changed => mapped_of_storeAt isSize aligned onLeft changed⟩

end Follows

theorem valueAt_congr
    {memory others : Nat → Byte} {place other size : Nat}
    (isSize : size = 1 ∨ size = 2 ∨ size = 4)
    (same : ∀ index < size, memory (place + index) = others (other + index)) :
    valueAt memory place size = valueAt others other size := by
  have first : memory place = others other := same 0 (by omega)
  rcases isSize with rfl | rfl | rfl
  · simp only [valueAt, first]
  · simp only [valueAt, first, same 1 (by decide)]
  · simp only [valueAt, first, same 1 (by decide), same 2 (by decide),
      same 3 (by decide)]

/-! ## Accesses -/

section Accesses

variable {origin left right : Machine} {size : Nat}
  (same : Follows origin left right)

include same

theorem Follows.readMem
    (addr : Word) (isSize : size = 1 ∨ size = 2 ∨ size = 4) :
    Lockstep (SameAnswer (Follows origin)) (left.readMem addr size)
      (right.readMem addr size) := by
  rcases Translation.translate_together same.admits same.leftReady
      same.rightReady isSize addr false with
    ⟨exception, onLeft, onRight⟩ | ⟨aligned, place, other, onLeft, onRight⟩
  · unfold Machine.readMem
    rw [onLeft, onRight]
    exact .ok ⟨rfl, same⟩
  · obtain ⟨leftTouched, leftTranslated, leftSettings, leftReady⟩ :=
      Translation.translate_physical same.leftReady isSize aligned onLeft
    obtain ⟨rightTouched, rightTranslated, rightSettings, rightReady⟩ :=
      Translation.translate_physical same.rightReady isSize aligned onRight
    have values := valueAt_congr isSize
      (same.places isSize aligned onLeft onRight)
    unfold Machine.readMem
    simp only [leftTranslated, rightTranslated, ok_bind, values]
    refine Lockstep.bind (Lockstep.same _) ?_
    rintro value _ rfl
    exact .ok ⟨rfl, same.looked ⟨rfl, rfl, leftSettings, leftReady⟩
      ⟨rfl, rfl, rightSettings, rightReady⟩⟩

theorem Follows.writeMem
    (addr : Word) (isSize : size = 1 ∨ size = 2 ∨ size = 4) (value : Word) :
    Lockstep (SameAnswer (Follows origin)) (left.writeMem addr size value)
      (right.writeMem addr size value) := by
  rcases Translation.translate_together same.admits same.leftReady
      same.rightReady isSize addr true with
    ⟨exception, onLeft, onRight⟩ | ⟨aligned, place, other, onLeft, onRight⟩
  · unfold Machine.writeMem
    rw [onLeft, onRight]
    exact .ok ⟨rfl, same⟩
  · obtain ⟨leftTouched, leftTranslated, leftSettings, leftReady⟩ :=
      Translation.translate_physical same.leftReady isSize aligned onLeft
    obtain ⟨rightTouched, rightTranslated, rightSettings, rightReady⟩ :=
      Translation.translate_physical same.rightReady isSize aligned onRight
    have stored : storedBytes value size =
        .ok ((wordBytes value).take size) := by
      rcases isSize with rfl | rfl | rfl <;> rfl
    unfold Machine.writeMem
    simp only [leftTranslated, rightTranslated, ok_bind, stored]
    exact .ok ⟨rfl, same.stored isSize aligned
      (Translation.physical_read_of_write onLeft)
      (Translation.physical_read_of_write onRight) value leftSettings leftReady
      rightSettings rightReady⟩

end Accesses

/-! ## Instructions -/

/-- On machines that look the same no register is hidden. -/
theorem coupling_follows (origin : Machine) :
    Coupling fun _ => Follows origin where
  registers same num _ := congrFun same.registers num
  mono same _ := same
  set same := same.set
  readMem same addr _ isSize := same.readMem addr isSize
  writeMem same addr _ isSize := same.writeMem addr isSize

section Instructions

variable {origin left right : Machine}

theorem Follows.delayedLoad
    (same : Follows origin left right) (nextReg : Fin numGPRegs)
    (nextValue : Word) :
    Lockstep (Follows origin) (left.delayedLoad nextReg nextValue)
      (right.delayedLoad nextReg nextValue) := by
  unfold Machine.delayedLoad setIndexed
  rw [same.registers]
  split_ifs with inside
  · exact .ok ((((same.set _ _).set _ _).set _ _).set _ _)
  · exact .error _

theorem Follows.finish
    {first second : Outcome} {hidden : Fin numTotalRegs → Prop}
    {written : Option (Fin numGPRegs)}
    (same : first.Coupled (fun _ => Follows origin) hidden written
      (fun _ => True) second) :
    Lockstep (fun left right => Follows origin left.1 right.1 ∧ left.2 = right.2)
      (finish first) (finish second) := by
  cases same with
  | @completed _ _ nextLoadReg value _ pcAfter machines values =>
    rw [← values trivial]
    refine Lockstep.bind (machines.delayedLoad nextLoadReg value) ?_
    intro left right loaded
    refine .ok ⟨?_, rfl⟩
    unfold advance
    rw [loaded.registers]
    exact ((loaded.set _ _).set _ _).set _ _
  | @raised _ _ which badVAddr machines =>
    refine Lockstep.bind ((machines.set badVAddrReg badVAddr).delayedLoad _ _)
      ?_
    intro left right loaded
    exact .ok ⟨loaded, rfl⟩

variable (same : Follows origin left right)

include same

/-- `Machine::OneInstruction` does the same on both machines, and raises the
same exception. -/
theorem Follows.oneInstruction :
    Lockstep (fun left right => Follows origin left.1 right.1 ∧ left.2 = right.2)
      left.oneInstruction right.oneInstruction := by
  rw [oneInstruction_eq, oneInstruction_eq]
  have outcomes := @Coupling.nextOutcome _ _ _ (fun _ => False)
    (coupling_follows origin) same not_false (fun _ => True)
    (fun instr _ => ⟨fun _ _ => not_false, not_false, not_false, not_false⟩)
    (fun rt _ => merged_congr same.registers rt)
  exact Lockstep.bind outcomes fun _ _ => Follows.finish

theorem Follows.interruptedIf (interrupted : Bool) :
    Lockstep (Follows origin) (left.interruptedIf interrupted)
      (right.interruptedIf interrupted) := by
  cases interrupted with
  | true => exact same.delayedLoad r0 0
  | false => exact .ok same

end Instructions

end Machine

end Nachos
