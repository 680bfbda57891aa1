import Nachos.Machine.Relocation
import Nachos.Userprog.Returns

/-!
# Isolation of user programs
-/

namespace Nachos.Userprog

open Foundation Machine

variable {World : Type}

def handle (platform : Platform World) (state : State World) :
    Option ExceptionType → Except Stop (State World)
  | none => .ok state
  | some which => exceptionHandler platform which state

/-- The body of the loop of `Machine::Run`: `OneInstruction`, with the handler
of the exception it raises, and `OneTick`, with the `DelayedLoad` of
`CheckIfDue` if an interrupt is due. -/
def oneRound (platform : Platform World) (interrupted : Bool)
    (state : State World) : Except Stop (State World) := do
  let (machine, exception) ← liftFault state.machine.oneInstruction
  let state ← handle platform { state with machine := machine } exception
  let machine ← liftFault (state.machine.interruptedIf interrupted)
  return { state with machine := machine }

/-- Between two rounds others use the memory that is not mapped. -/
def Elsewhere (state next : State World) : Prop :=
  ∃ memory, (∀ addr place,
      state.machine.translation.physical addr false = some place →
      memory place = state.machine.mainMemory place) ∧
    next = { state with machine := { state.machine with mainMemory := memory } }

namespace State

structure SameView (left right : State World) : Prop where
  machine : left.machine.SameView right.machine
  fileSystem : left.fileSystem = right.fileSystem

structure Follows (origin : Machine) (left right : State World) : Prop where
  machine : Machine.Follows origin left.machine right.machine
  fileSystem : left.fileSystem = right.fileSystem

end State

/-! ## The copies -/

section Copies

variable {origin left right : Machine}
  (same : Machine.Follows origin left right)

include same

theorem readByte_follows (addr : Word) :
    Lockstep (SameAnswer (Machine.Follows origin)) (readByte left addr)
      (readByte right addr) := by
  have read := same.readMem addr (Or.inl rfl)
  unfold readByte
  generalize left.readMem addr 1 = first at read ⊢
  generalize right.readMem addr 1 = second at read ⊢
  cases read with
  | error fault => exact .error _
  | @ok leftPair rightPair answer =>
    obtain ⟨result, leftNext⟩ := leftPair
    obtain ⟨_, rightNext⟩ := rightPair
    obtain ⟨rfl, next⟩ := answer
    cases result with
    | error exception => exact .error _
    | ok value => exact .ok ⟨rfl, next⟩

theorem writeByte_follows (addr value : Word) :
    Lockstep (Machine.Follows origin) (writeByte left addr value)
      (writeByte right addr value) := by
  have written := same.writeMem addr (Or.inl rfl) value
  unfold writeByte
  generalize left.writeMem addr 1 value = first at written ⊢
  generalize right.writeMem addr 1 value = second at written ⊢
  cases written with
  | error fault => exact .error _
  | @ok leftPair rightPair answer =>
    obtain ⟨result, leftNext⟩ := leftPair
    obtain ⟨_, rightNext⟩ := rightPair
    obtain ⟨rfl, next⟩ := answer
    cases result with
    | error exception => exact .error _
    | ok done => exact .ok next

theorem copyIn_follows (remaining : Nat) (virtAddr : Word) :
    Lockstep (SameAnswer (Machine.Follows origin))
      (copyIn left remaining virtAddr)
      (copyIn right remaining virtAddr) := by
  induction remaining generalizing left right virtAddr with
  | zero => exact .ok ⟨rfl, same⟩
  | succ remaining ih =>
    refine Lockstep.bind (readByte_follows same virtAddr) ?_
    rintro ⟨oneChar, leftNext⟩ ⟨_, rightNext⟩ ⟨rfl, next⟩
    dsimp only
    split_ifs with isNul
    · exact .ok ⟨rfl, next⟩
    · refine Lockstep.bind (ih next _) ?_
      rintro ⟨characters, leftLast⟩ ⟨_, rightLast⟩ ⟨rfl, last⟩
      exact .ok ⟨rfl, last⟩

theorem user2System_follows
    (platform : Platform World) (world : World) (virtAddr : Word) (limit : Int) :
    Lockstep (SameAnswer (Machine.Follows origin))
      (user2System platform world left virtAddr limit)
      (user2System platform world right virtAddr limit) := by
  refine Lockstep.bind (Lockstep.same _) ?_
  rintro allocated _ rfl
  cases allocated with
  | true =>
    refine Lockstep.bind (copyIn_follows same _ _) ?_
    rintro ⟨characters, leftNext⟩ ⟨_, rightNext⟩ ⟨rfl, next⟩
    exact .ok ⟨rfl, next⟩
  | false => exact .ok ⟨rfl, same⟩

theorem copyOut_follows
    (remaining : Nat) (virtAddr : Word) (buffer : List Byte) :
    Lockstep (SameAnswer (Machine.Follows origin))
      (copyOut left remaining virtAddr buffer)
      (copyOut right remaining virtAddr buffer) := by
  induction remaining generalizing left right virtAddr buffer with
  | zero => exact .ok ⟨rfl, same⟩
  | succ remaining ih =>
    refine Lockstep.bind (writeByte_follows same _ _) ?_
    intro leftNext rightNext next
    split_ifs with isNul
    · exact .ok ⟨rfl, next⟩
    · refine Lockstep.bind (ih next _ _) ?_
      rintro ⟨count, leftLast⟩ ⟨_, rightLast⟩ ⟨rfl, last⟩
      exact .ok ⟨rfl, last⟩

theorem system2User_follows
    (buffer : List Byte) (virtAddr : Word) (limit : Int) :
    Lockstep (SameAnswer (Machine.Follows origin))
      (system2User left buffer virtAddr limit)
      (system2User right buffer virtAddr limit) := by
  unfold system2User
  split_ifs with negative nothing
  · exact .ok ⟨rfl, same⟩
  · exact .ok ⟨rfl, same⟩
  · refine Lockstep.bind (copyOut_follows same _ _ _) ?_
    rintro ⟨count, leftNext⟩ ⟨_, rightNext⟩ ⟨rfl, next⟩
    exact .ok ⟨rfl, next⟩

end Copies

/-! ## The handlers -/

section Handlers

variable {platform : Platform World} {origin left right : Machine}
  {fileSystem : Stub.FileSystem World}
  (same : Machine.Follows origin left right)

include same

theorem increasePC_follows :
    Machine.Follows origin (increasePC left) (increasePC right) := by
  unfold increasePC
  rw [same.registers]
  exact ((same.set _ _).set _ _).set _ _

theorem proceed_follows (fileSystem : Stub.FileSystem World) :
    State.Follows origin (State.proceed ⟨left, fileSystem⟩)
      (State.proceed ⟨right, fileSystem⟩) :=
  ⟨increasePC_follows same, rfl⟩

theorem answer_follows
    (fileSystem : Stub.FileSystem World) (result : Int) :
    State.Follows origin (State.answer ⟨left, fileSystem⟩ result)
      (State.answer ⟨right, fileSystem⟩ result) :=
  ⟨increasePC_follows (same.set _ _), rfl⟩

theorem argument_follows
    (fileSystem : Stub.FileSystem World) (num : Fin numGPRegs) :
    State.argument ⟨right, fileSystem⟩ num =
      State.argument ⟨left, fileSystem⟩ num := by
  unfold State.argument
  rw [same.operand]

theorem withString_follows
    (limit : Int)
    (call : List Byte → Stub.FileSystem World →
      Except Stub.Abort (Int × Stub.FileSystem World)) :
    Lockstep (State.Follows origin)
      (withString platform limit call ⟨left, fileSystem⟩)
      (withString platform limit call ⟨right, fileSystem⟩) := by
  unfold withString
  simp only [same.operand]
  refine Lockstep.bind (user2System_follows same _ _ _ _) ?_
  rintro ⟨buffer, leftNext⟩ ⟨_, rightNext⟩ ⟨rfl, next⟩
  cases buffer with
  | none => exact .ok (answer_follows next _ _)
  | some bytes =>
    refine Lockstep.bind (Lockstep.same _) ?_
    rintro ⟨result, after⟩ _ rfl
    exact .ok (answer_follows next _ _)

theorem withResult_follows
    (call : Stub.FileSystem World →
      Except Stub.Abort (Int × Stub.FileSystem World)) :
    Lockstep (State.Follows origin) (withResult call ⟨left, fileSystem⟩)
      (withResult call ⟨right, fileSystem⟩) := by
  refine Lockstep.bind (Lockstep.same _) ?_
  rintro ⟨result, after⟩ _ rfl
  exact .ok (answer_follows same _ _)

theorem solveRead_follows :
    Lockstep (State.Follows origin) (solveRead platform ⟨left, fileSystem⟩)
      (solveRead platform ⟨right, fileSystem⟩) := by
  unfold solveRead
  simp only [same.operand, argument_follows same]
  refine Lockstep.bind (Lockstep.same _) ?_
  rintro allocated _ rfl
  cases allocated with
  | true =>
    refine Lockstep.bind (Lockstep.same _) ?_
    rintro ⟨result, buffer, after⟩ _ rfl
    refine Lockstep.bind (system2User_follows same _ _ _) ?_
    rintro ⟨count, leftNext⟩ ⟨_, rightNext⟩ ⟨rfl, next⟩
    exact .ok (answer_follows next _ _)
  | false => exact .ok (answer_follows same _ _)

theorem solveReadString_follows :
    Lockstep (State.Follows origin)
      (solveReadString platform ⟨left, fileSystem⟩)
      (solveReadString platform ⟨right, fileSystem⟩) := by
  unfold solveReadString
  simp only [same.operand, argument_follows same, State.world]
  split_ifs with allocated negative
  · exact .error _
  · refine Lockstep.bind (system2User_follows same _ _ _) ?_
    rintro ⟨count, leftNext⟩ ⟨_, rightNext⟩ ⟨rfl, next⟩
    exact .ok (proceed_follows next _)
  · exact .ok ⟨same, rfl⟩

theorem solvePrintString_follows :
    Lockstep (State.Follows origin)
      (solvePrintString platform ⟨left, fileSystem⟩)
      (solvePrintString platform ⟨right, fileSystem⟩) := by
  unfold solvePrintString
  simp only [same.operand]
  refine Lockstep.bind (user2System_follows same _ _ _ _) ?_
  rintro ⟨buffer, leftNext⟩ ⟨_, rightNext⟩ ⟨rfl, next⟩
  cases buffer with
  | none => exact .ok (proceed_follows next _)
  | some bytes => exact .ok (proceed_follows next _)

theorem solveReadNum_follows :
    Lockstep (State.Follows origin) (solveReadNum platform ⟨left, fileSystem⟩)
      (solveReadNum platform ⟨right, fileSystem⟩) := by
  refine Lockstep.bind (Lockstep.same _) ?_
  rintro ⟨result, world⟩ _ rfl
  exact .ok (answer_follows same _ _)

theorem solvePrintNum_follows :
    Lockstep (State.Follows origin) (solvePrintNum platform ⟨left, fileSystem⟩)
      (solvePrintNum platform ⟨right, fileSystem⟩) := by
  unfold solvePrintNum
  simp only [argument_follows same]
  refine Lockstep.bind (Lockstep.same _) ?_
  rintro world _ rfl
  exact .ok (proceed_follows same _)

theorem solve_follows (code : SyscallCode) :
    Lockstep (State.Follows origin) (solve platform ⟨left, fileSystem⟩ code)
      (solve platform ⟨right, fileSystem⟩ code) := by
  cases code with
  | halt => exact .error _
  | create => exact withString_follows same _ _
  | remove =>
    simp only [solve, solveRemove]
    exact withString_follows same _ _
  | openFile =>
    simp only [solve, solveOpen, argument_follows same]
    exact withString_follows same _ _
  | write =>
    simp only [solve, solveWrite, argument_follows same]
    exact withString_follows same _ _
  | seek =>
    simp only [solve, solveSeek, argument_follows same]
    exact withResult_follows same _
  | close =>
    simp only [solve, solveClose, argument_follows same]
    exact withResult_follows same _
  | threadJoin => exact .ok (proceed_follows same _)
  | add =>
    simp only [solve, solveAdd, argument_follows same]
    exact .ok (answer_follows same _ _)
  | randomNum | readChar => exact .ok (answer_follows same _ _)
  | printChar =>
    simp only [solve, solvePrintChar, same.operand]
    exact .ok (proceed_follows same _)
  | read => exact solveRead_follows same
  | readString => exact solveReadString_follows same
  | printString => exact solvePrintString_follows same
  | readNum => exact solveReadNum_follows same
  | printNum => exact solvePrintNum_follows same

theorem exceptionHandler_follows (which : ExceptionType) :
    Lockstep (State.Follows origin)
      (exceptionHandler platform which ⟨left, fileSystem⟩)
      (exceptionHandler platform which ⟨right, fileSystem⟩) := by
  cases which with
  | syscallException =>
    simp only [exceptionHandler, argument_follows same]
    cases SyscallCode.ofInt (State.argument ⟨left, fileSystem⟩ r2) with
    | none => exact .error _
    | some code => exact solve_follows same code
  | _ => exact .error _

theorem handle_follows (exception : Option ExceptionType) :
    Lockstep (State.Follows origin)
      (handle platform ⟨left, fileSystem⟩ exception)
      (handle platform ⟨right, fileSystem⟩ exception) := by
  cases exception with
  | none => exact .ok ⟨same, rfl⟩
  | some which => exact exceptionHandler_follows same which

end Handlers

/-! ## Whole runs -/

section Runs

variable (platform : Platform World)

theorem liftFault_lockstep
    {Result : Type} {related : Result → Result → Prop}
    {first second : Except Fault Result}
    (lockstep : Lockstep related first second) :
    Lockstep related (liftFault first) (liftFault second) := by
  cases lockstep with
  | ok isRelated => exact .ok isRelated
  | error fault => exact .error _

/-- One round of `Machine::Run` does the same on both machines. -/
theorem oneRound_follows
    {origin : Machine} {left right : State World}
    (same : State.Follows origin left right) (interrupted : Bool) :
    Lockstep (State.Follows origin) (oneRound platform interrupted left)
      (oneRound platform interrupted right) := by
  obtain ⟨leftMachine, fileSystem⟩ := left
  obtain ⟨rightMachine, _⟩ := right
  obtain ⟨machines, rfl⟩ := same
  unfold oneRound
  refine Lockstep.bind (liftFault_lockstep machines.oneInstruction) ?_
  rintro ⟨leftNext, exception⟩ ⟨rightNext, _⟩ ⟨next, rfl⟩
  refine Lockstep.bind (handle_follows next exception) ?_
  intro leftState rightState states
  refine Lockstep.bind
    (liftFault_lockstep (states.machine.interruptedIf interrupted)) ?_
  intro leftLast rightLast last
  exact .ok ⟨last, states.fileSystem⟩

theorem oneRound_sameView
    {left right : State World} (same : left.SameView right)
    (interrupted : Bool) :
    Lockstep State.SameView (oneRound platform interrupted left)
      (oneRound platform interrupted right) := by
  have follows : State.Follows left.machine left right :=
    ⟨⟨same.machine, Confined.refl _⟩, same.fileSystem⟩
  refine (oneRound_follows platform follows interrupted).mono ?_
  intro leftNext rightNext next
  exact ⟨next.machine.toSameView, next.fileSystem⟩

variable {platform}

theorem Elsewhere.sameView
    {left next right : State World} (same : left.SameView right)
    (elsewhere : Elsewhere left next) : next.SameView right := by
  obtain ⟨memory, unchanged, rfl⟩ := elsewhere
  refine ⟨⟨same.machine.registers, ?_, same.machine.admits,
    same.machine.leftReady, same.machine.rightReady, same.machine.shares⟩,
    same.fileSystem⟩
  rw [← same.machine.bytes]
  funext addr
  unfold byteAt
  cases seen : left.machine.translation.physical addr false with
  | none => rfl
  | some place => exact congrArg some (unchanged addr place seen)

theorem State.SameView.symm
    {left right : State World} (same : left.SameView right) :
    right.SameView left :=
  ⟨⟨same.machine.registers.symm, same.machine.bytes.symm,
    same.machine.admits.symm, same.machine.rightReady, same.machine.leftReady,
    same.machine.shares.symm⟩, same.fileSystem.symm⟩

/-- A run of a program does not depend on the frames that its pages are in, nor
on what others do in the other frames between its instructions. -/
theorem run_sameView
    {left right : State World} (same : left.SameView right)
    {schedule : List Bool} {leftResult rightResult : Except Stop (State World)}
    (first : Interleaved (oneRound platform) Elsewhere schedule left leftResult)
    (second :
      Interleaved (oneRound platform) Elsewhere schedule right rightResult) :
    Lockstep State.SameView leftResult rightResult := by
  refine first.lockstep ?_ ?_ ?_ same second
  · intro interrupted left right same
    exact oneRound_sameView platform same interrupted
  · intro left next right same elsewhere
    exact elsewhere.sameView same
  · intro left right next same elsewhere
    exact (elsewhere.sameView same.symm).symm

def inFrame (pageFrame : Nat) (program : List Byte) : Machine :=
  initRegisters
    { registers := fun _ => 0
      mainMemory := fun address =>
        if pageFrame * pageSize ≤ address then
          program.getD (address - pageFrame * pageSize) 0
        else
          0
      translation := {
        tlb := none
        pageTable := some (PageTable.single
          ⟨0, BitVec.ofNat 32 pageFrame, true, false, false, false⟩) } } 1

/-- `addiu $2, $0, 49`, `addiu $4, $0, 72`, `syscall`, `sb $4, 64($0)`: print a
character and store it. -/
def printAndStore : List Byte :=
  [0x31, 0x00, 0x02, 0x24, 0x48, 0x00, 0x04, 0x24, 0x0c, 0x00, 0x00, 0x00,
    0x40, 0x00, 0x04, 0xa0]

theorem frameOf_inFrame {pageFrame : Nat} (inside : pageFrame < numPhysPages)
    (program : List Byte) (vpn : Nat) (writing : Bool) :
    Translation.frameOf (inFrame pageFrame program).translation.settings vpn
        writing =
      if vpn < 1 then .ok pageFrame else .error .addressErrorException := by
  unfold numPhysPages at inside
  have number : (BitVec.ofNat 32 pageFrame).toNat = pageFrame :=
    Nat.mod_eq_of_lt (by omega)
  have fits : ¬128 ≤ pageFrame := by omega
  rcases vpn with _ | vpn
  · simp [inFrame, initRegisters, Machine.set, PageTable.single,
      Translation.settings, Translation.frameOf, TranslationEntry.touch,
      TranslationEntry.frame, numPhysPages, number, fits]
  · rfl

theorem inFrame_separate
    {pageFrame : Nat} (inside : pageFrame < numPhysPages)
    (program : List Byte) :
    (inFrame pageFrame program).translation.Separate := by
  intro first second shared firstFound secondFound
  rw [frameOf_inFrame inside] at firstFound secondFound
  split_ifs at firstFound with isFirst
  split_ifs at secondFound with isSecond
  exact (Nat.lt_one_iff.mp isFirst).trans (Nat.lt_one_iff.mp isSecond).symm

theorem physical_inFrame
    {pageFrame place : Nat} (inside : pageFrame < numPhysPages)
    {program : List Byte} {addr : Word} {writing : Bool}
    (mapped : (inFrame pageFrame program).translation.physical addr writing =
      some place) :
    place / pageSize = pageFrame := by
  obtain ⟨found, isFrame, rfl⟩ := Translation.physical_eq_some_iff.mp mapped
  rw [frameOf_inFrame inside] at isFrame
  split_ifs at isFrame
  cases isFrame
  unfold pageSize
  omega

theorem inFrame_sameView {pageFrame other : Nat}
    (inside : pageFrame < numPhysPages) (otherInside : other < numPhysPages)
    (program : List Byte) :
    (inFrame pageFrame program).SameView (inFrame other program) := by
  have found := frameOf_inFrame inside program
  have otherFound := frameOf_inFrame otherInside program
  refine SameView.of_separate rfl ?_ ?_ rfl rfl (inFrame_separate inside program)
    (inFrame_separate otherInside program)
  · funext addr
    unfold byteAt Translation.physical
    rw [found, otherFound]
    split_ifs with isPage
    · refine congrArg some ?_
      show (if _ then _ else _) = (if _ then _ else _)
      rw [if_pos (Nat.le_add_right _ _), if_pos (Nat.le_add_right _ _),
        Nat.add_sub_cancel_left, Nat.add_sub_cancel_left]
    · rfl
  · funext addr writing
    unfold Translation.admits
    rw [found, otherFound]
    split_ifs <;> rfl

def startIn (pageFrame : Nat) : State Stub.SmallWorld :=
  ⟨inFrame pageFrame printAndStore, (smallCall 0 0 0).fileSystem⟩

theorem elsewhere_refl (state : State World) : Elsewhere state state :=
  ⟨_, fun _ _ _ => rfl, rfl⟩

/-- In frame 0 and in frame 7, with an interrupt before the system call. -/
theorem run_sameView_of_print :
    ∃ first second : State Stub.SmallWorld,
      Interleaved (oneRound smallPlatform) Elsewhere
        [false, true, false, false] (startIn 0) (.ok first) ∧
      Interleaved (oneRound smallPlatform) Elsewhere
        [false, true, false, false] (startIn 7) (.ok second) ∧
      first.machine.mainMemory 64 = 72 ∧
      Lockstep State.SameView (.ok first : Except Stop _) (.ok second) := by
  have same : (startIn 0).SameView (startIn 7) :=
    ⟨inFrame_sameView (by decide) (by decide) _, rfl⟩
  have onLeft : Interleaved (oneRound smallPlatform) Elsewhere
      [false, true, false, false] (startIn 0) (.ok _) :=
    .next rfl (elsewhere_refl _) (.next rfl (elsewhere_refl _)
      (.next rfl (elsewhere_refl _) (.next rfl (elsewhere_refl _) (.done _))))
  have onRight : Interleaved (oneRound smallPlatform) Elsewhere
      [false, true, false, false] (startIn 7) (.ok _) :=
    .next rfl (elsewhere_refl _) (.next rfl (elsewhere_refl _)
      (.next rfl (elsewhere_refl _) (.next rfl (elsewhere_refl _) (.done _))))
  exact ⟨_, _, onLeft, onRight, rfl, run_sameView same onLeft onRight⟩

/-- A run of a program changes no setting of its tables, and no byte that it
has not mapped: what is in other frames is seen as before. -/
theorem run_confined
    {state last : State World} (ready : state.machine.translation.Ready)
    {schedule : List Bool}
    (run : Interleaved (oneRound platform) Eq schedule state (.ok last))
    {other : Machine} (memory : other.mainMemory = state.machine.mainMemory)
    (apart : ∀ addr otherAddr place,
      state.machine.translation.physical addr false = some place →
      other.translation.physical otherAddr false ≠ some place) :
    last.machine.translation.settings = state.machine.translation.settings ∧
      byteAt { other with mainMemory := last.machine.mainMemory } =
        other.byteAt := by
  -- Every state of the run follows itself, which says what it has left alone.
  have start : State.Follows state.machine state state :=
    ⟨⟨SameView.refl ready, Confined.refl _⟩, rfl⟩
  have follows : State.Follows state.machine last last := by
    refine run.invariant (fun reached =>
      State.Follows state.machine reached reached) ?_ ?_ start rfl
    · intro interrupted before after holds taken
      have together := oneRound_follows platform holds interrupted
      rw [taken] at together
      cases together with
      | ok next => exact next
    · rintro before _ holds rfl
      exact holds
  obtain ⟨settings, mapped⟩ := follows.machine.confined
  refine ⟨settings, ?_⟩
  funext otherAddr
  unfold byteAt
  cases seen : other.translation.physical otherAddr false with
  | none => rfl
  | some place =>
    refine congrArg some ?_
    by_contra changed
    rw [memory] at changed
    obtain ⟨addr, isAddr⟩ := mapped place changed
    exact apart addr otherAddr place isAddr seen

/-- The program in frame 0 leaves what is in frame 7 alone. -/
theorem run_confined_of_print :
    ∃ last : State Stub.SmallWorld,
      Interleaved (oneRound smallPlatform) Eq [false, true, false, false]
        (startIn 0) (.ok last) ∧
      last.machine.translation.settings =
        (startIn 0).machine.translation.settings ∧
      byteAt { (startIn 7).machine with
          mainMemory := last.machine.mainMemory } =
        byteAt { (startIn 7).machine with
          mainMemory := (startIn 0).machine.mainMemory } := by
  have run : Interleaved (oneRound smallPlatform) Eq
      [false, true, false, false] (startIn 0) (.ok _) :=
    .next rfl rfl (.next rfl rfl (.next rfl rfl (.next rfl rfl (.done _))))
  have ready : (startIn 0).machine.translation.Ready := rfl
  refine ⟨_, run, @run_confined _ _ _ _ ready _ run
    { (startIn 7).machine with
      mainMemory := (startIn 0).machine.mainMemory } rfl ?_⟩
  intro addr otherAddr place here there
  have first : place / pageSize = 0 := physical_inFrame (by decide) here
  have second : place / pageSize = 7 := physical_inFrame (by decide) there
  omega

end Runs

end Nachos.Userprog
