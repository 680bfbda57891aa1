import Nachos.Userprog.Exception

/-!
# How system calls return
-/

namespace Nachos.Userprog

open Foundation Machine

variable {World : Type}

def Completes (before after : Machine) : Prop :=
  ∃ middle, Kept before middle ∧
    (after = increasePC middle ∨
      ∃ value, after = increasePC (middle.set (gpr r2) value))

section Exits

variable {platform : Platform World} {state next : State World}

theorem completes_proceed
    {before : Machine} (kept : Kept before state.machine) :
    Completes before state.proceed.machine :=
  ⟨state.machine, kept, Or.inl rfl⟩

theorem completes_answer
    {before : Machine} (kept : Kept before state.machine) (result : Int) :
    Completes before (state.answer result).machine :=
  ⟨state.machine, kept, Or.inr ⟨_, rfl⟩⟩

theorem withString_completes
    {limit : Int}
    {call : List Byte → Stub.FileSystem World →
      Except Stub.Abort (Int × Stub.FileSystem World)}
    (returned : withString platform limit call state = .ok next) :
    Completes state.machine next.machine := by
  obtain ⟨⟨buffer, machine⟩, copied, returned⟩ := exists_of_bind_eq_ok returned
  have kept := user2System_kept copied
  cases buffer with
  | none =>
    cases returned
    exact completes_answer kept (-1)
  | some bytes =>
    obtain ⟨⟨result, fileSystem⟩, -, returned⟩ := exists_of_bind_eq_ok returned
    cases returned
    exact completes_answer kept result

theorem withResult_completes
    {call : Stub.FileSystem World →
      Except Stub.Abort (Int × Stub.FileSystem World)}
    (returned : withResult call state = .ok next) :
    Completes state.machine next.machine := by
  obtain ⟨⟨result, fileSystem⟩, -, returned⟩ := exists_of_bind_eq_ok returned
  cases returned
  exact completes_answer (Kept.refl _) result

theorem solvePrintString_completes
    (returned : solvePrintString platform state = .ok next) :
    Completes state.machine next.machine := by
  obtain ⟨⟨buffer, machine⟩, copied, returned⟩ := exists_of_bind_eq_ok returned
  have kept := user2System_kept copied
  cases buffer with
  | none =>
    cases returned
    exact completes_proceed kept
  | some bytes =>
    cases returned
    exact completes_proceed kept

theorem solveReadNum_completes
    (returned : solveReadNum platform state = .ok next) :
    Completes state.machine next.machine := by
  obtain ⟨⟨result, world⟩, -, returned⟩ := exists_of_bind_eq_ok returned
  cases returned
  exact completes_answer (Kept.refl _) result

theorem solvePrintNum_completes
    (returned : solvePrintNum platform state = .ok next) :
    Completes state.machine next.machine := by
  obtain ⟨world, -, returned⟩ := exists_of_bind_eq_ok returned
  cases returned
  exact completes_proceed (Kept.refl _)

theorem solveRead_completes
    (returned : solveRead platform state = .ok next) :
    Completes state.machine next.machine := by
  simp only [solveRead] at returned
  obtain ⟨allocated, -, returned⟩ := exists_of_bind_eq_ok returned
  cases allocated with
  | true =>
    obtain ⟨⟨result, buffer, fileSystem⟩, -, returned⟩ :=
      exists_of_bind_eq_ok returned
    obtain ⟨⟨_, machine⟩, copied, returned⟩ := exists_of_bind_eq_ok returned
    have kept : Kept state.machine machine := system2User_kept copied
    cases returned
    exact completes_answer kept result
  | false =>
    cases returned
    exact completes_answer (Kept.refl _) (-1)

def MallocFails (platform : Platform World) (state : State World) : Prop :=
  SyscallCode.ofInt (state.argument r2) = some .readString ∧
    platform.malloc (stringSize (state.argument r5)) state.world = false

theorem solveReadString_cases
    (returned : solveReadString platform state = .ok next) :
    (platform.malloc (stringSize (state.argument r5)) state.world = true ∧
        Completes state.machine next.machine) ∨
      (platform.malloc (stringSize (state.argument r5)) state.world = false ∧
        next = state) := by
  simp only [solveReadString] at returned
  split_ifs at returned with allocated negative
  · obtain ⟨⟨_, machine⟩, copied, returned⟩ := exists_of_bind_eq_ok returned
    have kept : Kept state.machine machine := system2User_kept copied
    cases returned
    exact Or.inl ⟨allocated, completes_proceed kept⟩
  · cases returned
    exact Or.inr ⟨Bool.eq_false_iff.mpr allocated, rfl⟩

theorem solve_completes
    {code : SyscallCode} (notReadString : code ≠ .readString)
    (returned : solve platform state code = .ok next) :
    Completes state.machine next.machine := by
  cases code with
  | halt => cases returned
  | create | openFile | write => exact withString_completes returned
  | remove =>
    unfold solve solveRemove at returned
    exact withString_completes returned
  | read => exact solveRead_completes returned
  | seek | close => exact withResult_completes returned
  | threadJoin | printChar =>
    cases returned
    exact completes_proceed (Kept.refl _)
  | add | randomNum | readChar =>
    cases returned
    exact completes_answer (Kept.refl _) _
  | readString => exact absurd rfl notReadString
  | printString => exact solvePrintString_completes returned
  | readNum => exact solveReadNum_completes returned
  | printNum => exact solvePrintNum_completes returned

/-- A handler that returns has completed, or `malloc` failed in it. -/
theorem solve_cases
    {code : SyscallCode} (returned : solve platform state code = .ok next) :
    Completes state.machine next.machine ∧
        (code = .readString →
          platform.malloc (stringSize (state.argument r5)) state.world = true) ∨
      (code = .readString ∧
        platform.malloc (stringSize (state.argument r5)) state.world = false ∧
        next = state) := by
  by_cases isReadString : code = .readString
  · subst isReadString
    rcases solveReadString_cases returned with
      ⟨allocated, completes⟩ | ⟨failed, same⟩
    · exact Or.inl ⟨completes, fun _ => allocated⟩
    · exact Or.inr ⟨rfl, failed, same⟩
  · exact Or.inl ⟨solve_completes isReadString returned,
      fun reads => absurd reads isReadString⟩

structure Advanced (before after : Machine) : Prop where
  prevPC : after.registers prevPCReg = before.registers pcReg
  pc : after.registers pcReg = before.registers nextPCReg
  nextPC : after.registers nextPCReg = before.registers nextPCReg + 4
  general : ∀ num : Fin numGPRegs, num ≠ r2 →
    after.registers (gpr num) = before.registers (gpr num)

theorem increasePC_general (machine : Machine) (num : Fin numGPRegs) :
    (increasePC machine).registers (gpr num) =
      machine.registers (gpr num) := by
  unfold increasePC
  rw [set_of_ne _ (gpr_ne num (by decide)), set_of_ne _ (gpr_ne num (by decide)),
    set_of_ne _ (gpr_ne num (by decide))]

theorem advanced_increasePC
    {before machine : Machine}
    (pc : machine.registers pcReg = before.registers pcReg)
    (nextPC : machine.registers nextPCReg = before.registers nextPCReg)
    (general : ∀ num, num ≠ r2 →
      machine.registers (gpr num) = before.registers (gpr num)) :
    Advanced before (increasePC machine) where
  prevPC := by
    unfold increasePC
    rw [set_of_ne _ (by decide), set_of_ne _ (by decide), set_self]
    exact pc
  pc := by
    unfold increasePC
    rw [set_of_ne _ (by decide), set_self]
    exact nextPC
  nextPC := by
    unfold increasePC
    rw [set_self, nextPC]
  general := by
    intro num notResult
    rw [increasePC_general]
    exact general num notResult

theorem Completes.advanced
    {before after : Machine} (completes : Completes before after) :
    Advanced before after := by
  obtain ⟨middle, kept, rfl | ⟨value, rfl⟩⟩ := completes
  · apply advanced_increasePC
    · rw [kept.registers]
    · rw [kept.registers]
    · intro num _
      rw [kept.registers]
  · apply advanced_increasePC
    · rw [set_of_ne _ (by decide), kept.registers]
    · rw [set_of_ne _ (by decide), kept.registers]
    · intro num notResult
      rw [set_of_ne _ (gpr_injective.ne notResult), kept.registers]

theorem not_advanced_self (machine : Machine) : ¬Advanced machine machine := by
  intro advanced
  have same := advanced.nextPC
  bv_omega

/-- A system call that returns has advanced the program counters once and
changed no general register but register 2, exactly if it is not a
`SC_ReadString` for which `malloc` failed. -/
theorem syscall_advances_iff
    (returned : exceptionHandler platform .syscallException state = .ok next) :
    Advanced state.machine next.machine ↔ ¬MallocFails platform state := by
  unfold exceptionHandler at returned
  dsimp only at returned
  cases isCode : SyscallCode.ofInt (state.argument r2) with
  | none =>
    rw [isCode] at returned
    cases returned
  | some code =>
    rw [isCode] at returned
    unfold MallocFails
    rw [isCode]
    rcases solve_cases returned with
      ⟨completes, allocates⟩ | ⟨isReadString, failed, same⟩
    · refine iff_of_true completes.advanced ?_
      rintro ⟨isReadString, failed⟩
      rw [allocates (Option.some.inj isReadString)] at failed
      cases failed
    · rw [same, isReadString]
      exact iff_of_false (not_advanced_self _) (not_not.mpr ⟨rfl, failed⟩)

theorem Completes.run
    {before after : Machine} (completes : Completes before after)
    (ready : before.translation.Ready) :
    ∃ events, processor.Run before events after := by
  obtain ⟨middle, kept, exits⟩ := completes
  have sameMachine : middle = { before with
      mainMemory := middle.mainMemory
      translation := middle.translation } := by
    rw [← kept.registers]
  have accessed : processor.Run before
      ([] ++ [.memory middle.mainMemory middle.translation]) middle :=
    .snoc (.nil before) ⟨kept.ready ready, congrArg Except.ok sameMachine.symm⟩
  have write : ∀ {events : List ProcessorEvent} {source : Machine}
      (num : Fin numTotalRegs) (value : Word),
      num ∈ ProcessorEvent.handlerRegisters →
      processor.Run before events source →
      processor.Run before (events ++ [.writeRegister num value])
        (source.set num value) :=
    fun num value isHandlers run => .snoc run ⟨isHandlers, rfl⟩
  have advances : ∀ {events : List ProcessorEvent} {machine : Machine},
      processor.Run before events machine →
      ∃ events, processor.Run before events (increasePC machine) := by
    intro events machine run
    exact ⟨_, write nextPCReg _ (by decide)
      (write pcReg _ (by decide) (write prevPCReg _ (by decide) run))⟩
  rcases exits with rfl | ⟨value, rfl⟩
  · exact advances accessed
  · exact advances (write (gpr r2) value (by decide) accessed)

theorem syscall_run
    (returned : exceptionHandler platform .syscallException state = .ok next)
    (ready : state.machine.translation.Ready) :
    ∃ events, processor.Run state.machine events next.machine := by
  unfold exceptionHandler at returned
  dsimp only at returned
  cases isCode : SyscallCode.ofInt (state.argument r2) with
  | none =>
    rw [isCode] at returned
    cases returned
  | some code =>
    rw [isCode] at returned
    rcases solve_cases returned with ⟨completes, -⟩ | ⟨-, -, same⟩
    · exact completes.run ready
    · rw [same]
      exact ⟨[], .nil _⟩

end Exits

/-- `Stub.smallHost` with a C library that cannot allocate half of memory. -/
def smallPlatform : Platform Stub.SmallWorld where
  toHost := Stub.smallHost
  malloc size _ := decide (size < 2 ^ 31)
  newChars _ _ := .allocated
  garbage _ _ := 0
  rand world := (0, world)

def smallCall (code first second : Word) : State Stub.SmallWorld where
  machine := ((((onePage (fun _ => 0) false).initRegisters 1).set (gpr r2)
    code).set (gpr r4) first).set (gpr r5) second
  fileSystem := ⟨List.replicate Stub.FileSystem.maxFile Stub.Slot.empty,
    ⟨.initial, []⟩⟩

/-- `SC_Add` of 2 and 3. -/
theorem syscall_advances_of_add :
    ∃ next, exceptionHandler smallPlatform .syscallException
        (smallCall 42 2 3) = .ok next ∧
      Advanced (smallCall 42 2 3).machine next.machine ∧
      next.machine.operand r2 = 5 := by
  have returned : exceptionHandler smallPlatform .syscallException
      (smallCall 42 2 3) = .ok ((smallCall 42 2 3).answer 5) := rfl
  refine ⟨_, returned, (syscall_advances_iff returned).mpr ?_, rfl⟩
  rintro ⟨isReadString, -⟩
  cases isReadString

/-- `SC_ReadString` of -2 characters: `malloc(-1)` fails, and the handler
returns with nothing changed, so the system call is executed again. -/
theorem readString_repeats :
    exceptionHandler smallPlatform .syscallException
        (smallCall 44 0 (-2)) = .ok (smallCall 44 0 (-2)) ∧
      ¬Advanced (smallCall 44 0 (-2)).machine (smallCall 44 0 (-2)).machine :=
  ⟨rfl, not_advanced_self _⟩

end Nachos.Userprog
