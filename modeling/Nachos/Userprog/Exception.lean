import Nachos.Machine.CpuRuns
import Nachos.Userprog.Ksyscall

/-!
# The exception handler

`ExceptionHandler` of `userprog/exception.cc` and the seventeen handlers behind
it.  A handler returns to the machine with a new state, or it does not return:
it halts Nachos, fails an `ASSERT`, or throws.
-/

namespace Nachos.Userprog

open Foundation Machine

variable {World : Type}

structure State (World : Type) where
  machine : Machine
  fileSystem : Stub.FileSystem World

def r2 : Fin numGPRegs := ⟨2, by decide⟩

def r4 : Fin numGPRegs := ⟨4, by decide⟩

def r5 : Fin numGPRegs := ⟨5, by decide⟩

def r6 : Fin numGPRegs := ⟨6, by decide⟩

def maxString : Int := 2048

def increasePC (machine : Machine) : Machine :=
  ((machine.set prevPCReg (machine.registers pcReg)).set pcReg
    (machine.registers nextPCReg)).set nextPCReg
      (machine.registers nextPCReg + 4)

def liftFault {Result : Type} : Except Fault Result → Except Stop Result
  | .ok result => .ok result
  | .error fault => .error (.fault fault)

def liftAbort {Result : Type} : Except Stub.Abort Result → Except Stop Result
  | .ok result => .ok result
  | .error abort => .error (.abort abort)

namespace State

variable (state : State World)

def argument (num : Fin numGPRegs) : Int :=
  (state.machine.operand num).toInt

def world : World :=
  state.fileSystem.host.world

def withWorld (world : World) : State World :=
  { state with fileSystem := { state.fileSystem with
      host := { state.fileSystem.host with world := world } } }

def proceed : State World :=
  { state with machine := increasePC state.machine }

def answer (result : Int) : State World :=
  { state with machine :=
      increasePC (state.machine.set (gpr r2) (BitVec.ofInt 32 result)) }

end State

/-! ## Handlers -/

/-- A handler that passes a string from user memory on to the file system. -/
def withString (platform : Platform World) (limit : Int)
    (call : List Byte → Stub.FileSystem World →
      Except Stub.Abort (Int × Stub.FileSystem World))
    (state : State World) : Except Stop (State World) := do
  let (buffer, machine) ← user2System platform state.world state.machine
    (state.machine.operand r4) limit
  match buffer with
  | none => return State.answer ⟨machine, state.fileSystem⟩ (-1)
  | some bytes => do
    let (result, fileSystem) ← liftAbort (call bytes state.fileSystem)
    return State.answer ⟨machine, fileSystem⟩ result

def withResult
    (call : Stub.FileSystem World →
      Except Stub.Abort (Int × Stub.FileSystem World))
    (state : State World) : Except Stop (State World) := do
  let (result, fileSystem) ← liftAbort (call state.fileSystem)
  return State.answer ⟨state.machine, fileSystem⟩ result

section Handlers

variable (platform : Platform World) (state : State World)

def solveHalt : Except Stop (State World) :=
  .error .halt

def solveThreadJoin : Except Stop (State World) :=
  .ok state.proceed

def solveAdd : Except Stop (State World) :=
  .ok (state.answer (sysAdd (state.argument r4) (state.argument r5)))

def solveRandomNum : Except Stop (State World) :=
  let (number, world) := sysRandomNum platform state.world
  .ok ((state.withWorld world).answer number)

/-- The `size_t` that `malloc(length + 1)` is called with. -/
def stringSize (length : Int) : Nat :=
  (wrap (length + 1) % 2 ^ 32).toNat

/-- `solve_SC_ReadString`.  If `malloc` fails it returns at once.  A negative
`length` for which it does not fail makes `SysReadString` store its NUL before
the buffer. -/
def solveReadString : Except Stop (State World) :=
  let length := state.argument r5
  if platform.malloc (stringSize length) state.world then
    if length < 0 then
      .error (.fault .outOfBounds)
    else do
      let (buffer, host) := Stub.sysReadString platform.toHost [] length
        state.fileSystem.host
      let (_, machine) ← system2User state.machine buffer
        (state.machine.operand r4) (wrap (length + 1))
      return State.proceed ⟨machine, { state.fileSystem with host := host }⟩
  else
    .ok state

def solvePrintString : Except Stop (State World) := do
  let (buffer, machine) ← user2System platform state.world state.machine
    (state.machine.operand r4) maxString
  match buffer with
  | none => return State.proceed ⟨machine, state.fileSystem⟩
  | some bytes =>
    return State.proceed ⟨machine, { state.fileSystem with
      host := Stub.sysPrintString platform.toHost bytes maxString
        state.fileSystem.host }⟩

def solveReadNum : Except Stop (State World) := do
  let (result, world) ← liftFault (sysReadNum platform.toHost state.world)
  return (state.withWorld world).answer result

def solvePrintNum : Except Stop (State World) := do
  let world ← liftFault
    (sysPrintNum platform.toHost (state.argument r4) state.world)
  return (state.withWorld world).proceed

def solveReadChar : Except Stop (State World) :=
  let (character, world) := platform.getChar state.world
  .ok ((state.withWorld world).answer character.toInt)

def solvePrintChar : Except Stop (State World) :=
  .ok (state.withWorld (platform.putChar
    ((state.machine.operand r4).extractLsb' 0 8) state.world)).proceed

def solveCreate : Except Stop (State World) :=
  withString platform maxString (Stub.sysCreate platform.toHost) state

def solveOpen : Except Stop (State World) :=
  withString platform maxString
    (fun fileName => Stub.sysOpen platform.toHost fileName (state.argument r5))
    state

def solveClose : Except Stop (State World) :=
  withResult (Stub.sysClose platform.toHost (state.argument r4)) state

def solveWrite : Except Stop (State World) :=
  withString platform (state.argument r5)
    (fun buffer => Stub.sysWrite platform.toHost buffer (state.argument r5)
      (state.argument r6)) state

def solveRead : Except Stop (State World) := do
  let charCount := state.argument r5
  let allocated ← platform.newArray charCount state.world
  if allocated then
    let (result, buffer, fileSystem) ← liftAbort (Stub.sysRead platform.toHost
      ((List.range charCount.toNat).map (platform.garbage state.world))
      charCount (state.argument r6) state.fileSystem)
    let (_, machine) ← system2User state.machine buffer
      (state.machine.operand r4) charCount
    return State.answer ⟨machine, fileSystem⟩ result
  else
    return state.answer (-1)

def solveSeek : Except Stop (State World) :=
  withResult (Stub.sysSeek platform.toHost (state.argument r4)
    (state.argument r5)) state

def solveRemove : Except Stop (State World) :=
  withString platform maxString
    (fun fileName fileSystem =>
      .ok (Stub.sysRemove platform.toHost fileName fileSystem)) state

end Handlers

inductive SyscallCode where
  | halt
  | create
  | remove
  | openFile
  | read
  | write
  | seek
  | close
  | threadJoin
  | add
  | randomNum
  | readString
  | printString
  | readNum
  | printNum
  | readChar
  | printChar
  deriving DecidableEq, Repr

def SyscallCode.ofInt : Int → Option SyscallCode
  | 0 => some .halt
  | 4 => some .create
  | 5 => some .remove
  | 6 => some .openFile
  | 7 => some .read
  | 8 => some .write
  | 9 => some .seek
  | 10 => some .close
  | 15 => some .threadJoin
  | 42 => some .add
  | 43 => some .randomNum
  | 44 => some .readString
  | 45 => some .printString
  | 46 => some .readNum
  | 47 => some .printNum
  | 48 => some .readChar
  | 49 => some .printChar
  | _ => none

def solve (platform : Platform World) (state : State World) :
    SyscallCode → Except Stop (State World)
  | .halt => solveHalt
  | .create => solveCreate platform state
  | .remove => solveRemove platform state
  | .openFile => solveOpen platform state
  | .read => solveRead platform state
  | .write => solveWrite platform state
  | .seek => solveSeek platform state
  | .close => solveClose platform state
  | .threadJoin => solveThreadJoin state
  | .add => solveAdd state
  | .randomNum => solveRandomNum platform state
  | .readString => solveReadString platform state
  | .printString => solvePrintString platform state
  | .readNum => solveReadNum platform state
  | .printNum => solvePrintNum platform state
  | .readChar => solveReadChar platform state
  | .printChar => solvePrintChar platform state

def exceptionHandler (platform : Platform World) (which : ExceptionType)
    (state : State World) : Except Stop (State World) :=
  match which with
  | .syscallException =>
    match SyscallCode.ofInt (state.argument r2) with
    | some code => solve platform state code
    | none => .error (.fault (.assertion .exceptionHandler))
  | .pageFaultException | .readOnlyException | .busErrorException
  | .addressErrorException | .overflowException | .illegalInstrException =>
    .error .halt

end Nachos.Userprog
