import Nachos.Lib.List
import Nachos.Foundation.Transitions

/-!
# Interrupts and simulated time

`machine/interrupt.cc`, with the clock of `machine/stats.h` and the device of
`machine/timer.cc`.  The CPU does one thing at a time, and the model is cut
where control passes to other code: to a handler in the loop of `CheckIfDue`,
and to the other threads in the `Yield` at the end of `OneTick`.  A handler is
any sequence of the calls that handlers can make.  The identity of a
`PendingInterrupt` object is a serial number; the names for debugging are left
out.
-/

namespace Nachos

open Foundation

inductive IntStatus where
  | intOff
  | intOn
  deriving DecidableEq, Repr

inductive MachineStatus where
  | idleMode
  | systemMode
  | userMode
  deriving DecidableEq, Repr

inductive IntType where
  | timerInt
  | diskInt
  | consoleWriteInt
  | consoleReadInt
  | networkSendInt
  | networkRecvInt
  deriving DecidableEq, Repr

structure Statistics where
  totalTicks : Int
  idleTicks : Int
  systemTicks : Int
  userTicks : Int
  deriving DecidableEq, Repr

def userTick : Int := 1

def systemTick : Int := 10

def timerTicks : Int := 100

structure PendingInterrupt (Device : Type) where
  callOnInterrupt : Device
  when : Int
  type : IntType
  serial : Nat
  deriving DecidableEq, Repr

variable {Device : Type}

def pendingCompare (x y : PendingInterrupt Device) : Int :=
  if x.when < y.when then -1
  else if x.when > y.when then 1
  else 0

/-- Who called `CheckIfDue`; `OneTick` keeps the status it was called in. -/
inductive CheckCaller where
  | oneTick (oldStatus : MachineStatus)
  | idle
  deriving DecidableEq, Repr

def CheckCaller.advanceClock : CheckCaller → Bool
  | .oneTick _ => false
  | .idle => true

inductive InterruptControl where
  /-- It runs a thread. -/
  | thread
  /-- It enters `CheckIfDue`. -/
  | checking (caller : CheckCaller)
  /-- It is at the top of the loop of `CheckIfDue`. -/
  | looping (caller : CheckCaller)
  /-- It runs the handler that the loop called. -/
  | handling (caller : CheckCaller)
  /-- `Halt` was called. -/
  | halted
  deriving DecidableEq, Repr

def InterruptControl.inCheck : InterruptControl → Prop
  | .checking _ | .looping _ | .handling _ => True
  | .thread | .halted => False

def InterruptControl.inLoop : InterruptControl → Prop
  | .looping _ | .handling _ => True
  | .thread | .checking _ | .halted => False

/-- The interrupt hardware.  `yielding` holds the `oldStatus` of the calls of
`OneTick` that are inside `Yield`; `scheduled` and `fired` are a record of the
calls of `Schedule` and of the handlers, the latter with the time. -/
structure Interrupt (Device : Type) where
  level : IntStatus
  pending : List (PendingInterrupt Device)
  inHandler : Bool
  yieldOnReturn : Bool
  status : MachineStatus
  stats : Statistics
  control : InterruptControl
  yielding : List MachineStatus
  scheduled : List (PendingInterrupt Device)
  fired : List (PendingInterrupt Device × Int)

namespace Interrupt

def create : Interrupt Device where
  level := .intOff
  pending := []
  inHandler := false
  yieldOnReturn := false
  status := .systemMode
  stats := ⟨0, 0, 0, 0⟩
  control := .thread
  yielding := []
  scheduled := []
  fired := []

def changeLevel (interrupt : Interrupt Device) (now : IntStatus) :
    Interrupt Device :=
  { interrupt with level := now }

def tickLength (status : MachineStatus) : Int :=
  if status = .systemMode then systemTick else userTick

def advanceTime (interrupt : Interrupt Device) : Statistics :=
  let stats := interrupt.stats
  if interrupt.status = .systemMode then
    { stats with
      totalTicks := wrap (stats.totalTicks + systemTick)
      systemTicks := wrap (stats.systemTicks + systemTick) }
  else
    { stats with
      totalTicks := wrap (stats.totalTicks + userTick)
      userTicks := wrap (stats.userTicks + userTick) }

/-- `OneTick`, up to its call of `CheckIfDue`. -/
def oneTick (interrupt : Interrupt Device) : Interrupt Device :=
  { interrupt with
    stats := interrupt.advanceTime
    control := .checking (.oneTick interrupt.status) }.changeLevel .intOff

def setLevel (interrupt : Interrupt Device) (now : IntStatus) :
    Except Fault (Interrupt Device) := do
  let old := interrupt.level
  assertThat (now = .intOff ∨ interrupt.inHandler = false) .enableInHandler
  let interrupt := interrupt.changeLevel now
  if now = .intOn ∧ old = .intOff then
    return interrupt.oneTick
  else
    return interrupt

def requestYield (interrupt : Interrupt Device) :
    Except Fault (Interrupt Device) := do
  assertThat interrupt.inHandler .yieldOnReturn
  return { interrupt with yieldOnReturn := true }

/-- `Idle`, up to its call of `CheckIfDue`. -/
def idle (interrupt : Interrupt Device) : Interrupt Device :=
  { interrupt with status := .idleMode, control := .checking .idle }

/-- `CheckIfDue` returns `result` to its caller.  `OneTick` goes on to its end,
or to its call of `Yield`; `Idle` returns or halts the machine. -/
def returnTo (interrupt : Interrupt Device) (caller : CheckCaller)
    (result : Bool) : Interrupt Device :=
  match caller with
  | .oneTick oldStatus =>
    let interrupt := { interrupt with control := .thread }.changeLevel .intOn
    if interrupt.yieldOnReturn then
      { interrupt with
        yieldOnReturn := false
        status := .systemMode
        yielding := oldStatus :: interrupt.yielding }
    else
      interrupt
  | .idle =>
    if result then
      { interrupt with status := .systemMode, control := .thread }
    else
      { interrupt with control := .halted }

/-- The `Yield` of a call of `OneTick` returns. -/
def returnFromYield (interrupt : Interrupt Device)
    (oldStatus : MachineStatus) : Interrupt Device :=
  { interrupt with
    status := oldStatus
    yielding := interrupt.yielding.erase oldStatus }

def enterLoop (interrupt : Interrupt Device) (caller : CheckCaller) :
    Interrupt Device :=
  { interrupt with inHandler := true, control := .looping caller }

def checkIfDue (interrupt : Interrupt Device) (caller : CheckCaller) :
    Except Fault (Interrupt Device) := do
  let stats := interrupt.stats
  assertThat (interrupt.level = .intOff) .checkIfDueLevel
  match interrupt.pending with
  | [] => return interrupt.returnTo caller false
  | next :: _ =>
    if next.when > stats.totalTicks then
      if !caller.advanceClock then
        return interrupt.returnTo caller false
      else
        let stats := { stats with
          idleTicks :=
            wrap (stats.idleTicks + (next.when - stats.totalTicks))
          totalTicks := next.when }
        return { interrupt with stats := stats }.enterLoop caller
    else
      return interrupt.enterLoop caller

def frontDue (interrupt : Interrupt Device) : Bool :=
  match interrupt.pending with
  | [] => false
  | front :: _ => front.when ≤ interrupt.stats.totalTicks

def handlerReturned (interrupt : Interrupt Device) (caller : CheckCaller) :
    Interrupt Device :=
  if interrupt.frontDue then
    { interrupt with control := .looping caller }
  else
    { interrupt with inHandler := false }.returnTo caller true

def callHandler (interrupt : Interrupt Device) (caller : CheckCaller) :
    Except Fault (Interrupt Device) := do
  let (next, pending) ← listRemoveFront interrupt.pending
  return { interrupt with
    pending := pending
    control := .handling caller
    fired := interrupt.fired ++ [(next, interrupt.stats.totalTicks)] }

variable [DecidableEq Device]

def schedule (interrupt : Interrupt Device)
    (toCall : Device) (fromNow : Int) (type : IntType) :
    Except Fault (Interrupt Device) := do
  let time := wrap (interrupt.stats.totalTicks + fromNow)
  let toOccur := ⟨toCall, time, type, interrupt.scheduled.length⟩
  assertThat (0 < fromNow) .scheduleDelay
  let pending ← sortedListInsert pendingCompare interrupt.pending toOccur
  return { interrupt with
    pending := pending
    scheduled := interrupt.scheduled ++ [toOccur] }

/-- What happens to the interrupt hardware.  Threads and handlers call
`Schedule` and `SetLevel`; `Machine::Run` calls `OneTick`, `Sleep` calls `Idle`;
the last four events are what follows in `CheckIfDue`, and in `OneTick` when its
thread runs again. -/
inductive Event (Device : Type) where
  | schedule (toCall : Device) (fromNow : Int) (type : IntType)
  | setLevel (now : IntStatus)
  | oneTick
  | idle
  | setStatus (status : MachineStatus)
  | yieldOnReturn
  | checkIfDue (caller : CheckCaller)
  | callHandler (caller : CheckCaller)
  | handlerReturned (caller : CheckCaller)
  | returnFromYield (oldStatus : MachineStatus)
  deriving DecidableEq

def Permits (interrupt : Interrupt Device) : Event Device → Prop
  | .schedule _ _ _ | .setLevel _ =>
    interrupt.control = .thread ∨ ∃ caller, interrupt.control = .handling caller
  | .oneTick | .idle | .setStatus _ => interrupt.control = .thread
  | .yieldOnReturn => ∃ caller, interrupt.control = .handling caller
  | .checkIfDue caller => interrupt.control = .checking caller
  | .callHandler caller => interrupt.control = .looping caller
  | .handlerReturned caller => interrupt.control = .handling caller
  | .returnFromYield oldStatus =>
    interrupt.control = .thread ∧ oldStatus ∈ interrupt.yielding

/-- Delays are positive, handlers do not enable interrupts, `Idle` is called
with interrupts off as in `Sleep`, and the time stays below `2 ^ 31`. -/
def Proper (interrupt : Interrupt Device) : Event Device → Prop
  | .schedule _ fromNow _ =>
    0 < fromNow ∧ interrupt.stats.totalTicks + fromNow < 2 ^ 31
  | .setLevel now =>
    now = .intOn →
      interrupt.control = .thread ∧
        (interrupt.level = .intOff →
          interrupt.stats.totalTicks + tickLength interrupt.status < 2 ^ 31)
  | .oneTick =>
    interrupt.stats.totalTicks + tickLength interrupt.status < 2 ^ 31
  | .idle => interrupt.level = .intOff
  | .setStatus _ | .yieldOnReturn | .checkIfDue _ | .callHandler _
  | .handlerReturned _ | .returnFromYield _ => True

def Allows (interrupt : Interrupt Device) (event : Event Device) : Prop :=
  interrupt.Permits event ∧ interrupt.Proper event

def perform (interrupt : Interrupt Device) :
    Event Device → Except Fault (Interrupt Device)
  | .schedule toCall fromNow type => interrupt.schedule toCall fromNow type
  | .setLevel now => interrupt.setLevel now
  | .oneTick => .ok interrupt.oneTick
  | .idle => .ok interrupt.idle
  | .setStatus status => .ok { interrupt with status := status }
  | .yieldOnReturn => interrupt.requestYield
  | .checkIfDue caller => interrupt.checkIfDue caller
  | .callHandler caller => interrupt.callHandler caller
  | .handlerReturned caller => .ok (interrupt.handlerReturned caller)
  | .returnFromYield oldStatus => .ok (interrupt.returnFromYield oldStatus)

def system : TransitionSystem (Interrupt Device) (Event Device) where
  start interrupt := interrupt = create
  step interrupt event next :=
    interrupt.Allows event ∧ interrupt.perform event = .ok next

end Interrupt

structure Timer where
  randomize : Bool
  disable : Bool

namespace Timer

/-- The delay in `SetInterrupt`; `randomNumber` is what `RandomNumber` returns. -/
def delay (timer : Timer) (randomNumber : Nat) : Int :=
  if timer.randomize then
    1 + randomNumber % (timerTicks * 2)
  else
    timerTicks

def setInterrupt [DecidableEq Device] (timer : Timer) (self : Device)
    (randomNumber : Nat) (interrupt : Interrupt Device) :
    Except Fault (Interrupt Device) :=
  if !timer.disable then
    interrupt.schedule self (timer.delay randomNumber) .timerInt
  else
    .ok interrupt

end Timer

end Nachos
