import Nachos.Threads.Semaphore
import Nachos.Foundation.Update
import Nachos.Machine.Interrupt

/-!
# Threads and the scheduler

`threads/scheduler.cc`, the transitions of `threads/thread.cc` between thread
states, and `P` and `V` with the threads they put to sleep and wake up.  There
is one CPU: code that runs with interrupts off is one step, up to the next
`SWITCH`.  A thread is an identity that no later `Thread` object gets again; its
name, its stack and its user state are left out.  Any number of semaphores
exist, each with a key.
-/

namespace Nachos

open Foundation

variable {Thread Key : Type}

inductive ThreadStatus where
  | justCreated
  | running
  | ready
  | blocked
  deriving DecidableEq, Repr

/-- Where a thread goes on when `SWITCH` transfers control to it. -/
inductive ResumePoint (Key : Type) where
  /-- `ThreadRoot`, which calls `Begin` first. -/
  | threadRoot
  /-- Inside the `Run` of `Yield`. -/
  | yield (oldLevel : IntStatus)
  /-- Inside the `Run` of a `Sleep` in `P`. -/
  | P (key : Key) (oldLevel : IntStatus)
  /-- Inside the `Run` of the `Sleep` in `Finish`. -/
  | finish

def ResumePoint.finishing : ResumePoint Key → Bool
  | .finish => true
  | .threadRoot | .yield _ | .P _ _ => false

inductive Control (Key : Type) where
  /-- It runs the code of a thread. -/
  | running
  /-- It is in `Interrupt::Idle`, called from the loop of `Sleep`. -/
  | idling (point : ResumePoint Key)
  /-- It has just come out of `SWITCH`, on the stack of another thread. -/
  | switched
  /-- `Interrupt::Halt` was called from `Interrupt::Idle`. -/
  | halted (point : ResumePoint Key)

/-- The kernel, as far as it is about scheduling.  A thread has a status from
its creation to its deletion; `executing` is the thread whose stack the CPU runs
on, and `saved` is where the others go on.  The last two fields are a record of
the threads that called `Finish`, and of those that were deleted. -/
structure Kernel (Thread Key : Type) where
  status : Thread → Option ThreadStatus
  readyList : List Thread
  currentThread : Thread
  toBeDestroyed : Option Thread
  level : IntStatus
  semaphores : Key → Semaphore Thread
  executing : Thread
  saved : Thread → ResumePoint Key
  control : Control Key
  finished : List Thread
  deleted : List Thread

namespace Kernel

def setLevel (kernel : Kernel Thread Key) (now : IntStatus) :
    Kernel Thread Key :=
  { kernel with level := now }

def proceed (kernel : Kernel Thread Key) : Kernel Thread Key :=
  { kernel with control := .running }

variable [DecidableEq Thread]

def setStatus (kernel : Kernel Thread Key) (thread : Thread)
    (status : ThreadStatus) : Except Fault (Kernel Thread Key) :=
  match kernel.status thread with
  | none => .error .badObject
  | some _ => .ok { kernel with
      status := Function.update kernel.status thread (some status) }

def readyToRun (kernel : Kernel Thread Key) (thread : Thread) :
    Except Fault (Kernel Thread Key) := do
  assertThat (kernel.level = .intOff) .interruptLevel
  let kernel ← kernel.setStatus thread .ready
  let readyList ← listAppend kernel.readyList thread
  return { kernel with readyList := readyList }

omit [DecidableEq Thread] in
def findNextToRun (kernel : Kernel Thread Key) :
    Except Fault (Option Thread × Kernel Thread Key) := do
  assertThat (kernel.level = .intOff) .interruptLevel
  if kernel.readyList.isEmpty then
    return (none, kernel)
  else
    let (thread, readyList) ← listRemoveFront kernel.readyList
    return (some thread, { kernel with readyList := readyList })

def switch (kernel : Kernel Thread Key) (oldThread nextThread : Thread)
    (point : ResumePoint Key) : Kernel Thread Key :=
  { kernel with
    saved := Function.update kernel.saved oldThread point
    executing := nextThread
    control := .switched }

def markFinishing (kernel : Kernel Thread Key) (finishing : Bool) :
    Except Fault (Kernel Thread Key) :=
  if finishing then do
    assertThat kernel.toBeDestroyed.isNone .toBeDestroyed
    return { kernel with toBeDestroyed := some kernel.currentThread }
  else
    return kernel

def run (kernel : Kernel Thread Key) (nextThread : Thread) (finishing : Bool)
    (point : ResumePoint Key) : Except Fault (Kernel Thread Key) := do
  let oldThread := kernel.currentThread
  assertThat (kernel.level = .intOff) .interruptLevel
  let kernel ← kernel.markFinishing finishing
  let kernel ← { kernel with currentThread := nextThread }.setStatus nextThread
    .running
  return kernel.switch oldThread nextThread point

def delete (kernel : Kernel Thread Key) (thread : Thread) :
    Except Fault (Kernel Thread Key) := do
  assertThat (thread ≠ kernel.currentThread) .threadDelete
  match kernel.status thread with
  | none => .error .badObject
  | some _ => return { kernel with
      status := Function.update kernel.status thread none
      deleted := kernel.deleted ++ [thread] }

def checkToBeDestroyed (kernel : Kernel Thread Key) :
    Except Fault (Kernel Thread Key) :=
  match kernel.toBeDestroyed with
  | none => .ok kernel
  | some thread => do
    let kernel ← kernel.delete thread
    return { kernel with toBeDestroyed := none }

/-- The loop of `Thread::Sleep`, up to a call of `Idle` or `Run`. -/
def sleepLoop (kernel : Kernel Thread Key) (point : ResumePoint Key) :
    Except Fault (Kernel Thread Key) := do
  let (nextThread, kernel) ← kernel.findNextToRun
  match nextThread with
  | none => return { kernel with control := .idling point }
  | some nextThread => kernel.run nextThread point.finishing point

def sleep (kernel : Kernel Thread Key) (point : ResumePoint Key) :
    Except Fault (Kernel Thread Key) := do
  assertThat (kernel.executing = kernel.currentThread) .currentThread
  assertThat (kernel.level = .intOff) .interruptLevel
  let kernel ← kernel.setStatus kernel.executing .blocked
  kernel.sleepLoop point

def fork (kernel : Kernel Thread Key) (thread : Thread) :
    Except Fault (Kernel Thread Key) := do
  let oldLevel := kernel.level
  let kernel ← { kernel.setLevel .intOff with
    saved := Function.update kernel.saved thread .threadRoot }.readyToRun thread
  return kernel.setLevel oldLevel

def begin (kernel : Kernel Thread Key) : Except Fault (Kernel Thread Key) := do
  assertThat (kernel.executing = kernel.currentThread) .currentThread
  let kernel ← kernel.checkToBeDestroyed
  return (kernel.setLevel .intOn).proceed

def finish (kernel : Kernel Thread Key) : Except Fault (Kernel Thread Key) := do
  let kernel := kernel.setLevel .intOff
  assertThat (kernel.executing = kernel.currentThread) .currentThread
  { kernel with finished := kernel.finished ++ [kernel.executing] }.sleep
    .finish

def yield (kernel : Kernel Thread Key) : Except Fault (Kernel Thread Key) := do
  let oldLevel := kernel.level
  let kernel := kernel.setLevel .intOff
  assertThat (kernel.executing = kernel.currentThread) .currentThread
  let (nextThread, kernel) ← kernel.findNextToRun
  match nextThread with
  | none => return kernel.setLevel oldLevel
  | some nextThread => do
    let kernel ← kernel.readyToRun kernel.executing
    kernel.run nextThread false (.yield oldLevel)

variable [DecidableEq Key]

def testP (kernel : Kernel Thread Key) (key : Key) (oldLevel : IntStatus) :
    Except Fault (Kernel Thread Key) := do
  let (taken, semaphore) ← (kernel.semaphores key).test kernel.executing
  let kernel := { kernel with
    semaphores := Function.update kernel.semaphores key semaphore }
  if taken then
    return (kernel.setLevel oldLevel).proceed
  else
    kernel.sleep (.P key oldLevel)

def P (kernel : Kernel Thread Key) (key : Key) :
    Except Fault (Kernel Thread Key) :=
  (kernel.setLevel .intOff).testP key kernel.level

def V (kernel : Kernel Thread Key) (key : Key) :
    Except Fault (Kernel Thread Key) := do
  let oldLevel := kernel.level
  let kernel := kernel.setLevel .intOff
  let (woken, semaphore) := (kernel.semaphores key).V
  let kernel ← match woken with
    | none => pure kernel
    | some thread => kernel.readyToRun thread
  return { kernel with
    semaphores := Function.update kernel.semaphores key semaphore }.setLevel
      oldLevel

def interrupt (kernel : Kernel Thread Key) (key : Key) :
    Except Fault (Kernel Thread Key) := do
  let level := kernel.level
  let kernel ← (kernel.setLevel .intOff).V key
  return kernel.setLevel level

/-- The thread that `SWITCH` transferred control to goes on.  `Sleep` does not
return in `Finish`. -/
def resume (kernel : Kernel Thread Key) : Except Fault (Kernel Thread Key) :=
  match kernel.saved kernel.executing with
  | .threadRoot => kernel.begin
  | .yield oldLevel => do
    assertThat (kernel.level = .intOff) .interruptLevel
    let kernel ← kernel.checkToBeDestroyed
    return (kernel.setLevel oldLevel).proceed
  | .P key oldLevel => do
    assertThat (kernel.level = .intOff) .interruptLevel
    let kernel ← kernel.checkToBeDestroyed
    kernel.testP key oldLevel
  | .finish => .error .badObject

/-- The steps.  Those with a thread or a key as argument, and `setLevel`,
`yield` and `finish`, are calls by the thread that is executing. -/
inductive Event (Thread Key : Type) where
  /-- `new Thread`. -/
  | create (thread : Thread)
  | fork (thread : Thread)
  | setLevel (now : IntStatus)
  | yield
  | P (key : Key)
  | V (key : Key)
  | finish
  /-- An interrupt handler calls `V`. -/
  | interrupt (key : Key)
  /-- `Idle` returns, and the loop of `Sleep` goes on. -/
  | idled (point : ResumePoint Key)
  /-- `Idle` finds no pending interrupt. -/
  | halt (point : ResumePoint Key)
  /-- The code after `SWITCH`. -/
  | resume

/-- Interrupt handlers run when interrupts are on, and in `Idle`. -/
def Interruptible (kernel : Kernel Thread Key) : Prop :=
  match kernel.control with
  | .running => kernel.level = .intOn
  | .idling _ => True
  | .switched | .halted _ => False

/-- What can happen next.  `Fork` is called once for a thread, after it was
created. -/
def Allows (kernel : Kernel Thread Key) : Event Thread Key → Prop
  | .create thread =>
    kernel.control = .running ∧ kernel.status thread = none ∧
      thread ∉ kernel.deleted
  | .fork thread =>
    kernel.control = .running ∧
      kernel.status thread = some .justCreated
  | .setLevel _ | .yield | .P _ | .V _ | .finish =>
    kernel.control = .running
  | .interrupt _ => kernel.Interruptible
  | .idled point | .halt point => kernel.control = .idling point
  | .resume => kernel.control = .switched

def perform (kernel : Kernel Thread Key) :
    Event Thread Key → Except Fault (Kernel Thread Key)
  | .create thread =>
    return { kernel with
      status := Function.update kernel.status thread (some .justCreated) }
  | .fork thread => kernel.fork thread
  | .setLevel now => return kernel.setLevel now
  | .yield => kernel.yield
  | .P key => kernel.P key
  | .V key => kernel.V key
  | .finish => kernel.finish
  | .interrupt key => kernel.interrupt key
  | .idled point => kernel.sleepLoop point
  | .halt point => return { kernel with control := .halted point }
  | .resume => kernel.resume

def create (main : Thread) (level : IntStatus) (values : Key → Int) :
    Kernel Thread Key where
  status := Function.update (fun _ => none) main (some .running)
  readyList := []
  currentThread := main
  toBeDestroyed := none
  level := level
  semaphores := fun key => .create (values key)
  executing := main
  saved := fun _ => .threadRoot
  control := .running
  finished := []
  deleted := []

def system : TransitionSystem (Kernel Thread Key) (Event Thread Key) where
  start kernel := ∃ main level values, kernel = create main level values
  step kernel event next :=
    kernel.Allows event ∧ kernel.perform event = .ok next

end Kernel

end Nachos
