import Nachos.Threads.Lock
import Nachos.Threads.Waiters

/-!
# Condition variables

`Condition::Wait`, `Signal` and `Broadcast` of `threads/synch.cc` with one lock,
step by step: between any two steps of a thread other threads run.  A call that
is in progress is a phase of its thread; the calls of `Acquire`, `Release`, `P`
and `V` inside it are the steps of the lock and of the waiting semaphores.
-/

namespace Nachos

open Foundation

variable {Thread : Type}

/-- A call of `Signal` or `Broadcast`, with some data to speak about it:
`snapshot` is the wait queue when it was called, `selected` are the semaphores
it has taken off since, and `steps` counts the steps of the call. -/
structure WakeCall where
  broadcast : Bool
  snapshot : List Nat
  selected : List Nat
  steps : Nat

def WakeCall.tick (call : WakeCall) : WakeCall :=
  { call with steps := call.steps + 1 }

inductive ConditionPhase where
  | rest
  /-- `Wait` is called, before its `ASSERT`. -/
  | waitCalled
  /-- After the `ASSERT`, before `new Semaphore` and `waitQueue->Append`. -/
  | waitChecked
  /-- In `conditionLock->Release()`. -/
  | waitReleasing (waiter : Nat)
  /-- In `waiter->P()`. -/
  | waitP (waiter : Nat)
  /-- In `conditionLock->Acquire()`. -/
  | waitAcquiring (waiter : Nat)
  /-- Before `delete waiter` and the return. -/
  | waitDeleting (waiter : Nat)
  /-- Before the test of the loop of `Broadcast`. -/
  | looping (call : WakeCall)
  /-- `Signal` is called, before its `ASSERT`. -/
  | signalCalled (call : WakeCall)
  /-- After the `ASSERT`, before the test of `IsEmpty`. -/
  | signalChecked (call : WakeCall)
  /-- Before `waitQueue->RemoveFront()`. -/
  | removing (call : WakeCall)
  /-- Before `waiter->V()`. -/
  | waking (call : WakeCall) (waiter : Nat)
  /-- `Signal` or `Broadcast` is at its end. -/
  | woken (call : WakeCall)

def WakeCall.back (call : WakeCall) : ConditionPhase :=
  if call.broadcast then .looping call else .woken call

/-- A semaphore that was taken off the wait queue: by whom, and what the queue
was when the call of `Signal` or `Broadcast` was made. -/
structure Selection (Thread : Type) where
  waiter : Nat
  waker : Thread
  snapshot : List Nat

structure ConditionUse (Thread : Type) where
  lock : LockUse Thread
  waiters : Waiters Thread
  phase : Thread → ConditionPhase
  selections : List (Selection Thread)

namespace ConditionUse

def create : ConditionUse Thread :=
  ⟨.create, .create, fun _ => .rest, []⟩

inductive Event (Thread : Type) where
  /-- A step of `Acquire` or `Release`, inside `Wait` or outside. -/
  | lock (event : LockUse.Event Thread)
  /-- Call `Wait`. -/
  | wait (thread : Thread)
  /-- The `ASSERT` of `Wait`. -/
  | checkWait (thread : Thread)
  /-- `new Semaphore("condition", 0)` and `waitQueue->Append(waiter)`. -/
  | enqueue (thread : Thread)
  /-- `Release` has returned. -/
  | released (thread : Thread) (waiter : Nat)
  /-- The first test of `waiter->P()`. -/
  | P (thread : Thread) (waiter : Nat)
  /-- A later test of `waiter->P()`. -/
  | resume (thread : Thread) (waiter : Nat)
  /-- `waiter->P()` has returned. -/
  | passed (thread : Thread) (waiter : Nat)
  /-- `Acquire` has returned. -/
  | acquired (thread : Thread) (waiter : Nat)
  /-- `delete waiter`, and `Wait` returns. -/
  | delete (thread : Thread) (waiter : Nat)
  /-- Call `Signal`. -/
  | signal (thread : Thread)
  /-- Call `Broadcast`. -/
  | broadcast (thread : Thread)
  /-- The test of the loop of `Broadcast`. -/
  | loop (thread : Thread) (call : WakeCall)
  /-- The `ASSERT` of `Signal`. -/
  | checkSignal (thread : Thread) (call : WakeCall)
  /-- The test of `IsEmpty` in `Signal`. -/
  | test (thread : Thread) (call : WakeCall)
  /-- `waitQueue->RemoveFront()`. -/
  | remove (thread : Thread) (call : WakeCall)
  /-- `waiter->V()`. -/
  | V (thread : Thread) (call : WakeCall) (waiter : Nat)
  /-- `Signal` or `Broadcast` returns. -/
  | finish (thread : Thread) (call : WakeCall)

def Event.thread : Event Thread → Thread
  | .lock event => event.thread
  | .wait thread | .checkWait thread | .enqueue thread
  | .released thread _ | .P thread _ | .resume thread _ | .passed thread _
  | .acquired thread _ | .delete thread _ | .signal thread
  | .broadcast thread | .loop thread _ | .checkSignal thread _
  | .test thread _ | .remove thread _ | .V thread _ _
  | .finish thread _ => thread

/-- The steps of the lock that a thread can take in its phase: any of them
outside the calls of the condition, and those of `Release` and `Acquire` inside
`Wait`. -/
def AllowsLock (condition : ConditionUse Thread)
    (event : LockUse.Event Thread) : Prop :=
  match condition.phase event.thread with
  | .rest => True
  | .waitReleasing _ => event.ofAcquire = false
  | .waitAcquiring _ =>
    event.ofAcquire = true ∧ condition.lock.phase event.thread ≠ .holding
  | .waitCalled | .waitChecked | .waitP _ | .waitDeleting _ | .looping _
  | .signalCalled _ | .signalChecked _ | .removing _ | .waking _ _
  | .woken _ => False

theorem AllowsLock.phase
    {condition : ConditionUse Thread} {event : LockUse.Event Thread}
    (permitted : condition.AllowsLock event) :
    condition.phase event.thread = .rest ∨
      (∃ waiter, condition.phase event.thread = .waitReleasing waiter) ∨
      ∃ waiter, condition.phase event.thread = .waitAcquiring waiter := by
  unfold AllowsLock at permitted
  cases located : condition.phase event.thread <;>
    rw [located] at permitted <;>
    first | exact False.elim permitted | simp

/-- What can happen next.  The three functions are called by threads that hold
the lock. -/
def Allows (condition : ConditionUse Thread) : Event Thread → Prop
  | .lock event => condition.AllowsLock event ∧ condition.lock.Allows event
  | .wait thread | .signal thread | .broadcast thread =>
    condition.phase thread = .rest ∧
      condition.lock.phase thread = .holding
  | .checkWait thread => condition.phase thread = .waitCalled
  | .enqueue thread => condition.phase thread = .waitChecked
  | .released thread waiter =>
    condition.phase thread = .waitReleasing waiter ∧
      condition.lock.phase thread = .outside
  | .P thread waiter =>
    condition.phase thread = .waitP waiter ∧
      condition.waiters.Allows (.P thread waiter)
  | .resume thread waiter =>
    condition.phase thread = .waitP waiter ∧
      condition.waiters.Allows (.resume thread waiter)
  | .passed thread waiter =>
    condition.phase thread = .waitP waiter ∧
      condition.waiters.role thread = .after waiter
  | .acquired thread waiter =>
    condition.phase thread = .waitAcquiring waiter ∧
      condition.lock.phase thread = .holding
  | .delete thread waiter => condition.phase thread = .waitDeleting waiter
  | .loop thread call => condition.phase thread = .looping call
  | .checkSignal thread call => condition.phase thread = .signalCalled call
  | .test thread call => condition.phase thread = .signalChecked call
  | .remove thread call => condition.phase thread = .removing call
  | .V thread call waiter => condition.phase thread = .waking call waiter
  | .finish thread call => condition.phase thread = .woken call

def moveTo [DecidableEq Thread]
    (condition : ConditionUse Thread) (thread : Thread)
    (phase : ConditionPhase) : ConditionUse Thread :=
  { condition with phase := Function.update condition.phase thread phase }

theorem phase_moveTo_self [DecidableEq Thread]
    {condition : ConditionUse Thread} {thread : Thread}
    (phase : ConditionPhase) :
    (condition.moveTo thread phase).phase thread = phase :=
  Function.update_self ..

def perform [DecidableEq Thread] (condition : ConditionUse Thread) :
    Event Thread → Except Fault (ConditionUse Thread)
  | .lock event => do
    let lock ← condition.lock.perform event
    return { condition with lock := lock }
  | .wait thread => return condition.moveTo thread .waitCalled
  | .checkWait thread => do
    assertThat (condition.lock.isHeldBy thread) .conditionLock
    return condition.moveTo thread .waitChecked
  | .enqueue thread => do
    let waiters ← condition.waiters.perform (.enqueue thread)
    return { condition with waiters := waiters }.moveTo thread
      (.waitReleasing condition.waiters.allocated)
  | .released thread waiter => return condition.moveTo thread (.waitP waiter)
  | .P thread waiter => do
    let waiters ← condition.waiters.perform (.P thread waiter)
    return { condition with waiters := waiters }.moveTo thread
      (.waitP waiter)
  | .resume thread waiter => do
    let waiters ← condition.waiters.perform (.resume thread waiter)
    return { condition with waiters := waiters }.moveTo thread
      (.waitP waiter)
  | .passed thread waiter =>
    return condition.moveTo thread (.waitAcquiring waiter)
  | .acquired thread waiter =>
    return condition.moveTo thread (.waitDeleting waiter)
  | .delete thread waiter => do
    let waiters ← condition.waiters.perform (.delete thread waiter)
    return { condition with waiters := waiters }.moveTo thread .rest
  | .signal thread =>
    return condition.moveTo thread
      (.signalCalled ⟨false, condition.waiters.waitQueue, [], 0⟩)
  | .broadcast thread =>
    return condition.moveTo thread
      (.looping ⟨true, condition.waiters.waitQueue, [], 0⟩)
  | .loop thread call =>
    if condition.waiters.waitQueue = [] then
      return condition.moveTo thread (.woken call.tick)
    else
      return condition.moveTo thread (.signalCalled call.tick)
  | .checkSignal thread call => do
    assertThat (condition.lock.isHeldBy thread) .conditionLock
    return condition.moveTo thread (.signalChecked call.tick)
  | .test thread call =>
    if condition.waiters.waitQueue = [] then
      return condition.moveTo thread call.tick.back
    else
      return condition.moveTo thread (.removing call.tick)
  | .remove thread call => do
    let (waiter, waiters) ← condition.waiters.removeFront thread
    return { condition with
      waiters := waiters
      selections := condition.selections ++
        [Selection.mk waiter thread call.snapshot] }.moveTo thread
      (.waking { call.tick with selected := call.selected ++ [waiter] }
        waiter)
  | .V thread call waiter => do
    let waiters ← condition.waiters.perform (.V thread waiter)
    return { condition with waiters := waiters }.moveTo thread
      call.tick.back
  | .finish thread _ => return condition.moveTo thread .rest

def system [DecidableEq Thread] :
    TransitionSystem (ConditionUse Thread) (Event Thread) where
  start condition := condition = create
  step condition event next :=
    condition.Allows event ∧ condition.perform event = .ok next

/-! ## The invariant -/

/-- The account of a call of `Signal` or `Broadcast` that has woken `done`, and
is `position` steps past the test of the loop. -/
structure CallSound (waiters : Waiters Thread) (call : WakeCall)
    (done : List Nat) (position : Nat) : Prop where
  snapshot : call.snapshot = call.selected ++ waiters.waitQueue
  steps : call.broadcast = true → call.steps = 5 * done.length + position
  signal : call.broadcast = false → done = []
  woken : ∀ waiter ∈ done, waiter < waiters.allocated ∧
    ¬ waiters.Blocked waiter

structure CallDone (waiters : Waiters Thread) (call : WakeCall) : Prop where
  selected : call.selected =
    if call.broadcast then call.snapshot else call.snapshot.take 1
  steps : call.broadcast = true →
    call.steps = 5 * call.snapshot.length + 1
  woken : ∀ waiter ∈ call.selected,
    waiter < waiters.allocated ∧
      ¬ waiters.Blocked waiter

def ThreadSound (lock : LockUse Thread) (waiters : Waiters Thread)
    (thread : Thread) : ConditionPhase → Prop
  | .rest => waiters.role thread = .none
  | .waitCalled | .waitChecked =>
    waiters.role thread = .none ∧
      lock.phase thread = .holding
  | .waitReleasing waiter =>
    waiters.role thread = .before waiter ∧
      (lock.phase thread).inRelease = true
  | .waitP waiter =>
    (waiters.role thread).waiter? = some waiter ∧
      lock.phase thread = .outside
  | .waitAcquiring waiter =>
    waiters.role thread = .after waiter ∧
      (lock.phase thread).inAcquire = true
  | .waitDeleting waiter =>
    waiters.role thread = .after waiter ∧
      lock.phase thread = .holding
  | .looping call =>
    waiters.role thread = .none ∧
      lock.phase thread = .holding ∧ call.broadcast = true ∧
      CallSound waiters call call.selected 0
  | .signalCalled call =>
    waiters.role thread = .none ∧
      lock.phase thread = .holding ∧
      (call.broadcast = true → waiters.waitQueue ≠ []) ∧
      CallSound waiters call call.selected 1
  | .signalChecked call =>
    waiters.role thread = .none ∧
      lock.phase thread = .holding ∧
      (call.broadcast = true → waiters.waitQueue ≠ []) ∧
      CallSound waiters call call.selected 2
  | .removing call =>
    waiters.role thread = .none ∧
      lock.phase thread = .holding ∧
      waiters.waitQueue ≠ [] ∧
      CallSound waiters call call.selected 3
  | .waking call waiter =>
    waiters.role thread = .waking waiter ∧
      lock.phase thread = .holding ∧
      ∃ done, call.selected = done ++ [waiter] ∧
        CallSound waiters call done 4
  | .woken call =>
    waiters.role thread = .none ∧
      lock.phase thread = .holding ∧ CallDone waiters call

/-- The lock and the semaphores are sound, every thread is where it should be,
and whoever was taken off the wait queue was in it when the call was made. -/
structure Sound (condition : ConditionUse Thread) : Prop where
  lock : condition.lock.Sound
  waiters : condition.waiters.Sound
  threads : ∀ thread,
    ThreadSound condition.lock condition.waiters thread
      (condition.phase thread)
  selections : condition.selections.map Selection.waiter =
    condition.waiters.selected
  snapshots : ∀ selection ∈ condition.selections,
    selection.waiter ∈ selection.snapshot

theorem sound_create : (create : ConditionUse Thread).Sound where
  lock := LockUse.sound_create
  waiters := Waiters.sound_create
  threads := fun _ => rfl
  selections := rfl
  snapshots := fun _ member => absurd member List.not_mem_nil

/-- A call of `Signal` or `Broadcast` goes on by one step that leaves the queue
and the semaphores alone. -/
theorem CallSound.tick
    {waiters : Waiters Thread} {call : WakeCall} {done : List Nat}
    {position : Nat} (sound : CallSound waiters call done position) :
    CallSound waiters call.tick done (position + 1) where
  snapshot := sound.snapshot
  steps := fun isBroadcast => congrArg (· + 1) (sound.steps isBroadcast)
  signal := sound.signal
  woken := sound.woken

/-- A step of another thread: it leaves the phase and the role of this one, the
queue if this one holds the lock, and makes nothing blocked that was not. -/
structure Undisturbed (condition next : ConditionUse Thread)
    (thread : Thread) : Prop where
  phase : next.phase thread = condition.phase thread
  lock : next.lock.phase thread = condition.lock.phase thread
  role : next.waiters.role thread = condition.waiters.role thread
  queue : condition.lock.phase thread = .holding →
    next.waiters.waitQueue = condition.waiters.waitQueue
  blocked : ∀ waiter < condition.waiters.allocated,
    next.waiters.Blocked waiter → condition.waiters.Blocked waiter
  allocated : condition.waiters.allocated ≤ next.waiters.allocated

namespace Undisturbed

variable {condition next : ConditionUse Thread} {thread : Thread}
variable {call : WakeCall}

theorem woken
    (undisturbed : condition.Undisturbed next thread) {done : List Nat}
    (before : ∀ waiter ∈ done, waiter < condition.waiters.allocated ∧
      ¬ condition.waiters.Blocked waiter) :
    ∀ waiter ∈ done, waiter < next.waiters.allocated ∧
      ¬ next.waiters.Blocked waiter := by
  intro waiter member
  obtain ⟨small, notBlocked⟩ := before waiter member
  exact ⟨small.trans_le undisturbed.allocated,
    fun blocked => notBlocked (undisturbed.blocked waiter small blocked)⟩

theorem callSound
    (undisturbed : condition.Undisturbed next thread)
    (holding : condition.lock.phase thread = .holding)
    {done : List Nat} {position : Nat}
    (sound : CallSound condition.waiters call done position) :
    CallSound next.waiters call done position where
  snapshot := by
    rw [undisturbed.queue holding]
    exact sound.snapshot
  steps := sound.steps
  signal := sound.signal
  woken := undisturbed.woken sound.woken

theorem threadSound
    (undisturbed : condition.Undisturbed next thread)
    (sound : ThreadSound condition.lock condition.waiters thread
      (condition.phase thread)) :
    ThreadSound next.lock next.waiters thread (next.phase thread) := by
  rw [undisturbed.phase]
  cases phase : condition.phase thread with
  | rest | waitCalled | waitChecked | waitReleasing waiter | waitP waiter
  | waitAcquiring waiter | waitDeleting waiter =>
    rw [phase] at sound
    simp only [ThreadSound, undisturbed.role, undisturbed.lock]
    exact sound
  | looping call =>
    rw [phase] at sound
    obtain ⟨role, holding, isBroadcast, callSound⟩ := sound
    simp only [ThreadSound, undisturbed.role, undisturbed.lock]
    exact ⟨role, holding, isBroadcast, undisturbed.callSound holding callSound⟩
  | signalCalled call | signalChecked call | removing call =>
    rw [phase] at sound
    obtain ⟨role, holding, nonempty, callSound⟩ := sound
    simp only [ThreadSound, undisturbed.role, undisturbed.lock,
      undisturbed.queue holding]
    exact ⟨role, holding, nonempty, undisturbed.callSound holding callSound⟩
  | waking call waiter =>
    rw [phase] at sound
    obtain ⟨role, holding, done, selected, callSound⟩ := sound
    simp only [ThreadSound, undisturbed.role, undisturbed.lock]
    exact ⟨role, holding, done, selected,
      undisturbed.callSound holding callSound⟩
  | woken call =>
    rw [phase] at sound
    obtain ⟨role, holding, callDone⟩ := sound
    simp only [ThreadSound, undisturbed.role, undisturbed.lock]
    exact ⟨role, holding,
      { callDone with woken := undisturbed.woken callDone.woken }⟩

end Undisturbed

namespace Sound

variable {condition : ConditionUse Thread} {thread : Thread}

theorem at_
    (sound : condition.Sound) {phase : ConditionPhase}
    (located : condition.phase thread = phase) :
    ThreadSound condition.lock condition.waiters thread phase := by
  rw [← located]
  exact sound.threads thread

theorem exclusive
    (sound : condition.Sound) {other : Thread}
    (holding : condition.lock.phase thread = .holding)
    (different : other ≠ thread) :
    condition.lock.phase other ≠ .holding := by
  intro otherHolding
  have outside := sound.lock.alone (by rw [holding]; rfl) different
  rw [otherHolding] at outside
  cases outside

theorem isHeldBy [DecidableEq Thread]
    (sound : condition.Sound)
    (holding : condition.lock.phase thread = .holding) :
    condition.lock.isHeldBy thread = true :=
  decide_eq_true (sound.lock.lockHolder_eq holding rfl)

variable [DecidableEq Thread] {next : ConditionUse Thread}

/-- After a step, the thread that took it is where it should be, and the others
are undisturbed. -/
theorem assemble
    (sound : condition.Sound) (lock : next.lock.Sound)
    (waiters : next.waiters.Sound)
    (self : ThreadSound next.lock next.waiters thread (next.phase thread))
    (others : ∀ other, other ≠ thread → condition.Undisturbed next other)
    (selections : next.selections.map Selection.waiter =
      next.waiters.selected)
    (snapshots : ∀ selection ∈ next.selections,
      selection.waiter ∈ selection.snapshot) :
    next.Sound where
  lock := lock
  waiters := waiters
  threads := by
    intro other
    by_cases same : other = thread
    · rw [same]
      exact self
    · exact (others other same).threadSound (sound.threads other)
  selections := selections
  snapshots := snapshots

omit [DecidableEq Thread] in
theorem undisturbed_refl
    {other : Thread} (phase : next.phase other = condition.phase other)
    (lock : next.lock.phase other = condition.lock.phase other)
    (waiters : next.waiters = condition.waiters) :
    condition.Undisturbed next other := by
  refine ⟨phase, lock, ?_, ?_, ?_, ?_⟩ <;> rw [waiters]
  · exact fun _ => rfl
  · exact fun _ _ blocked => blocked

theorem control
    (sound : condition.Sound) {phase : ConditionPhase}
    (self : ThreadSound condition.lock condition.waiters thread phase) :
    (condition.moveTo thread phase).Sound ∧
      ∀ other, other ≠ thread →
        condition.Undisturbed (condition.moveTo thread phase) other := by
  have others : ∀ other, other ≠ thread →
      condition.Undisturbed (condition.moveTo thread phase) other :=
    fun other different =>
      undisturbed_refl (Function.update_of_ne different _ _) rfl rfl
  refine ⟨sound.assemble sound.lock sound.waiters ?_ others
    sound.selections sound.snapshots, others⟩
  change ThreadSound condition.lock condition.waiters thread
    (Function.update condition.phase thread phase thread)
  rw [Function.update_self]
  exact self

theorem lock_step
    (sound : condition.Sound) {event : LockUse.Event Thread}
    (permitted : condition.AllowsLock event)
    (allowed : condition.lock.Allows event) :
    ∃ next phase, condition.perform (.lock event) = .ok next ∧ next.Sound ∧
      (∀ other, other ≠ event.thread → condition.Undisturbed next other) ∧
      next.phase = condition.phase ∧ next.waiters = condition.waiters ∧
      next.lock.phase = Function.update condition.lock.phase event.thread
        phase ∧
      event.Follows (condition.lock.phase event.thread) phase := by
  obtain ⟨lock, phase, performed, lockSound, phaseEq, follows⟩ :=
    sound.lock.step allowed
  have others : ∀ other, other ≠ event.thread →
      condition.Undisturbed { condition with lock := lock } other := by
    intro other different
    refine undisturbed_refl rfl ?_ rfl
    dsimp only
    rw [phaseEq]
    exact Function.update_of_ne different _ _
  refine ⟨{ condition with lock := lock }, phase, ?_, ?_, others, rfl, rfl,
    phaseEq, follows⟩
  · simp [perform, performed]
  · refine sound.assemble lockSound sound.waiters ?_ others sound.selections
      sound.snapshots
    have self := sound.threads event.thread
    unfold AllowsLock at permitted
    cases located : condition.phase event.thread with
    | rest =>
      rw [located] at self
      exact self
    | waitReleasing waiter =>
      rw [located] at self permitted
      refine ⟨self.1, ?_⟩
      dsimp only
      rw [phaseEq, Function.update_self]
      exact follows.2 permitted
    | waitAcquiring waiter =>
      rw [located] at self permitted
      refine ⟨self.1, ?_⟩
      dsimp only
      rw [phaseEq, Function.update_self]
      exact follows.1 permitted.1 permitted.2 self.2
    | waitCalled | waitChecked | waitP waiter | waitDeleting waiter
    | looping call | signalCalled call | signalChecked call | removing call
    | waking call waiter | woken call =>
      rw [located] at permitted
      exact permitted.elim

theorem waiters_step
    (sound : condition.Sound) {waiters : Waiters Thread}
    (waitersSound : waiters.Sound) {role : WaiterRole}
    (moves : condition.waiters.Moves waiters thread role)
    (takes : ∀ waiter, role ≠ .waking waiter) {phase : ConditionPhase}
    (self : ThreadSound condition.lock waiters thread phase) :
    ({ condition with waiters := waiters }.moveTo thread phase).Sound ∧
      ∀ other, other ≠ thread → condition.Undisturbed
        ({ condition with waiters := waiters }.moveTo thread phase)
          other := by
  have others : ∀ other, other ≠ thread → condition.Undisturbed
      ({ condition with waiters := waiters }.moveTo thread phase) other := by
    intro other different
    refine ⟨Function.update_of_ne different _ _, rfl, ?_, ?_, ?_, ?_⟩
    · change waiters.role other = _
      rw [moves.role]
      exact Function.update_of_ne different _ _
    · exact fun _ => moves.waitQueue
    · exact fun _ _ blocked => moves.blocked takes blocked
    · exact moves.allocated.ge
  refine ⟨sound.assemble sound.lock waitersSound ?_ others
    (sound.selections.trans moves.selected.symm) sound.snapshots, others⟩
  change ThreadSound condition.lock waiters thread
    (Function.update condition.phase thread phase thread)
  rw [Function.update_self]
  exact self

theorem enqueue
    (sound : condition.Sound)
    (located : condition.phase thread = .waitChecked) :
    ∃ next, condition.perform (.enqueue thread) = .ok next ∧ next.Sound ∧
      (∀ other, other ≠ thread → condition.Undisturbed next other) ∧
      next.lock = condition.lock ∧
      next.waiters.waitQueue =
        condition.waiters.waitQueue ++ [condition.waiters.allocated] ∧
      next.phase = Function.update condition.phase thread
        (.waitReleasing condition.waiters.allocated) := by
  obtain ⟨idle, holding⟩ := sound.at_ located
  obtain ⟨waiters, performed, waitersSound, queue, selected, allocated,
    role⟩ := sound.waiters.enqueue idle
  have others : ∀ other, other ≠ thread → condition.Undisturbed
      ({ condition with waiters := waiters }.moveTo thread
        (.waitReleasing condition.waiters.allocated)) other := by
    intro other different
    refine ⟨Function.update_of_ne different _ _, rfl, ?_, ?_, ?_, ?_⟩
    · change waiters.role other = _
      rw [role]
      exact Function.update_of_ne different _ _
    · intro otherHolding
      exact absurd otherHolding (sound.exclusive holding different)
    · rintro waiter small (queued | ⟨someThread, isWaking⟩)
      · left
        change waiter ∈ waiters.waitQueue at queued
        rw [queue, List.mem_append, List.mem_singleton] at queued
        exact queued.resolve_right small.ne
      · right
        change waiters.role someThread = _ at isWaking
        rw [role, update_eq_iff_and (by simp)] at isWaking
        exact ⟨someThread, isWaking.2⟩
    · exact (Nat.le_succ _).trans allocated.ge
  refine ⟨_, by simp [perform, performed], ?_, others, rfl, queue, rfl⟩
  refine sound.assemble sound.lock waitersSound ?_ others
    (sound.selections.trans selected.symm) sound.snapshots
  · change ThreadSound condition.lock waiters thread
      (Function.update condition.phase thread _ thread)
    rw [Function.update_self]
    refine ⟨?_, ?_⟩
    · rw [role, Function.update_self]
    · rw [holding]
      rfl

/-- `Signal` takes the first semaphore off the queue; no other thread notices.
-/
theorem remove
    (sound : condition.Sound) {call : WakeCall}
    (located : condition.phase thread = .removing call) :
    ∃ waiter next, condition.perform (.remove thread call) = .ok next ∧
      next.Sound ∧
      (∀ other, other ≠ thread → condition.Undisturbed next other) ∧
      next.lock = condition.lock ∧
      condition.waiters.waitQueue = waiter :: next.waiters.waitQueue ∧
      next.phase = Function.update condition.phase thread
        (.waking { call.tick with selected := call.selected ++ [waiter] }
          waiter) := by
  obtain ⟨idle, holding, nonempty, callSound⟩ := sound.at_ located
  obtain ⟨waiter, waiters, performed, waitersSound, queue, selected,
    allocated, role⟩ := sound.waiters.removeFront idle nonempty
  have blocked : ∀ other, waiters.Blocked other →
      condition.waiters.Blocked other := by
    rintro other (queued | ⟨someThread, isWaking⟩)
    · left
      rw [queue]
      exact List.mem_cons_of_mem _ queued
    · by_cases same : other = waiter
      · left
        rw [same, queue]
        exact List.mem_cons_self
      · right
        rw [role, update_eq_iff_and (by simpa using Ne.symm same)] at isWaking
        exact ⟨someThread, isWaking.2⟩
  have others : ∀ other, other ≠ thread → condition.Undisturbed
      ({ condition with
        waiters := waiters
        selections := condition.selections ++
          [Selection.mk waiter thread call.snapshot] }.moveTo thread
            (.waking { call.tick with
              selected := call.selected ++ [waiter] } waiter)) other := by
    intro other different
    refine ⟨Function.update_of_ne different _ _, rfl, ?_, ?_,
      fun other _ => blocked other, allocated.ge⟩
    · change waiters.role other = _
      rw [role]
      exact Function.update_of_ne different _ _
    · intro otherHolding
      exact absurd otherHolding (sound.exclusive holding different)
  refine ⟨waiter, _, by simp [perform, performed], ?_, others, rfl, queue, rfl⟩
  have snapshot :
      call.snapshot = call.selected ++ [waiter] ++ waiters.waitQueue := by
    rw [callSound.snapshot, queue]
    simp
  refine sound.assemble sound.lock waitersSound ?_ others ?_ ?_
  · change ThreadSound condition.lock waiters thread
      (Function.update condition.phase thread _ thread)
    rw [Function.update_self]
    refine ⟨?_, holding, call.selected, rfl, snapshot, ?_, callSound.signal, ?_⟩
    · rw [role, Function.update_self]
    · intro isBroadcast
      exact congrArg (· + 1) (callSound.steps isBroadcast)
    · intro other member
      obtain ⟨small, notBlocked⟩ := callSound.woken other member
      exact ⟨small.trans_eq allocated.symm,
        fun isBlocked => notBlocked (blocked other isBlocked)⟩
  · change (condition.selections ++ [_]).map Selection.waiter =
      waiters.selected
    rw [List.map_append, sound.selections, selected]
    rfl
  · intro selection member
    rcases List.mem_append.mp member with old | new
    · exact sound.snapshots selection old
    · rw [List.mem_singleton.mp new]
      dsimp only
      rw [snapshot]
      simp

theorem V
    (sound : condition.Sound) {call : WakeCall} {waiter : Nat}
    (located : condition.phase thread = .waking call waiter) :
    ∃ next, condition.perform (.V thread call waiter) = .ok next ∧
      next.Sound ∧
      (∀ other, other ≠ thread → condition.Undisturbed next other) ∧
      next.lock = condition.lock ∧
      next.waiters.waitQueue = condition.waiters.waitQueue ∧
      next.phase = Function.update condition.phase thread call.tick.back := by
  obtain ⟨waker, holding, done, selected, callSound⟩ := sound.at_ located
  obtain ⟨waiters, performed, waitersSound, moves, notBlocked⟩ :=
    sound.waiters.perform_V waker
  have woken : ∀ other ∈ call.selected, other < waiters.allocated ∧
      ¬ waiters.Blocked other := by
    intro other member
    rw [selected] at member
    rw [moves.allocated]
    rcases List.mem_append.mp member with old | new
    · obtain ⟨small, notBlockedBefore⟩ := callSound.woken other old
      exact ⟨small, fun isBlocked =>
        notBlockedBefore (moves.blocked (by simp) isBlocked)⟩
    · rw [List.mem_singleton.mp new]
      exact ⟨sound.waiters.lt_allocated
        (Or.inl ((sound.waiters.at_ waiter).waking thread waker)), notBlocked⟩
  have idle : waiters.role thread = .none := by
    rw [moves.role, Function.update_self]
  have snapshot : call.snapshot = call.selected ++ waiters.waitQueue := by
    rw [moves.waitQueue]
    exact callSound.snapshot
  have self : ThreadSound condition.lock waiters thread call.tick.back := by
    unfold WakeCall.back
    cases isBroadcast : call.broadcast with
    | true =>
      rw [if_pos (show call.tick.broadcast = true from isBroadcast)]
      refine ⟨idle, holding, isBroadcast, snapshot, ?_, ?_, woken⟩
      · intro _
        have steps := callSound.steps isBroadcast
        change call.steps + 1 = 5 * call.selected.length + 0
        rw [selected, List.length_append, List.length_singleton]
        omega
      · intro notBroadcast
        cases isBroadcast.symm.trans notBroadcast
    | false =>
      have notBroadcast : ¬ call.tick.broadcast = true := by
        change ¬ call.broadcast = true
        simp [isBroadcast]
      rw [if_neg notBroadcast]
      refine ⟨idle, holding, ?_, ?_, woken⟩
      · rw [if_neg notBroadcast]
        change call.selected = call.snapshot.take 1
        rw [snapshot, selected, callSound.signal isBroadcast]
        rfl
      · exact fun isTrue => absurd isTrue notBroadcast
  obtain ⟨nextSound, others⟩ :=
    sound.waiters_step waitersSound moves (by simp) self
  exact ⟨_, by simp [perform, performed], nextSound, others, rfl,
    moves.waitQueue, rfl⟩

theorem P_step
    (sound : condition.Sound) {waiter : Nat} {waiters : Waiters Thread}
    (located : condition.phase thread = .waitP waiter)
    (waitersSound : waiters.Sound) {taken : Bool}
    (moves : condition.waiters.Moves waiters thread
      (Waiters.afterTest waiter taken)) :
    ({ condition with waiters := waiters }.moveTo thread
        (.waitP waiter)).Sound ∧
      ∀ other, other ≠ thread → condition.Undisturbed
        ({ condition with waiters := waiters }.moveTo thread
          (.waitP waiter)) other := by
  apply sound.waiters_step waitersSound moves
  · intro other
    cases taken <;> simp [Waiters.afterTest]
  · refine ⟨?_, (sound.at_ located).2⟩
    rw [moves.role, Function.update_self]
    cases taken <;> rfl

theorem loop
    (sound : condition.Sound) {call : WakeCall}
    (located : condition.phase thread = .looping call) :
    ∃ phase, condition.perform (.loop thread call) =
        .ok (condition.moveTo thread phase) ∧
      ThreadSound condition.lock condition.waiters thread phase := by
  obtain ⟨idle, holding, isBroadcast, callSound⟩ := sound.at_ located
  by_cases empty : condition.waiters.waitQueue = []
  · have allSelected : call.snapshot = call.selected := by
      rw [callSound.snapshot, empty, List.append_nil]
    refine ⟨.woken call.tick, if_pos empty, idle, holding, ?_, ?_,
      callSound.woken⟩
    · rw [if_pos (show call.tick.broadcast = true from isBroadcast)]
      exact allSelected.symm
    · intro _
      change call.steps + 1 = 5 * call.snapshot.length + 1
      rw [allSelected]
      exact congrArg (· + 1) (callSound.steps isBroadcast)
  · exact ⟨.signalCalled call.tick, if_neg empty, idle, holding,
      fun _ => empty, callSound.tick⟩

theorem test
    (sound : condition.Sound) {call : WakeCall}
    (located : condition.phase thread = .signalChecked call) :
    ∃ phase, condition.perform (.test thread call) =
        .ok (condition.moveTo thread phase) ∧
      ThreadSound condition.lock condition.waiters thread phase ∧
      (condition.waiters.waitQueue = [] → phase = .woken call.tick) := by
  obtain ⟨idle, holding, nonempty, callSound⟩ := sound.at_ located
  by_cases empty : condition.waiters.waitQueue = []
  · have notBroadcast : call.broadcast = false := by
      rw [← Bool.not_eq_true]
      exact fun isBroadcast => nonempty isBroadcast empty
    have nothing := callSound.signal notBroadcast
    have back : call.tick.back = .woken call.tick := by
      simp [WakeCall.back, WakeCall.tick, notBroadcast]
    refine ⟨.woken call.tick, (if_pos empty).trans (by rw [back]; rfl),
      ⟨idle, holding, ?_, ?_, callSound.woken⟩, fun _ => rfl⟩
    · change call.selected =
        if call.broadcast then call.snapshot else call.snapshot.take 1
      rw [callSound.snapshot, empty, nothing]
      cases call.broadcast <;> rfl
    · intro isBroadcast
      cases notBroadcast.symm.trans isBroadcast
  · exact ⟨.removing call.tick, if_neg empty,
      ⟨idle, holding, empty, callSound.tick⟩,
      fun isEmpty => absurd isEmpty empty⟩

/-- A step that is allowed does not fail, keeps the invariant and leaves the
other threads undisturbed. -/
theorem step
    (sound : condition.Sound) {event : Event Thread}
    (allowed : condition.Allows event) :
    ∃ next, condition.perform event = .ok next ∧ next.Sound ∧
      ∀ other, other ≠ event.thread →
        condition.Undisturbed next other := by
  cases event with
  | lock event =>
    obtain ⟨next, _, performed, nextSound, others, _⟩ :=
      sound.lock_step allowed.1 allowed.2
    exact ⟨next, performed, nextSound, others⟩
  | wait thread =>
    exact ⟨_, rfl, sound.control ⟨sound.at_ allowed.1, allowed.2⟩⟩
  | checkWait thread =>
    obtain ⟨idle, holding⟩ := sound.at_ allowed
    exact ⟨condition.moveTo thread .waitChecked,
      by simp [perform, sound.isHeldBy holding],
      sound.control ⟨idle, holding⟩⟩
  | enqueue thread =>
    obtain ⟨next, performed, nextSound, others, _⟩ := sound.enqueue allowed
    exact ⟨next, performed, nextSound, others⟩
  | released thread waiter =>
    obtain ⟨role, _⟩ := sound.at_ allowed.1
    refine ⟨_, rfl, sound.control ⟨?_, allowed.2⟩⟩
    rw [role]
    rfl
  | P thread waiter =>
    obtain ⟨taken, waiters, performed, waitersSound, moves⟩ :=
      sound.waiters.perform_P allowed.2
    have result : condition.perform (.P thread waiter) =
        .ok ({ condition with waiters := waiters }.moveTo thread
          (.waitP waiter)) := by
      simp [perform, performed]
    exact ⟨_, result, sound.P_step allowed.1 waitersSound moves⟩
  | resume thread waiter =>
    obtain ⟨taken, waiters, performed, waitersSound, moves⟩ :=
      sound.waiters.perform_resume allowed.2
    have result : condition.perform (.resume thread waiter) =
        .ok ({ condition with waiters := waiters }.moveTo thread
          (.waitP waiter)) := by
      simp [perform, performed]
    exact ⟨_, result, sound.P_step allowed.1 waitersSound moves⟩
  | passed thread waiter =>
    obtain ⟨_, outside⟩ := sound.at_ allowed.1
    refine ⟨_, rfl, sound.control ⟨allowed.2, ?_⟩⟩
    rw [outside]
    rfl
  | acquired thread waiter =>
    obtain ⟨role, _⟩ := sound.at_ allowed.1
    exact ⟨_, rfl, sound.control ⟨role, allowed.2⟩⟩
  | delete thread waiter =>
    obtain ⟨role, _⟩ := sound.at_ allowed
    obtain ⟨waiters, performed, waitersSound, moves⟩ :=
      sound.waiters.perform_delete role
    have result : condition.perform (.delete thread waiter) =
        .ok ({ condition with waiters := waiters }.moveTo thread .rest) := by
      simp [perform, performed]
    refine ⟨_, result, sound.waiters_step waitersSound moves (by simp) ?_⟩
    change waiters.role thread = .none
    rw [moves.role, Function.update_self]
  | signal thread =>
    refine ⟨_, rfl, sound.control ⟨sound.at_ allowed.1, allowed.2,
      fun isBroadcast => (nomatch isBroadcast), rfl,
      fun isBroadcast => (nomatch isBroadcast), fun _ => rfl, ?_⟩⟩
    exact fun _ member => absurd member List.not_mem_nil
  | broadcast thread =>
    refine ⟨_, rfl, sound.control ⟨sound.at_ allowed.1, allowed.2, rfl, rfl,
      fun _ => rfl, fun _ => rfl, ?_⟩⟩
    exact fun _ member => absurd member List.not_mem_nil
  | loop thread call =>
    obtain ⟨phase, performed, self⟩ := sound.loop allowed
    exact ⟨_, performed, sound.control self⟩
  | checkSignal thread call =>
    obtain ⟨idle, holding, nonempty, callSound⟩ := sound.at_ allowed
    exact ⟨condition.moveTo thread (.signalChecked call.tick),
      by simp [perform, sound.isHeldBy holding],
      sound.control ⟨idle, holding, nonempty, callSound.tick⟩⟩
  | test thread call =>
    obtain ⟨phase, performed, self, _⟩ := sound.test allowed
    exact ⟨_, performed, sound.control self⟩
  | remove thread call =>
    obtain ⟨_, next, performed, nextSound, others, _⟩ := sound.remove allowed
    exact ⟨next, performed, nextSound, others⟩
  | V thread call waiter =>
    obtain ⟨next, performed, nextSound, others, _⟩ := sound.V allowed
    exact ⟨next, performed, nextSound, others⟩
  | finish thread call =>
    obtain ⟨idle, _⟩ := sound.at_ allowed
    exact ⟨_, rfl, sound.control idle⟩

end Sound

theorem sound_of_reachable [DecidableEq Thread]
    {condition : ConditionUse Thread}
    (reachable : system.Reachable condition) : condition.Sound := by
  apply reachable.invariant
  · intro state starting
    rw [show state = create from starting]
    exact sound_create
  · intro source event target sound taken
    obtain ⟨next, performed, nextSound, _⟩ := sound.step taken.1
    cases performed.symm.trans taken.2
    exact nextSound

end ConditionUse

end Nachos
