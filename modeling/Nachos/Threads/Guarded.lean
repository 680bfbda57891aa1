import Nachos.Threads.Lock
import Nachos.Foundation.Update

/-!
# Calls that wait for a device under a lock

`SynchDisk::ReadSector`, `SynchConsoleInput::GetChar` and
`PostOfficeOutput::Send` have one shape: `lock->Acquire()`, a request to the
device, `semaphore->P()`, the use of the answer, `lock->Release()`; an interrupt
handler calls `semaphore->V()`.  This module is about the lock, the semaphore
and the threads between them.  The local variables of a call are its frame.
-/

namespace Nachos

open Foundation

variable {Thread Frame : Type}

inductive GuardedTask (Frame : Type) where
  | idle
  /-- In `lock->Acquire()`. -/
  | acquiring (frame : Frame)
  /-- `Acquire` has returned, before the request. -/
  | entered (frame : Frame)
  /-- Before the first test of `semaphore->P()`. -/
  | requested (frame : Frame)
  /-- Asleep or readied in `semaphore->P()`. -/
  | waiting (frame : Frame)
  /-- `P` has returned, before the use of the answer. -/
  | passed (frame : Frame)
  /-- Before the call of `lock->Release()`. -/
  | finished (frame : Frame)
  /-- In `lock->Release()`. -/
  | releasing (frame : Frame)

namespace GuardedTask

def isWaiting : GuardedTask Frame → Bool
  | .waiting _ => true
  | .idle | .acquiring _ | .entered _ | .requested _ | .passed _
  | .finished _ | .releasing _ => false

/-- `Acquire` has returned, and `Release` is not called. -/
def isHolding : GuardedTask Frame → Bool
  | .entered _ | .requested _ | .waiting _ | .passed _ | .finished _ => true
  | .idle | .acquiring _ | .releasing _ => false

/-- The request is made, and `P` has not returned. -/
def awaiting? : GuardedTask Frame → Option Frame
  | .requested frame | .waiting frame => some frame
  | .idle | .acquiring _ | .entered _ | .passed _ | .finished _
  | .releasing _ => none

/-- `Acquire` has returned, and the request is not made. -/
def entered? : GuardedTask Frame → Option Frame
  | .entered frame => some frame
  | .idle | .acquiring _ | .requested _ | .waiting _ | .passed _
  | .finished _ | .releasing _ => none

/-- `P` has returned, and the answer is not used. -/
def passed? : GuardedTask Frame → Option Frame
  | .passed frame => some frame
  | .idle | .acquiring _ | .entered _ | .requested _ | .waiting _
  | .finished _ | .releasing _ => none

/-- What is read off a task is read off threads with the lock only. -/
def OfHolder (read : GuardedTask Frame → Option Frame) : Prop :=
  ∀ task frame, read task = some frame → task.isHolding = true

theorem ofHolder_awaiting : OfHolder (@awaiting? Frame) := by
  intro task frame awaits
  cases task <;> first | rfl | cases awaits

theorem ofHolder_entered : OfHolder (@entered? Frame) := by
  intro task frame entered
  cases task <;> first | rfl | cases entered

theorem ofHolder_passed : OfHolder (@passed? Frame) := by
  intro task frame passed
  cases task <;> first | rfl | cases passed

theorem entered_of_awaiting
    {task : GuardedTask Frame} {frame : Frame}
    (awaits : task.awaiting? = some frame) : task.entered? = none := by
  cases task <;> first | rfl | cases awaits

theorem passed_of_awaiting
    {task : GuardedTask Frame} {frame : Frame}
    (awaits : task.awaiting? = some frame) : task.passed? = none := by
  cases task <;> first | rfl | cases awaits

end GuardedTask

structure GuardedUse (Thread Frame : Type) where
  lock : LockUse Thread
  semaphore : SemaphoreUse Thread
  task : Thread → GuardedTask Frame

namespace GuardedUse

def create : GuardedUse Thread Frame :=
  ⟨.create, .create 0, fun _ => .idle⟩

inductive Event (Thread Frame : Type) where
  | call (thread : Thread) (frame : Frame)
  /-- A step inside `Acquire` or `Release`. -/
  | lock (event : LockUse.Event Thread)
  /-- `Acquire` has returned. -/
  | acquired (thread : Thread) (frame : Frame)
  /-- The first test of `P`. -/
  | P (thread : Thread) (frame : Frame)
  /-- A woken thread tests again. -/
  | resume (thread : Thread) (frame : Frame)
  /-- Call `Release`. -/
  | release (thread : Thread) (frame : Frame)
  /-- `Release` has returned. -/
  | released (thread : Thread) (frame : Frame)

def Event.thread : Event Thread Frame → Thread
  | .call thread _ | .acquired thread _ | .P thread _ | .resume thread _
  | .release thread _ | .released thread _ => thread
  | .lock event => event.thread

def Permits (use : GuardedUse Thread Frame) (event : LockUse.Event Thread) :
    Prop :=
  match use.task event.thread with
  | .acquiring _ =>
    use.lock.phase event.thread ≠ .holding ∧ event.ofAcquire = true
  | .releasing _ => event.ofAcquire = false
  | .idle | .entered _ | .requested _ | .waiting _ | .passed _
  | .finished _ => False

def Allows (use : GuardedUse Thread Frame) : Event Thread Frame → Prop
  | .call thread _ => use.task thread = .idle
  | .lock event => use.Permits event ∧ use.lock.Allows event
  | .acquired thread frame =>
    use.task thread = .acquiring frame ∧ use.lock.phase thread = .holding
  | .P thread frame => use.task thread = .requested frame
  | .resume thread frame =>
    use.task thread = .waiting frame ∧ thread ∈ use.semaphore.readied
  | .release thread frame => use.task thread = .finished frame
  | .released thread frame =>
    use.task thread = .releasing frame ∧ use.lock.phase thread = .outside

def V (use : GuardedUse Thread Frame) : GuardedUse Thread Frame :=
  { use with semaphore := use.semaphore.V }

section

variable [DecidableEq Thread]

def moveTo (use : GuardedUse Thread Frame) (thread : Thread)
    (task : GuardedTask Frame) : GuardedUse Thread Frame :=
  { use with task := Function.update use.task thread task }

def afterTest (taken : Bool) (frame : Frame) : GuardedTask Frame :=
  if taken then .passed frame else .waiting frame

def perform (use : GuardedUse Thread Frame) :
    Event Thread Frame → Except Fault (GuardedUse Thread Frame)
  | .call thread frame => return use.moveTo thread (.acquiring frame)
  | .lock event => do
    let lock ← use.lock.perform event
    return { use with lock := lock }
  | .acquired thread frame => return use.moveTo thread (.entered frame)
  | .P thread frame => do
    let (taken, semaphore) ← use.semaphore.test thread
    return { use with semaphore := semaphore }.moveTo thread
      (afterTest taken frame)
  | .resume thread frame => do
    let (taken, semaphore) ← use.semaphore.resume thread
    return { use with semaphore := semaphore }.moveTo thread
      (afterTest taken frame)
  | .release thread frame => do
    let lock ← use.lock.perform (.release thread)
    return { use with lock := lock }.moveTo thread (.releasing frame)
  | .released thread _ => return use.moveTo thread .idle

end

inductive TaskStep :
    Event Thread Frame → GuardedTask Frame → GuardedTask Frame → Prop
  | call (thread : Thread) (frame : Frame) :
      TaskStep (.call thread frame) .idle (.acquiring frame)
  | lock (event : LockUse.Event Thread) (task : GuardedTask Frame) :
      TaskStep (.lock event) task task
  | acquired (thread : Thread) (frame : Frame) :
      TaskStep (.acquired thread frame) (.acquiring frame) (.entered frame)
  | P (thread : Thread) (frame : Frame) (taken : Bool) :
      TaskStep (.P thread frame) (.requested frame) (afterTest taken frame)
  | resume (thread : Thread) (frame : Frame) (taken : Bool) :
      TaskStep (.resume thread frame) (.waiting frame) (afterTest taken frame)
  | release (thread : Thread) (frame : Frame) :
      TaskStep (.release thread frame) (.finished frame) (.releasing frame)
  | released (thread : Thread) (frame : Frame) :
      TaskStep (.released thread frame) (.releasing frame) .idle

theorem TaskStep.entered
    {event : Event Thread Frame} {current task : GuardedTask Frame}
    (taskStep : TaskStep event current task)
    (notAcquired : ∀ thread frame, event ≠ .acquired thread frame) :
    task.entered? = current.entered? := by
  cases taskStep with
  | acquired thread frame => exact (notAcquired thread frame rfl).elim
  | P thread frame taken | resume thread frame taken =>
    cases taken <;> rfl
  | call | lock | release | released => rfl

/-- What a step does to the value of the semaphore: it is taken by the thread
that gets past `P`, and by no other. -/
def ValueStep (value next : Int) (current task : GuardedTask Frame) : Prop :=
  next = value ∧ task.awaiting? = current.awaiting? ∨
    value = next + 1 ∧ value ≠ 0 ∧ (∃ frame, current.awaiting? = some frame) ∧
      task.awaiting? = none

/-! ## The invariant -/

def TaskSound (phase : LockPhase) : GuardedTask Frame → Prop
  | .idle => phase = .outside
  | .acquiring _ => phase.inAcquire = true
  | .entered _ | .requested _ | .waiting _ | .passed _ | .finished _ =>
    phase = .holding
  | .releasing _ => phase.inRelease = true

structure Sound (use : GuardedUse Thread Frame) : Prop where
  lock : use.lock.Sound
  semaphore : use.semaphore.Sound 0 0
  inside : ∀ thread, use.semaphore.Inside thread ↔
    (use.task thread).isWaiting = true
  tasks : ∀ thread, TaskSound (use.lock.phase thread) (use.task thread)

theorem sound_create : (create : GuardedUse Thread Frame).Sound where
  lock := LockUse.sound_create
  semaphore := SemaphoreUse.sound_create le_rfl (by decide)
  inside := by
    intro thread
    simp [create, SemaphoreUse.create, Semaphore.create, SemaphoreUse.Inside,
      GuardedTask.isWaiting]
  tasks := fun _ => rfl

theorem TaskSound.holding
    {phase : LockPhase} {task : GuardedTask Frame}
    (sound : TaskSound phase task) (holding : task.isHolding = true) :
    phase = .holding := by
  cases task <;> first | exact sound | cases holding

variable {use : GuardedUse Thread Frame} {thread other : Thread}

def Sole (use : GuardedUse Thread Frame) (thread : Thread) : Prop :=
  ∀ other, other ≠ thread → (use.task other).isHolding = false

namespace Sound

theorem sole_of_phase
    (sound : use.Sound) (phase : use.lock.phase thread = .holding) :
    use.Sole thread := by
  intro other different
  have inRegion : (use.lock.phase thread).inRegion = true := by
    rw [phase]
    rfl
  rw [← Bool.not_eq_true]
  intro otherHolding
  have alone := sound.lock.alone inRegion different
  rw [(sound.tasks other).holding otherHolding] at alone
  cases alone

theorem sole
    (sound : use.Sound) (holding : (use.task thread).isHolding = true) :
    use.Sole thread :=
  sound.sole_of_phase ((sound.tasks thread).holding holding)

theorem V
    (sound : use.Sound) (zero : use.semaphore.semaphore.value = 0) :
    use.V.Sound where
  lock := sound.lock
  semaphore := sound.semaphore.V (by omega)
  inside := fun thread =>
    (SemaphoreUse.inside_V use.semaphore thread).trans (sound.inside thread)
  tasks := sound.tasks

theorem value_V
    (sound : use.Sound) (zero : use.semaphore.semaphore.value = 0) :
    use.V.semaphore.semaphore.value = 1 := by
  change use.semaphore.V.semaphore.value = 1
  rw [sound.semaphore.value_V (by omega), zero]
  rfl

variable [DecidableEq Thread]

theorem inside_update
    (sound : use.Sound) {task : GuardedTask Frame}
    (same : task.isWaiting = (use.task thread).isWaiting) (other : Thread) :
    use.semaphore.Inside other ↔
      (Function.update use.task thread task other).isWaiting = true := by
  rw [read_update_eq GuardedTask.isWaiting same]
  exact sound.inside other

theorem moveTo
    (sound : use.Sound) {current task : GuardedTask Frame}
    (located : use.task thread = current)
    (leaves : current.isWaiting = false) (enters : task.isWaiting = false)
    (taskSound : TaskSound (use.lock.phase thread) task) :
    (use.moveTo thread task).Sound := by
  subst located
  refine ⟨sound.lock, sound.semaphore,
    sound.inside_update (enters.trans leaves.symm), ?_⟩
  exact (Function.forall_update_iff use.task (fun other task =>
    TaskSound (use.lock.phase other) task)).mpr
      ⟨taskSound, fun other _ => sound.tasks other⟩

theorem goOn
    (sound : use.Sound) {current task : GuardedTask Frame}
    (located : use.task thread = current)
    (leaves : current.isHolding = true ∧ current.isWaiting = false)
    (enters : task.isHolding = true ∧ task.isWaiting = false) :
    (use.moveTo thread task).Sound := by
  refine sound.moveTo located leaves.2 enters.2 ?_
  have phase : use.lock.phase thread = .holding :=
    (sound.tasks thread).holding (by rw [located]; exact leaves.1)
  rw [phase]
  cases task <;> first | rfl | cases enters.1

theorem call
    (sound : use.Sound) (idle : use.task thread = .idle) (frame : Frame) :
    (use.moveTo thread (.acquiring frame)).Sound := by
  refine sound.moveTo idle rfl rfl ?_
  have outside := sound.tasks thread
  rw [idle] at outside
  rw [show use.lock.phase thread = .outside from outside]
  rfl

theorem lockStep
    (sound : use.Sound) {event : LockUse.Event Thread}
    (allowed : use.Allows (.lock event)) :
    ∃ lock, use.lock.perform event = .ok lock ∧
      { use with lock := lock }.Sound := by
  obtain ⟨permitted, lockAllowed⟩ := allowed
  obtain ⟨lock, phase, performed, lockSound, moved, inAcquire, inRelease⟩ :=
    sound.lock.step lockAllowed
  refine ⟨lock, performed, lockSound, sound.semaphore, sound.inside, ?_⟩
  intro other
  change TaskSound (lock.phase other) (use.task other)
  rw [moved]
  by_cases same : other = event.thread
  · have current := sound.tasks event.thread
    unfold Permits at permitted
    rw [same, Function.update_self]
    cases task : use.task event.thread with
    | acquiring frame =>
      rw [task] at permitted current
      exact inAcquire permitted.2 permitted.1 current
    | releasing frame =>
      rw [task] at permitted
      exact inRelease permitted
    | idle | entered | requested | waiting | passed | finished =>
      rw [task] at permitted
      exact permitted.elim
  · rw [Function.update_of_ne same]
    exact sound.tasks other

theorem acquired
    (sound : use.Sound) {frame : Frame}
    (acquiring : use.task thread = .acquiring frame)
    (holding : use.lock.phase thread = .holding) (next : Frame) :
    (use.moveTo thread (.entered next)).Sound :=
  sound.moveTo acquiring rfl rfl holding

theorem tested
    (sound : use.Sound) {frame : Frame}
    (awaits : (use.task thread).awaiting? = some frame)
    {taken : Bool} {semaphore : SemaphoreUse Thread}
    (tested : use.semaphore.Tested thread taken semaphore)
    (semaphoreSound : semaphore.Sound 0 0) :
    ({ use with semaphore := semaphore }.moveTo thread
      (afterTest taken frame)).Sound := by
  refine ⟨sound.lock, semaphoreSound, ?_, ?_⟩
  · apply (Function.forall_update_iff use.task (fun other task =>
      semaphore.Inside other ↔ task.isWaiting = true)).mpr
    refine ⟨?_, fun other different => ?_⟩
    · rw [tested.inside_self]
      cases taken <;> simp [afterTest, GuardedTask.isWaiting]
    · rw [tested.inside_other other different]
      exact sound.inside other
  · refine (Function.forall_update_iff use.task (fun other task =>
      TaskSound (use.lock.phase other) task)).mpr
        ⟨?_, fun other _ => sound.tasks other⟩
    rw [(sound.tasks thread).holding (GuardedTask.ofHolder_awaiting _ _ awaits)]
    cases taken <;> rfl

theorem testP
    (sound : use.Sound) {frame : Frame} {event : Event Thread Frame}
    (isTest : event = .P thread frame ∨ event = .resume thread frame)
    (allowed : use.Allows event) :
    (use.task thread).awaiting? = some frame ∧
      ∃ taken semaphore,
        use.perform event = .ok ({ use with semaphore := semaphore }.moveTo
          thread (afterTest taken frame)) ∧
        use.semaphore.Tested thread taken semaphore ∧
        ({ use with semaphore := semaphore }.moveTo thread
          (afterTest taken frame)).Sound := by
  rcases isTest with rfl | rfl
  · have requested : use.task thread = .requested frame := allowed
    have awaits : (use.task thread).awaiting? = some frame := by
      rw [requested]
      rfl
    have outside : ¬ use.semaphore.Inside thread := by
      rw [sound.inside, requested]
      exact Bool.false_ne_true
    obtain ⟨taken, semaphore, performed, tested, semaphoreSound⟩ :=
      sound.semaphore.P outside
    refine ⟨awaits, taken, semaphore, ?_, tested,
      sound.tested awaits tested semaphoreSound⟩
    simp [perform, performed]
  · obtain ⟨waiting, readied⟩ := allowed
    have awaits : (use.task thread).awaiting? = some frame := by
      rw [waiting]
      rfl
    obtain ⟨taken, semaphore, performed, tested, semaphoreSound⟩ :=
      sound.semaphore.resume readied
    refine ⟨awaits, taken, semaphore, ?_, tested,
      sound.tested awaits tested semaphoreSound⟩
    simp [perform, performed]

theorem release
    (sound : use.Sound) {frame : Frame}
    (finished : use.task thread = .finished frame) :
    ∃ lock, use.perform (.release thread frame) =
        .ok ({ use with lock := lock }.moveTo thread (.releasing frame)) ∧
      ({ use with lock := lock }.moveTo thread (.releasing frame)).Sound := by
  have holding : use.lock.phase thread = .holding :=
    (sound.tasks thread).holding (by rw [finished]; rfl)
  obtain ⟨lock, phase, performed, lockSound, moved, _, inRelease⟩ :=
    sound.lock.step (show use.lock.Allows (.release thread) from holding)
  have same :
      GuardedTask.isWaiting (.releasing frame) =
        (use.task thread).isWaiting := by
    rw [finished]
    rfl
  refine ⟨lock, by simp [perform, performed], lockSound, sound.semaphore,
    sound.inside_update same, ?_⟩
  refine (Function.forall_update_iff use.task (fun other task =>
    TaskSound (lock.phase other) task)).mpr ⟨?_, fun other different => ?_⟩
  · have here : lock.phase thread = phase := by
      rw [moved]
      exact Function.update_self ..
    rw [here]
    exact inRelease rfl
  · have there : lock.phase other = use.lock.phase other := by
      rw [moved]
      exact Function.update_of_ne different ..
    rw [there]
    exact sound.tasks other

theorem released
    (sound : use.Sound) {frame : Frame}
    (releasing : use.task thread = .releasing frame)
    (outside : use.lock.phase thread = .outside) :
    (use.moveTo thread .idle).Sound :=
  sound.moveTo releasing rfl rfl outside

omit [DecidableEq Thread] in
theorem valueStep_of_test
    {frame : Frame} (awaits : (use.task thread).awaiting? = some frame)
    {taken : Bool} {semaphore : SemaphoreUse Thread}
    (tested : use.semaphore.Tested thread taken semaphore) :
    ValueStep use.semaphore.semaphore.value semaphore.semaphore.value
      (use.task thread) (afterTest taken frame) := by
  have value := tested.value
  cases taken with
  | false => exact Or.inl ⟨by simpa using value, awaits.symm⟩
  | true =>
    refine Or.inr ⟨?_, tested.taken_iff.mp rfl, ⟨frame, awaits⟩, rfl⟩
    rw [Bool.toNat_true] at value
    omega

/-- A step changes the task of its thread, and the value as `ValueStep` says. -/
theorem step
    (sound : use.Sound) {event : Event Thread Frame}
    (allowed : use.Allows event) :
    ∃ next task, use.perform event = .ok next ∧ next.Sound ∧
      next.task = Function.update use.task event.thread task ∧
      TaskStep event (use.task event.thread) task ∧
      ValueStep use.semaphore.semaphore.value next.semaphore.semaphore.value
        (use.task event.thread) task := by
  cases event with
  | call thread frame =>
    have idle : use.task thread = .idle := allowed
    refine ⟨_, _, rfl, sound.call idle frame, rfl, ?_⟩
    change TaskStep _ (use.task thread) _ ∧ ValueStep _ _ (use.task thread) _
    rw [idle]
    exact ⟨.call thread frame, Or.inl ⟨rfl, rfl⟩⟩
  | lock event =>
    obtain ⟨lock, performed, nextSound⟩ := sound.lockStep allowed
    exact ⟨{ use with lock := lock }, use.task event.thread,
      by simp [perform, performed], nextSound,
      (Function.update_eq_self event.thread use.task).symm, .lock event _,
      Or.inl ⟨rfl, rfl⟩⟩
  | acquired thread frame =>
    refine ⟨_, _, rfl, sound.acquired allowed.1 allowed.2 frame, rfl, ?_⟩
    change TaskStep _ (use.task thread) _ ∧ ValueStep _ _ (use.task thread) _
    rw [allowed.1]
    exact ⟨.acquired thread frame, Or.inl ⟨rfl, rfl⟩⟩
  | P thread frame =>
    have requested : use.task thread = .requested frame := allowed
    obtain ⟨awaits, taken, semaphore, performed, tested, nextSound⟩ :=
      sound.testP (Or.inl rfl) allowed
    refine ⟨_, _, performed, nextSound, rfl, ?_,
      valueStep_of_test awaits tested⟩
    change TaskStep _ (use.task thread) _
    rw [requested]
    exact .P thread frame taken
  | resume thread frame =>
    obtain ⟨awaits, taken, semaphore, performed, tested, nextSound⟩ :=
      sound.testP (Or.inr rfl) allowed
    refine ⟨_, _, performed, nextSound, rfl, ?_,
      valueStep_of_test awaits tested⟩
    change TaskStep _ (use.task thread) _
    rw [allowed.1]
    exact .resume thread frame taken
  | release thread frame =>
    have finished : use.task thread = .finished frame := allowed
    obtain ⟨lock, performed, nextSound⟩ := sound.release finished
    refine ⟨_, _, performed, nextSound, rfl, ?_⟩
    change TaskStep _ (use.task thread) _ ∧ ValueStep _ _ (use.task thread) _
    rw [finished]
    exact ⟨.release thread frame, Or.inl ⟨rfl, rfl⟩⟩
  | released thread frame =>
    refine ⟨_, _, rfl, sound.released allowed.1 allowed.2, rfl, ?_⟩
    change TaskStep _ (use.task thread) _ ∧ ValueStep _ _ (use.task thread) _
    rw [allowed.1]
    exact ⟨.released thread frame, Or.inl ⟨rfl, rfl⟩⟩

end Sound

/-! ## The device and the call that uses it -/

/-- `read` tells which call, if any, is at some point; the device is `busy` with
it, and `quiet` if there is none. -/
structure Attends (use : GuardedUse Thread Frame)
    (read : GuardedTask Frame → Option Frame)
    (busy : Frame → Prop) (quiet : Prop) : Prop where
  busy : ∀ thread frame, read (use.task thread) = some frame → busy frame
  quiet : (∀ thread, read (use.task thread) = none) → quiet

namespace Attends

variable {read : GuardedTask Frame → Option Frame}
variable {busy nextBusy : Frame → Prop} {quiet nextQuiet : Prop}

theorem none_of_sole
    (ofHolder : GuardedTask.OfHolder read) (sole : use.Sole thread)
    (different : other ≠ thread) : read (use.task other) = none := by
  have notHolding := sole other different
  cases reads : read (use.task other) with
  | none =>
    rfl
  | some frame =>
    rw [ofHolder _ _ reads] at notHolding
    cases notHolding

theorem quiet_of_sole
    (attends : use.Attends read busy quiet)
    (ofHolder : GuardedTask.OfHolder read) (sole : use.Sole thread)
    (none : read (use.task thread) = none) : quiet := by
  refine attends.quiet fun other => ?_
  by_cases same : other = thread
  · rw [same]
    exact none
  · exact none_of_sole ofHolder sole same

theorem imp
    (attends : use.Attends read busy quiet) {next : GuardedUse Thread Frame}
    (same : ∀ other, read (next.task other) = read (use.task other))
    (busyImp : ∀ frame, busy frame → nextBusy frame)
    (quietImp : quiet → nextQuiet) :
    next.Attends read nextBusy nextQuiet where
  busy := by
    intro thread frame reads
    rw [same] at reads
    exact busyImp frame (attends.busy thread frame reads)
  quiet := by
    intro none
    exact quietImp (attends.quiet fun thread => (same thread).symm.trans
      (none thread))

variable [DecidableEq Thread]

theorem moveTo
    (attends : use.Attends read busy quiet) {current task : GuardedTask Frame}
    (located : use.task thread = current) (same : read task = read current) :
    (use.moveTo thread task).Attends read busy quiet := by
  subst located
  exact attends.imp (read_update_eq read same) (fun _ => id) id

theorem begins
    (ofHolder : GuardedTask.OfHolder read) (sole : use.Sole thread)
    {task : GuardedTask Frame} {frame : Frame} (reads : read task = some frame)
    (isBusy : nextBusy frame) :
    (use.moveTo thread task).Attends read nextBusy nextQuiet where
  busy := by
    refine (Function.forall_update_iff use.task (fun other task =>
      ∀ call, read task = some call → nextBusy call)).mpr ⟨?_, ?_⟩
    · intro call isFrame
      rw [reads] at isFrame
      cases isFrame
      exact isBusy
    · intro other different call otherReads
      rw [none_of_sole ofHolder sole different] at otherReads
      cases otherReads
  quiet := by
    intro none
    have self := none thread
    rw [show (use.moveTo thread task).task thread = task from
      Function.update_self .., reads] at self
    cases self

theorem ends
    (ofHolder : GuardedTask.OfHolder read) (sole : use.Sole thread)
    {task : GuardedTask Frame} (none : read task = none)
    (isQuiet : nextQuiet) :
    (use.moveTo thread task).Attends read nextBusy nextQuiet where
  busy := by
    refine (Function.forall_update_iff use.task (fun other task =>
      ∀ call, read task = some call → nextBusy call)).mpr ⟨?_, ?_⟩
    · intro call reads
      rw [none] at reads
      cases reads
    · intro other different call reads
      rw [none_of_sole ofHolder sole different] at reads
      cases reads
  quiet := fun _ => isQuiet

end Attends

end GuardedUse

end Nachos
