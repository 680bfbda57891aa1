import Nachos.Threads.Wakeups

/-!
# Calls of `Wait` and `Signal`, as their callers see them

What a step inside a call does to the thread that has made the call, for the
code that is built on conditions.
-/

namespace Nachos

open Foundation

variable {Thread : Type}

namespace ConditionPhase

/-- The phases of a call of `Signal`, with the one before and after it. -/
def inSignal : ConditionPhase → Bool
  | .rest => true
  | .signalCalled call | .signalChecked call | .removing call
  | .waking call _ | .woken call => !call.broadcast
  | .waitCalled | .waitChecked | .waitReleasing _ | .waitP _
  | .waitAcquiring _ | .waitDeleting _ | .looping _ => false

def beforeV : ConditionPhase → Bool
  | .signalCalled _ | .signalChecked _ | .removing _ | .waking _ _ => true
  | .rest | .waitCalled | .waitChecked | .waitReleasing _ | .waitP _
  | .waitAcquiring _ | .waitDeleting _ | .looping _ | .woken _ => false

def inWait : ConditionPhase → Bool
  | .rest | .waitCalled | .waitChecked | .waitReleasing _ | .waitP _
  | .waitAcquiring _ | .waitDeleting _ => true
  | .looping _ | .signalCalled _ | .signalChecked _ | .removing _
  | .waking _ _ | .woken _ => false

def beforeQueue : ConditionPhase → Bool
  | .waitCalled | .waitChecked => true
  | .rest | .waitReleasing _ | .waitP _ | .waitAcquiring _
  | .waitDeleting _ | .looping _ | .signalCalled _ | .signalChecked _
  | .removing _ | .waking _ _ | .woken _ => false

theorem inWait_eq_false
    {phase : ConditionPhase} (signalling : phase.inSignal = true)
    (busy : phase ≠ .rest) : phase.inWait = false := by
  cases phase with
  | rest => exact absurd rfl busy
  | looping call | signalCalled call | signalChecked call | removing call
  | waking call waiter | woken call => rfl
  | waitCalled | waitChecked | waitReleasing waiter | waitP waiter
  | waitAcquiring waiter | waitDeleting waiter => cases signalling

end ConditionPhase

namespace ConditionUse

/-- The thread has called `Wait`, and was released or has even returned. -/
def Woken (condition : ConditionUse Thread) (thread : Thread) : Prop :=
  condition.phase thread = .rest ∨
    ∃ waiter, (condition.waiters.role thread).waiter? = some waiter ∧
      ¬ condition.waiters.Blocked waiter

theorem Undisturbed.woken_of_woken
    {condition next : ConditionUse Thread} {thread : Thread}
    (undisturbed : condition.Undisturbed next thread)
    (sound : condition.Sound) (woken : condition.Woken thread) :
    next.Woken thread := by
  rcases woken with resting | ⟨waiter, waits, notBlocked⟩
  · exact Or.inl (undisturbed.phase.trans resting)
  · refine Or.inr ⟨waiter, ?_, fun blocked => notBlocked ?_⟩
    · rw [undisturbed.role]
      exact waits
    · exact undisturbed.blocked waiter
        (sound.waiters.lt_allocated_of_waiter? waits) blocked

/-- A step of a thread inside `Signal`.  The thread keeps the lock; it goes past
the `V` only if nobody is left in the queue or if it releases a thread. -/
structure SignalStep (condition next : ConditionUse Thread)
    (thread : Thread) : Prop where
  inSignal : (next.phase thread).inSignal = true
  lock : next.lock = condition.lock
  queue : next.waiters.waitQueue ≠ [] → condition.waiters.waitQueue ≠ []
  releases : (condition.phase thread).beforeV = true →
    (next.phase thread).beforeV = true ∨ next.waiters.waitQueue = [] ∨
      ∃ waiter, condition.waiters.Blocked waiter ∧
        ¬ next.waiters.Blocked waiter

structure WaitStep (condition next : ConditionUse Thread)
    (thread : Thread) : Prop where
  inWait : (next.phase thread).inWait = true
  returns : next.phase thread = .rest → next.lock.phase thread = .holding
  before : (next.phase thread).beforeQueue = true →
    (condition.phase thread).beforeQueue = true
  queue : next.waiters.waitQueue ≠ [] →
    condition.waiters.waitQueue ≠ [] ∨
      (condition.phase thread).beforeQueue = true
  woken : condition.Woken thread → next.Woken thread

variable {condition next : ConditionUse Thread}

namespace Sound

theorem holding_of_beforeQueue
    (sound : condition.Sound) {thread : Thread}
    (before : (condition.phase thread).beforeQueue = true) :
    condition.lock.phase thread = .holding := by
  cases located : condition.phase thread with
  | waitCalled | waitChecked => exact (sound.at_ located).2
  | rest | waitReleasing waiter | waitP waiter | waitAcquiring waiter
  | waitDeleting waiter | looping call | signalCalled call
  | signalChecked call | removing call | waking call waiter | woken call =>
    rw [located] at before
    cases before

theorem inWait_of_waitsOn
    (sound : condition.Sound) {thread : Thread} {waiter : Nat}
    (waits : condition.waiters.WaitsOn thread waiter) :
    (condition.phase thread).inWait = true ∧
      condition.phase thread ≠ .rest := by
  have self := sound.threads thread
  unfold Waiters.WaitsOn at waits
  cases located : condition.phase thread with
  | waitReleasing number | waitP number | waitAcquiring number
  | waitDeleting number => simp [ConditionPhase.inWait]
  | rest =>
    rw [located] at self
    simp [show condition.waiters.role thread = _ from self] at waits
  | waitCalled | waitChecked | looping call | signalCalled call
  | signalChecked call | removing call | waking call number | woken call =>
    rw [located] at self
    simp [self.1] at waits

variable [DecidableEq Thread]

theorem signal_step
    (sound : condition.Sound) {event : Event Thread}
    (inSignal : (condition.phase event.thread).inSignal = true)
    (busy : condition.phase event.thread ≠ .rest)
    (allowed : condition.Allows event)
    (performed : condition.perform event = .ok next) :
    condition.SignalStep next event.thread := by
  cases event with
  | lock event =>
    change (condition.phase event.thread).inSignal = true at inSignal
    rcases allowed.1.phase with located | ⟨_, located⟩ | ⟨_, located⟩
    · exact absurd located busy
    · rw [located] at inSignal
      cases inSignal
    · rw [located] at inSignal
      cases inSignal
  | wait thread | signal thread | broadcast thread =>
    exact absurd allowed.1 busy
  | released thread number | P thread number | resume thread number
  | passed thread number | acquired thread number =>
    change (condition.phase thread).inSignal = true at inSignal
    rw [show condition.phase thread = _ from allowed.1] at inSignal
    cases inSignal
  | checkWait thread | enqueue thread | delete thread number
  | loop thread call =>
    change (condition.phase thread).inSignal = true at inSignal
    rw [show condition.phase thread = _ from allowed] at inSignal
    cases inSignal
  | checkSignal thread call =>
    change (condition.phase thread).inSignal = true at inSignal
    rw [show condition.phase thread = _ from allowed] at inSignal
    obtain ⟨_, holding, _⟩ := sound.at_ allowed
    simp only [perform, assertThat, sound.isHeldBy holding] at performed
    cases performed
    exact ⟨(congrArg _ (phase_moveTo_self _)).trans inSignal, rfl, id,
      fun _ => Or.inl (congrArg _ (phase_moveTo_self _))⟩
  | test thread call =>
    change (condition.phase thread).inSignal = true at inSignal
    rw [show condition.phase thread = _ from allowed] at inSignal
    by_cases empty : condition.waiters.waitQueue = []
    · obtain ⟨phase, result, _, isWoken⟩ := sound.test allowed
      rw [isWoken empty] at result
      cases result.symm.trans performed
      exact ⟨(congrArg _ (phase_moveTo_self _)).trans inSignal, rfl, id,
        fun _ => Or.inr (Or.inl empty)⟩
    · simp only [perform, if_neg empty] at performed
      cases performed
      exact ⟨(congrArg _ (phase_moveTo_self _)).trans inSignal, rfl, id,
        fun _ => Or.inl (congrArg _ (phase_moveTo_self _))⟩
  | remove thread call =>
    change (condition.phase thread).inSignal = true at inSignal
    rw [show condition.phase thread = _ from allowed] at inSignal
    obtain ⟨waiter, _, result, _, _, lock, queue, phase⟩ := sound.remove allowed
    cases result.symm.trans performed
    have moved : next.phase thread =
        .waking { call.tick with selected := call.selected ++ [waiter] }
          waiter := by
      rw [phase, Function.update_self]
    refine ⟨(congrArg _ moved).trans inSignal, lock, ?_,
      fun _ => Or.inl (congrArg _ moved)⟩
    rw [queue]
    exact fun _ => List.cons_ne_nil _ _
  | V thread call waiter =>
    change (condition.phase thread).inSignal = true at inSignal
    rw [show condition.phase thread = _ from allowed] at inSignal
    have isSignal : call.broadcast = false := by
      simpa [ConditionPhase.inSignal] using inSignal
    obtain ⟨waker, _⟩ := sound.at_ allowed
    obtain ⟨waiters, woken, _, moves, notBlocked⟩ :=
      sound.waiters.perform_V waker
    simp only [perform, woken] at performed
    cases performed
    refine ⟨?_, rfl, ?_, fun _ => Or.inr (Or.inr
      ⟨waiter, Or.inr ⟨thread, waker⟩, notBlocked⟩)⟩
    · refine (congrArg _ (phase_moveTo_self _)).trans ?_
      simp [WakeCall.back, WakeCall.tick, isSignal, ConditionPhase.inSignal]
    · change waiters.waitQueue ≠ [] → _
      rw [moves.waitQueue]
      exact id
  | finish thread call =>
    cases performed
    refine ⟨congrArg _ (phase_moveTo_self _), rfl, id, ?_⟩
    intro isBefore
    change (condition.phase thread).beforeV = true at isBefore
    rw [show condition.phase thread = _ from allowed] at isBefore
    cases isBefore

theorem wait_control
    {thread : Thread} {phase : ConditionPhase}
    (busy : condition.phase thread ≠ .rest)
    (stays : phase.inWait = true ∧ phase ≠ .rest)
    (before : phase.beforeQueue = true →
      (condition.phase thread).beforeQueue = true) :
    condition.WaitStep (condition.moveTo thread phase) thread := by
  refine ⟨?_, ?_, ?_, Or.inl, fun woken => Or.inr (woken.resolve_left busy)⟩
  · rw [phase_moveTo_self]
    exact stays.1
  · rw [phase_moveTo_self]
    exact fun resting => absurd resting stays.2
  · rw [phase_moveTo_self]
    exact before

theorem wait_test
    {thread : Thread} {waiter : Nat} {waiters : Waiters Thread} {taken : Bool}
    (busy : condition.phase thread ≠ .rest)
    (role : (condition.waiters.role thread).waiter? = some waiter)
    (moves : condition.waiters.Moves waiters thread
      (Waiters.afterTest waiter taken)) :
    condition.WaitStep
      ({ condition with waiters := waiters }.moveTo thread (.waitP waiter))
      thread := by
  refine ⟨?_, ?_, ?_, ?_, ?_⟩
  · rw [phase_moveTo_self]
    rfl
  · rw [phase_moveTo_self]
    exact fun resting => (nomatch resting)
  · rw [phase_moveTo_self]
    exact fun isBefore => (nomatch isBefore)
  · change waiters.waitQueue ≠ [] → _
    rw [moves.waitQueue]
    exact Or.inl
  · intro woken
    obtain ⟨number, waits, notBlocked⟩ := woken.resolve_left busy
    cases role.symm.trans waits
    refine Or.inr ⟨waiter, ?_, ?_⟩
    · change (waiters.role thread).waiter? = some waiter
      rw [moves.role, Function.update_self]
      cases taken <;> rfl
    · intro blocked
      refine notBlocked (moves.blocked ?_ blocked)
      cases taken <;> simp [Waiters.afterTest]

theorem wait_step
    (sound : condition.Sound) {event : Event Thread}
    (inWait : (condition.phase event.thread).inWait = true)
    (busy : condition.phase event.thread ≠ .rest)
    (allowed : condition.Allows event)
    (performed : condition.perform event = .ok next) :
    condition.WaitStep next event.thread := by
  cases event with
  | lock event =>
    obtain ⟨_, _, result, _, _, samePhase, sameWaiters, _⟩ :=
      sound.lock_step allowed.1 allowed.2
    cases result.symm.trans performed
    refine ⟨?_, ?_, ?_, ?_, ?_⟩
    · rw [samePhase]
      exact inWait
    · rw [samePhase]
      exact fun resting => absurd resting busy
    · rw [samePhase]
      exact id
    · rw [sameWaiters]
      exact Or.inl
    · unfold Woken
      rw [samePhase, sameWaiters]
      exact id
  | wait thread | signal thread | broadcast thread =>
    exact absurd allowed.1 busy
  | checkWait thread =>
    obtain ⟨_, holding⟩ := sound.at_ allowed
    simp only [perform, assertThat, sound.isHeldBy holding] at performed
    cases performed
    refine wait_control busy ⟨rfl, by simp⟩ (fun _ => ?_)
    rw [show condition.phase thread = _ from allowed]
    rfl
  | enqueue thread =>
    obtain ⟨idle, _⟩ := sound.at_ allowed
    obtain ⟨_, result, _, _, _, _, phase⟩ := sound.enqueue allowed
    cases result.symm.trans performed
    have moved : next.phase thread =
        .waitReleasing condition.waiters.allocated := by
      rw [phase, Function.update_self]
    refine ⟨congrArg _ moved, ?_, ?_, fun _ => Or.inr ?_, ?_⟩
    · intro resting
      cases moved.symm.trans resting
    · intro isBefore
      cases (congrArg _ moved).symm.trans isBefore
    · change (condition.phase thread).beforeQueue = true
      rw [show condition.phase thread = _ from allowed]
      rfl
    · intro woken
      obtain ⟨number, waits, _⟩ := woken.resolve_left busy
      change (condition.waiters.role thread).waiter? = _ at waits
      rw [idle] at waits
      cases waits
  | released thread waiter | passed thread waiter
  | acquired thread waiter =>
    cases performed
    exact wait_control busy ⟨rfl, by simp⟩
      (by simp [ConditionPhase.beforeQueue])
  | P thread waiter =>
    obtain ⟨_, waiters, tested, _, moves⟩ := sound.waiters.perform_P allowed.2
    simp only [perform, tested] at performed
    cases performed
    exact wait_test busy (sound.at_ allowed.1).1 moves
  | resume thread waiter =>
    obtain ⟨_, waiters, tested, _, moves⟩ :=
      sound.waiters.perform_resume allowed.2
    simp only [perform, tested] at performed
    cases performed
    exact wait_test busy (sound.at_ allowed.1).1 moves
  | delete thread waiter =>
    obtain ⟨role, holding⟩ := sound.at_ allowed
    obtain ⟨waiters, deleted, _, moves⟩ := sound.waiters.perform_delete role
    simp only [perform, deleted] at performed
    cases performed
    refine ⟨congrArg _ (phase_moveTo_self _), fun _ => holding, ?_, ?_,
      fun _ => Or.inl (phase_moveTo_self _)⟩
    · intro isBefore
      cases (congrArg _ (phase_moveTo_self _)).symm.trans isBefore
    · change waiters.waitQueue ≠ [] → _
      rw [moves.waitQueue]
      exact Or.inl
  | loop thread call | checkSignal thread call | test thread call
  | remove thread call | V thread call waiter | finish thread call =>
    change (condition.phase thread).inWait = true at inWait
    rw [show condition.phase thread = _ from allowed] at inWait
    cases inWait

end Sound

end ConditionUse

end Nachos
