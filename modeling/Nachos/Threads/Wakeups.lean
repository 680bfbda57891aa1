import Nachos.Threads.Condition

/-!
# Condition variables neither lose nor invent wakeups
-/

namespace Nachos

open Foundation

variable {Thread : Type}

def ConditionPhase.call? : ConditionPhase → Option WakeCall
  | .looping call | .signalCalled call | .signalChecked call
  | .removing call | .waking call _ | .woken call => some call
  | .rest | .waitCalled | .waitChecked | .waitReleasing _ | .waitP _
  | .waitAcquiring _ | .waitDeleting _ => none

namespace Waiters

/-- The thread has put its semaphore in the queue and is not past its `P`. -/
def WaitsOn (waiters : Waiters Thread) (thread : Thread) (waiter : Nat) :
    Prop :=
  waiters.role thread = .before waiter ∨ waiters.role thread = .asleep waiter

/-- A thread stays blocked if the step is not its own `V` and does not take it
off the queue for good. -/
theorem still_blocked [DecidableEq Thread]
    {waiters next : Waiters Thread} {thread : Thread} {role : WaiterRole}
    (moved : next.role = Function.update waiters.role thread role)
    {waiter : Nat} (leaves : waiters.role thread ≠ .waking waiter)
    (kept : waiter ∈ waiters.waitQueue → next.Blocked waiter)
    (blocked : waiters.Blocked waiter) : next.Blocked waiter := by
  rcases blocked with queued | ⟨other, waking⟩
  · exact kept queued
  · refine Or.inr ⟨other, ?_⟩
    rw [moved, Function.update_of_ne]
    · exact waking
    · rintro rfl
      exact leaves waking

theorem Moves.still_blocked [DecidableEq Thread]
    {waiters next : Waiters Thread} {thread : Thread} {role : WaiterRole}
    (moves : waiters.Moves next thread role) {waiter : Nat}
    (leaves : waiters.role thread ≠ .waking waiter)
    (blocked : waiters.Blocked waiter) : next.Blocked waiter := by
  refine Waiters.still_blocked moves.role leaves (fun queued => ?_) blocked
  left
  rw [moves.waitQueue]
  exact queued

theorem Sound.existsUnique_waitsOn
    {waiters : Waiters Thread} (sound : waiters.Sound) {waiter : Nat}
    (blocked : waiters.Blocked waiter) :
    ∃! thread, waiters.WaitsOn thread waiter := by
  obtain ⟨found, present⟩ := (sound.at_ waiter).blocked blocked
  have owner := ((sound.at_ waiter).waiter found present).owner
  refine ⟨found.thread, ?_, ?_⟩
  · cases role : waiters.role found.thread with
    | before number | asleep number =>
      rw [role] at owner
      cases owner
      simp [WaitsOn, role]
    | after number =>
      rw [role] at owner
      cases owner
      exact absurd blocked (sound.not_blocked_of_after role)
    | none | waking number =>
      rw [role] at owner
      cases owner
  · intro other waits
    obtain ⟨_, alsoPresent⟩ := (sound.at_ waiter).owned other (by
      rcases waits with role | role <;> rw [role] <;> rfl)
    rw [present] at alsoPresent
    cases alsoPresent
    rfl

end Waiters

namespace ConditionUse

structure Contract [DecidableEq Thread] (condition : ConditionUse Thread) :
    Prop where
  /-- Threads are taken off the wait queue in the order they came, each once. -/
  order : condition.selections.map Selection.waiter ++
    condition.waiters.waitQueue = List.range condition.waiters.allocated
  /-- Each semaphore in the queue is waited on by exactly one thread, wherever
  that is on its way to sleep. -/
  queued : ∀ waiter ∈ condition.waiters.waitQueue,
    ∃! thread, condition.waiters.WaitsOn thread waiter
  /-- `Signal` releases the first thread in the queue as it was when it was
  called, if there is one, and `Broadcast` all of them. -/
  wakes : ∀ thread call, condition.phase thread = .woken call →
    call.selected =
        (if call.broadcast then call.snapshot else call.snapshot.take 1) ∧
      ∀ waiter ∈ call.selected, ¬ condition.waiters.Blocked waiter
  /-- Nothing else releases a thread, and no call another one. -/
  only : ∀ event next waiter, condition.Allows event →
    condition.perform event = .ok next →
    condition.waiters.Blocked waiter → ¬ next.waiters.Blocked waiter →
    ∃ thread call, event = .V thread call waiter ∧
      waiter ∈ call.selected ∧ call.selected <+: call.snapshot ∧
      (call.broadcast = false → call.selected = call.snapshot.take 1)
  /-- A released thread finds its semaphore at 1, and does not sleep on without
  being on the ready list. -/
  released : ∀ thread waiter, condition.waiters.WaitsOn thread waiter →
    ¬ condition.waiters.Blocked waiter →
    ∃ semaphore,
      condition.waiters.semaphores waiter = some ⟨thread, semaphore⟩ ∧
        semaphore.semaphore.value = 1 ∧
        (condition.waiters.role thread = .asleep waiter →
          thread ∈ semaphore.readied)
  /-- A thread that is not released finds it at 0, and is on no ready list. -/
  held : ∀ waiter found, condition.waiters.Blocked waiter →
    condition.waiters.semaphores waiter = some found →
    found.semaphore.semaphore.value = 0 ∧ found.semaphore.readied = []
  /-- `Signal` on an empty queue changes nothing. -/
  idle : ∀ thread call, condition.phase thread = .signalChecked call →
    condition.waiters.waitQueue = [] →
    condition.perform (.test thread call) =
      .ok (condition.moveTo thread (.woken call.tick))
  /-- `Wait` returns with the lock, after a call of `Signal` or `Broadcast` that
  was made when the thread was in the queue, and took it off. -/
  returns : ∀ thread waiter, condition.phase thread = .waitDeleting waiter →
    condition.lock.isHeldBy thread = true ∧
      ¬ condition.waiters.Blocked waiter ∧
      ∃ selection ∈ condition.selections,
        selection.waiter = waiter ∧ waiter ∈ selection.snapshot
  /-- A thread in `Broadcast` can always go on, and comes to the end after five
  steps for each thread it wakes, and one. -/
  terminates : ∀ thread call, (condition.phase thread).call? = some call →
    call.broadcast = true →
    call.steps ≤ 5 * call.snapshot.length + 1 ∧
      (∃ event : Event Thread, event.thread = thread ∧
        condition.Allows event) ∧
      ∀ event next, event.thread = thread → condition.Allows event →
        condition.perform event = .ok next →
        next.phase thread = .rest ∨
          ∃ further, (next.phase thread).call? = some further ∧
            further.broadcast = true ∧ further.snapshot = call.snapshot ∧
            further.steps = call.steps + 1
  /-- No step fails. -/
  safe : ∀ event, condition.Allows event →
    ∃ next, condition.perform event = .ok next

namespace Sound

variable [DecidableEq Thread] {condition next : ConditionUse Thread}
variable {thread : Thread}

/-- Only its own `V` releases a thread. -/
theorem still_blocked
    (sound : condition.Sound) {event : Event Thread} {waiter : Nat}
    (allowed : condition.Allows event)
    (performed : condition.perform event = .ok next)
    (notV : ∀ thread call, event ≠ .V thread call waiter)
    (blocked : condition.waiters.Blocked waiter) :
    next.waiters.Blocked waiter := by
  cases event with
  | V thread call number =>
    obtain ⟨waker, _⟩ := sound.at_ allowed
    obtain ⟨waiters, woken, _, moves, _⟩ := sound.waiters.perform_V waker
    simp only [perform, woken] at performed
    cases performed
    refine moves.still_blocked ?_ blocked
    rw [waker]
    intro same
    cases same
    exact notV thread call rfl
  | lock event =>
    obtain ⟨_, _, result, _, _, _, sameWaiters, _⟩ :=
      sound.lock_step allowed.1 allowed.2
    cases result.symm.trans performed
    rw [sameWaiters]
    exact blocked
  | enqueue thread =>
    obtain ⟨idle, _⟩ := sound.at_ allowed
    obtain ⟨waiters, enqueued, _, queue, _, _, role⟩ :=
      sound.waiters.enqueue idle
    simp only [perform, enqueued] at performed
    cases performed
    refine Waiters.still_blocked role (by rw [idle]; simp) (fun queued => ?_)
      blocked
    left
    rw [queue]
    exact List.mem_append_left _ queued
  | remove thread call =>
    obtain ⟨idle, _, nonempty, _⟩ := sound.at_ allowed
    obtain ⟨first, waiters, removed, _, queue, _, _, role⟩ :=
      sound.waiters.removeFront idle nonempty
    simp only [perform, removed] at performed
    cases performed
    refine Waiters.still_blocked role (by rw [idle]; simp) (fun queued => ?_)
      blocked
    rw [queue, List.mem_cons] at queued
    rcases queued with rfl | queued
    · exact Or.inr ⟨thread, by rw [role, Function.update_self]⟩
    · exact Or.inl queued
  | P thread number =>
    obtain ⟨_, waiters, tested, _, moves⟩ := sound.waiters.perform_P allowed.2
    simp only [perform, tested] at performed
    cases performed
    refine moves.still_blocked ?_ blocked
    rw [show condition.waiters.role thread = _ from allowed.2]
    simp
  | resume thread number =>
    obtain ⟨_, waiters, tested, _, moves⟩ :=
      sound.waiters.perform_resume allowed.2
    simp only [perform, tested] at performed
    cases performed
    refine moves.still_blocked ?_ blocked
    rw [show condition.waiters.role thread = _ from allowed.2.1]
    simp
  | delete thread number =>
    obtain ⟨role, _⟩ := sound.at_ allowed
    obtain ⟨waiters, deleted, _, moves⟩ := sound.waiters.perform_delete role
    simp only [perform, deleted] at performed
    cases performed
    refine moves.still_blocked ?_ blocked
    rw [role]
    simp
  | checkWait thread =>
    obtain ⟨_, holding⟩ := sound.at_ allowed
    simp only [perform, assertThat, sound.isHeldBy holding] at performed
    cases performed
    exact blocked
  | checkSignal thread call =>
    obtain ⟨_, holding, _⟩ := sound.at_ allowed
    simp only [perform, assertThat, sound.isHeldBy holding] at performed
    cases performed
    exact blocked
  | loop thread call =>
    obtain ⟨phase, result, _⟩ := sound.loop allowed
    cases result.symm.trans performed
    exact blocked
  | test thread call =>
    obtain ⟨phase, result, _⟩ := sound.test allowed
    cases result.symm.trans performed
    exact blocked
  | wait thread | released thread number | passed thread number
  | acquired thread number | signal thread | broadcast thread
  | finish thread call =>
    cases performed
    exact blocked

/-- A step of `Broadcast` ends the call, or counts for it. -/
theorem broadcast_advances
    (sound : condition.Sound) {event : Event Thread} {call : WakeCall}
    (inCall : (condition.phase event.thread).call? = some call)
    (isBroadcast : call.broadcast = true)
    (allowed : condition.Allows event)
    (performed : condition.perform event = .ok next) :
    next.phase event.thread = .rest ∨
      ∃ further, (next.phase event.thread).call? = some further ∧
        further.broadcast = true ∧ further.snapshot = call.snapshot ∧
        further.steps = call.steps + 1 := by
  cases event with
  | lock event =>
    change (condition.phase event.thread).call? = _ at inCall
    rcases allowed.1.phase with located | ⟨_, located⟩ | ⟨_, located⟩ <;>
      rw [located] at inCall <;> cases inCall
  | wait thread | signal thread | broadcast thread | released thread number
  | P thread number | resume thread number | passed thread number
  | acquired thread number =>
    change (condition.phase thread).call? = _ at inCall
    rw [show condition.phase thread = _ from allowed.1] at inCall
    cases inCall
  | checkWait thread | enqueue thread | delete thread number =>
    change (condition.phase thread).call? = _ at inCall
    rw [show condition.phase thread = _ from allowed] at inCall
    cases inCall
  | loop thread current =>
    change (condition.phase thread).call? = _ at inCall
    rw [show condition.phase thread = _ from allowed] at inCall
    cases inCall
    simp only [perform] at performed
    split_ifs at performed
    · cases performed
      exact Or.inr ⟨call.tick, congrArg _ (phase_moveTo_self _),
        isBroadcast, rfl, rfl⟩
    · cases performed
      exact Or.inr ⟨call.tick, congrArg _ (phase_moveTo_self _),
        isBroadcast, rfl, rfl⟩
  | checkSignal thread current =>
    change (condition.phase thread).call? = _ at inCall
    rw [show condition.phase thread = _ from allowed] at inCall
    cases inCall
    obtain ⟨_, holding, _⟩ := sound.at_ allowed
    simp only [perform, assertThat, sound.isHeldBy holding] at performed
    cases performed
    exact Or.inr ⟨call.tick, congrArg _ (phase_moveTo_self _),
      isBroadcast, rfl, rfl⟩
  | test thread current =>
    change (condition.phase thread).call? = _ at inCall
    rw [show condition.phase thread = _ from allowed] at inCall
    cases inCall
    simp only [perform] at performed
    split_ifs at performed
    · cases performed
      refine Or.inr ⟨call.tick, ?_, isBroadcast, rfl, rfl⟩
      refine (congrArg _ (phase_moveTo_self _)).trans ?_
      simp [WakeCall.back, WakeCall.tick, isBroadcast, ConditionPhase.call?]
    · cases performed
      exact Or.inr ⟨call.tick, congrArg _ (phase_moveTo_self _),
        isBroadcast, rfl, rfl⟩
  | remove thread current =>
    change (condition.phase thread).call? = _ at inCall
    rw [show condition.phase thread = _ from allowed] at inCall
    cases inCall
    obtain ⟨waiter, _, result, _, _, _, _, phase⟩ := sound.remove allowed
    cases result.symm.trans performed
    refine Or.inr ⟨{ call.tick with selected := call.selected ++ [waiter] },
      ?_, isBroadcast, rfl, rfl⟩
    change (next.phase thread).call? = _
    rw [phase, Function.update_self]
    rfl
  | V thread current waiter =>
    change (condition.phase thread).call? = _ at inCall
    rw [show condition.phase thread = _ from allowed] at inCall
    cases inCall
    obtain ⟨_, result, _, _, _, _, phase⟩ := sound.V allowed
    cases result.symm.trans performed
    refine Or.inr ⟨call.tick, ?_, isBroadcast, rfl, rfl⟩
    change (next.phase thread).call? = _
    rw [phase, Function.update_self]
    simp [WakeCall.back, WakeCall.tick, isBroadcast, ConditionPhase.call?]
  | finish thread current =>
    cases performed
    exact Or.inl (phase_moveTo_self _)

omit [DecidableEq Thread] in
/-- The steps that a call of `Broadcast` has taken are accounted for by the
threads it has woken. -/
theorem broadcast_steps
    (sound : condition.Sound) {call : WakeCall}
    (inCall : (condition.phase thread).call? = some call)
    (isBroadcast : call.broadcast = true) :
    call.steps ≤ 5 * call.snapshot.length + 1 := by
  have bound {done : List Nat} {position : Nat}
      (callSound : CallSound condition.waiters call done position)
      (shorter : 5 * done.length + position ≤
        5 * (call.selected.length + condition.waiters.waitQueue.length) + 1) :
      call.steps ≤ 5 * call.snapshot.length + 1 := by
    rw [callSound.steps isBroadcast, callSound.snapshot, List.length_append]
    exact shorter
  have nonempty_length (nonempty : condition.waiters.waitQueue ≠ []) :=
    List.length_pos_iff.mpr nonempty
  have self := sound.threads thread
  cases located : condition.phase thread with
  | rest | waitCalled | waitChecked | waitReleasing waiter | waitP waiter
  | waitAcquiring waiter | waitDeleting waiter =>
    rw [located] at inCall
    cases inCall
  | looping current =>
    rw [located] at inCall self
    cases inCall
    exact bound self.2.2.2 (by omega)
  | signalCalled current | signalChecked current =>
    rw [located] at inCall self
    cases inCall
    have positive := nonempty_length (self.2.2.1 isBroadcast)
    exact bound self.2.2.2 (by omega)
  | removing current =>
    rw [located] at inCall self
    cases inCall
    have positive := nonempty_length self.2.2.1
    exact bound self.2.2.2 (by omega)
  | waking current waiter =>
    rw [located] at inCall self
    cases inCall
    obtain ⟨_, _, done, selected, callSound⟩ := self
    refine bound callSound ?_
    rw [selected, List.length_append, List.length_singleton]
    omega
  | woken current =>
    rw [located] at inCall self
    cases inCall
    exact (self.2.2.steps isBroadcast).le

omit [DecidableEq Thread] in
theorem call_enabled
    {call : WakeCall}
    (inCall : (condition.phase thread).call? = some call) :
    ∃ event : Event Thread, event.thread = thread ∧
      condition.Allows event := by
  cases located : condition.phase thread with
  | rest | waitCalled | waitChecked | waitReleasing waiter | waitP waiter
  | waitAcquiring waiter | waitDeleting waiter =>
    rw [located] at inCall
    cases inCall
  | looping current => exact ⟨.loop thread current, rfl, located⟩
  | signalCalled current => exact ⟨.checkSignal thread current, rfl, located⟩
  | signalChecked current => exact ⟨.test thread current, rfl, located⟩
  | removing current => exact ⟨.remove thread current, rfl, located⟩
  | waking current waiter => exact ⟨.V thread current waiter, rfl, located⟩
  | woken current => exact ⟨.finish thread current, rfl, located⟩

end Sound

/-- Condition variables neither lose nor invent wakeups, under every schedule of
any number of threads that call `Wait`, `Signal` and `Broadcast` with the
lock. -/
theorem wakeups_of_reachable [DecidableEq Thread]
    {condition : ConditionUse Thread}
    (reachable : system.Reachable condition) : condition.Contract := by
  have sound := sound_of_reachable reachable
  refine ⟨?_, ?_, ?_, ?_, ?_, ?_, ?_, ?_, ?_, ?_⟩
  · rw [sound.selections]
    exact sound.waiters.order
  · intro waiter queued
    exact sound.waiters.existsUnique_waitsOn (Or.inl queued)
  · intro thread call located
    obtain ⟨_, _, done⟩ := sound.at_ located
    exact ⟨done.selected, fun waiter member => (done.woken waiter member).2⟩
  · intro event next waiter allowed performed blocked notBlocked
    obtain ⟨thread, call, rfl⟩ :
        ∃ thread call, event = .V thread call waiter := by
      by_contra other
      push Not at other
      exact notBlocked (sound.still_blocked allowed performed other blocked)
    obtain ⟨_, _, done, selected, callSound⟩ := sound.at_ allowed
    refine ⟨thread, call, rfl, ?_, ⟨_, callSound.snapshot.symm⟩, ?_⟩
    · rw [selected]
      exact List.mem_append_right _ List.mem_cons_self
    · intro isSignal
      rw [callSound.snapshot, selected, callSound.signal isSignal]
      rfl
  · intro thread waiter waits notBlocked
    exact sound.waiters.of_released waits notBlocked
  · intro waiter found blocked present
    exact sound.waiters.of_blocked blocked present
  · intro thread call located empty
    obtain ⟨phase, performed, _, isWoken⟩ := sound.test located
    rw [performed, isWoken empty]
  · intro thread waiter located
    obtain ⟨role, holding⟩ := sound.at_ located
    have notBlocked := sound.waiters.not_blocked_of_after role
    refine ⟨sound.isHeldBy holding, notBlocked, ?_⟩
    have bound : waiter < condition.waiters.allocated :=
      sound.waiters.lt_allocated_of_waiter? (by rw [role]; rfl)
    have known : waiter ∈ condition.waiters.selected ∨
        waiter ∈ condition.waiters.waitQueue := by
      rw [← List.mem_append, sound.waiters.order, List.mem_range]
      exact bound
    have selected := known.resolve_right
      (fun queued => notBlocked (Or.inl queued))
    rw [← sound.selections, List.mem_map] at selected
    obtain ⟨selection, member, isWaiter⟩ := selected
    refine ⟨selection, member, isWaiter, ?_⟩
    rw [← isWaiter]
    exact sound.snapshots selection member
  · intro thread call inCall isBroadcast
    refine ⟨sound.broadcast_steps inCall isBroadcast,
      Sound.call_enabled inCall, ?_⟩
    rintro event next rfl allowed performed
    exact sound.broadcast_advances inCall isBroadcast allowed performed
  · intro event allowed
    obtain ⟨next, performed, _⟩ := sound.step allowed
    exact ⟨next, performed⟩

theorem wakeup_before_P :
    ∃ condition : ConditionUse Nat, ∃ call,
      system.Reachable condition ∧ condition.phase 1 = .waitReleasing 0 ∧
        condition.lock.phase 1 = .outside ∧
        condition.phase 2 = .woken call ∧ call.selected = [0] ∧
        ∀ waiter ∈ call.selected, ¬ condition.waiters.Blocked waiter := by
  have locked := TransitionSystem.Reachable.step
    (.step (.start (show system.start (create : ConditionUse Nat) from rfl))
      (show system.step _ (.lock (.acquire 1)) _ from
        ⟨⟨trivial, Or.inl rfl⟩, rfl⟩))
    (show system.step _ (.lock (.assign 1)) _ from
      ⟨⟨trivial, false, rfl⟩, rfl⟩)
  have queued := TransitionSystem.Reachable.step
    (.step (.step locked
      (show system.step _ (.wait 1) _ from ⟨⟨rfl, rfl⟩, rfl⟩))
      (show system.step _ (.checkWait 1) _ from ⟨rfl, rfl⟩))
    (show system.step _ (.enqueue 1) _ from ⟨rfl, rfl⟩)
  have unlocked := TransitionSystem.Reachable.step
    (.step (.step (.step queued
      (show system.step _ (.lock (.release 1)) _ from ⟨⟨rfl, rfl⟩, rfl⟩))
      (show system.step _ (.lock (.check 1)) _ from ⟨⟨rfl, rfl⟩, rfl⟩))
      (show system.step _ (.lock (.clear 1)) _ from ⟨⟨rfl, rfl⟩, rfl⟩))
    (show system.step _ (.lock (.V 1)) _ from ⟨⟨rfl, rfl⟩, rfl⟩)
  have signalled := TransitionSystem.Reachable.step
    (.step (.step unlocked
      (show system.step _ (.lock (.acquire 2)) _ from
        ⟨⟨trivial, Or.inl rfl⟩, rfl⟩))
      (show system.step _ (.lock (.assign 2)) _ from
        ⟨⟨trivial, false, rfl⟩, rfl⟩))
    (show system.step _ (.signal 2) _ from ⟨⟨rfl, rfl⟩, rfl⟩)
  have woken := TransitionSystem.Reachable.step
    (.step (.step (.step signalled
      (show system.step _ (.checkSignal 2 ⟨false, [0], [], 0⟩) _ from
        ⟨rfl, rfl⟩))
      (show system.step _ (.test 2 ⟨false, [0], [], 1⟩) _ from ⟨rfl, rfl⟩))
      (show system.step _ (.remove 2 ⟨false, [0], [], 2⟩) _ from ⟨rfl, rfl⟩))
    (show system.step _ (.V 2 ⟨false, [0], [0], 3⟩ 0) _ from ⟨rfl, rfl⟩)
  exact ⟨_, ⟨false, [0], [0], 4⟩, woken, rfl, rfl, rfl, rfl,
    ((wakeups_of_reachable woken).wakes 2 _ rfl).2⟩

end ConditionUse

end Nachos
