import Nachos.Threads.Semaphore
import Mathlib.Data.Set.Card

/-!
# Locks

`Lock::Acquire` and `Lock::Release` of `threads/synch.cc` over a semaphore that
starts with 1.  `lockHolder` is written outside the sections that run with
interrupts off, so another thread can run after `P` and before the assignment,
and between `lockHolder = NULL` and `V`; each of these points is a phase of the
thread.
-/

namespace Nachos

open Foundation

variable {Thread : Type}

/-- Where a thread is with respect to a lock.  `again` says that it called
`Acquire` while it had the lock already. -/
inductive LockPhase where
  | outside
  /-- Inside the `P` of `Acquire`. -/
  | waiting (again : Bool)
  /-- After that `P`, before `lockHolder = kernel->currentThread`. -/
  | passed (again : Bool)
  /-- `Acquire` has returned. -/
  | holding
  /-- `Release` is called, before its `ASSERT`. -/
  | releasing
  /-- After the `ASSERT`, before `lockHolder = NULL`. -/
  | checked
  /-- After that, before the `V` of `Release`. -/
  | cleared
  deriving DecidableEq, Repr

namespace LockPhase

/-- Whether a call of `Acquire` is, or would be, one by the owner. -/
def again : LockPhase → Bool
  | .holding => true
  | .waiting again | .passed again => again
  | .outside | .releasing | .checked | .cleared => false

/-- Past the `P` of an `Acquire`, and before the `V` of its `Release`. -/
def inRegion : LockPhase → Bool
  | .outside => false
  | .waiting again => again
  | .passed _ | .holding | .releasing | .checked | .cleared => true

/-- The part of the region where `lockHolder` is this thread. -/
def owns : LockPhase → Bool
  | .waiting again | .passed again => again
  | .holding | .releasing | .checked => true
  | .outside | .cleared => false

def isWaiting : LockPhase → Bool
  | .waiting _ => true
  | .outside | .passed _ | .holding | .releasing | .checked | .cleared => false

theorem owns_eq_false
    {phase : LockPhase} (notThere : phase.inRegion = false) :
    phase.owns = false := by
  cases phase <;> first | exact notThere | cases notThere

def inAcquire : LockPhase → Bool
  | .outside | .holding => true
  | .waiting again | .passed again => !again
  | .releasing | .checked | .cleared => false

def inRelease : LockPhase → Bool
  | .holding | .releasing | .checked | .cleared | .outside => true
  | .waiting _ | .passed _ => false

def afterTest (phase : LockPhase) (taken : Bool) : LockPhase :=
  if taken then .passed phase.again else .waiting phase.again

end LockPhase

structure LockUse (Thread : Type) where
  semaphore : SemaphoreUse Thread
  lockHolder : Option Thread
  phase : Thread → LockPhase

namespace LockUse

def create : LockUse Thread :=
  ⟨.create 1, none, fun _ => .outside⟩

inductive Event (Thread : Type) where
  /-- Call `Acquire`, up to the first test of its `P`. -/
  | acquire (thread : Thread)
  /-- A woken thread tests again. -/
  | resume (thread : Thread)
  /-- `lockHolder = kernel->currentThread`. -/
  | assign (thread : Thread)
  /-- Call `Release`. -/
  | release (thread : Thread)
  /-- `ASSERT(IsHeldByCurrentThread())`. -/
  | check (thread : Thread)
  /-- `lockHolder = NULL`. -/
  | clear (thread : Thread)
  /-- The `V` of `Release`. -/
  | V (thread : Thread)

def Event.thread : Event Thread → Thread
  | .acquire thread | .resume thread | .assign thread | .release thread
  | .check thread | .clear thread | .V thread => thread

/-- The steps of `Acquire`; the others are those of `Release`. -/
def Event.ofAcquire : Event Thread → Bool
  | .acquire _ | .resume _ | .assign _ => true
  | .release _ | .check _ | .clear _ | .V _ => false

def Event.Follows (event : Event Thread) (current phase : LockPhase) : Prop :=
  (event.ofAcquire = true → current ≠ .holding → current.inAcquire = true →
      phase.inAcquire = true) ∧
    (event.ofAcquire = false → phase.inRelease = true)

/-- What can happen next.  `Acquire` can be called by any thread that is in
neither function, `Release` by one that has returned from `Acquire`. -/
def Allows (lock : LockUse Thread) : Event Thread → Prop
  | .acquire thread =>
    lock.phase thread = .outside ∨ lock.phase thread = .holding
  | .resume thread =>
    (∃ again, lock.phase thread = .waiting again) ∧
      thread ∈ lock.semaphore.readied
  | .assign thread => ∃ again, lock.phase thread = .passed again
  | .release thread => lock.phase thread = .holding
  | .check thread => lock.phase thread = .releasing
  | .clear thread => lock.phase thread = .checked
  | .V thread => lock.phase thread = .cleared

def isHeldBy [DecidableEq Thread]
    (lock : LockUse Thread) (thread : Thread) : Bool :=
  decide (lock.lockHolder = some thread)

def moveTo [DecidableEq Thread]
    (lock : LockUse Thread) (thread : Thread) (phase : LockPhase) :
    LockUse Thread :=
  { lock with phase := Function.update lock.phase thread phase }

def perform [DecidableEq Thread] (lock : LockUse Thread) :
    Event Thread → Except Fault (LockUse Thread)
  | .acquire thread => do
    let (taken, semaphore) ← lock.semaphore.test thread
    return { lock with semaphore := semaphore }.moveTo thread
      ((lock.phase thread).afterTest taken)
  | .resume thread => do
    let (taken, semaphore) ← lock.semaphore.resume thread
    return { lock with semaphore := semaphore }.moveTo thread
      ((lock.phase thread).afterTest taken)
  | .assign thread =>
    return { lock with lockHolder := some thread }.moveTo thread .holding
  | .release thread => return lock.moveTo thread .releasing
  | .check thread => do
    assertThat (lock.isHeldBy thread) .lockRelease
    return lock.moveTo thread .checked
  | .clear thread =>
    return { lock with lockHolder := none }.moveTo thread .cleared
  | .V thread =>
    return { lock with semaphore := lock.semaphore.V }.moveTo thread .outside

def system [DecidableEq Thread] :
    TransitionSystem (LockUse Thread) (Event Thread) where
  start lock := lock = create
  step lock event next := lock.Allows event ∧ lock.perform event = .ok next

/-- The threads past the `P` of `Acquire` and before the `V` of `Release`. -/
def region (lock : LockUse Thread) : Set Thread :=
  { thread | (lock.phase thread).inRegion = true }

/-! ## The invariant -/

/-- The semaphore is sound and has the threads in its `P` that are there; its
value is 1 with no thread in the region, or 0 with exactly one; `lockHolder` is
the thread in the part of the region where it is set. -/
structure Sound (lock : LockUse Thread) : Prop where
  semaphore : lock.semaphore.Sound 1 0
  inside : ∀ thread, lock.semaphore.Inside thread ↔
    (lock.phase thread).isWaiting = true
  single :
    (lock.semaphore.semaphore.value = 1 ∧ lock.region = ∅) ∨
      (lock.semaphore.semaphore.value = 0 ∧ ∃ owner, lock.region = {owner})
  holder : ∀ thread, lock.lockHolder = some thread ↔
    (lock.phase thread).owns = true

theorem sound_create : (create : LockUse Thread).Sound where
  semaphore := SemaphoreUse.sound_create (by decide) (by decide)
  inside := by
    intro thread
    simp [create, SemaphoreUse.create, Semaphore.create, SemaphoreUse.Inside,
      LockPhase.isWaiting]
  single := Or.inl ⟨rfl, by simp [region, create, LockPhase.inRegion]⟩
  holder := by
    intro thread
    simp [create, LockPhase.owns]

variable [DecidableEq Thread] {lock : LockUse Thread} {thread : Thread}

/-- A thread that moves on inside the region, or outside of it, leaves the
region as it is. -/
theorem region_moveTo
    {phase : LockPhase}
    (same : phase.inRegion = (lock.phase thread).inRegion) :
    (lock.moveTo thread phase).region = lock.region := by
  ext other
  change (Function.update lock.phase thread phase other).inRegion = true ↔
    (lock.phase other).inRegion = true
  by_cases isThread : other = thread
  · subst isThread
    rw [Function.update_self, same]
  · rw [Function.update_of_ne isThread]

namespace Sound

omit [DecidableEq Thread] in
theorem occupied
    (sound : lock.Sound) (member : (lock.phase thread).inRegion = true) :
    lock.semaphore.semaphore.value = 0 ∧ lock.region = {thread} := by
  have inside : thread ∈ lock.region := member
  rcases sound.single with ⟨_, empty⟩ | ⟨zero, owner, isOwner⟩
  · rw [empty] at inside
    exact absurd inside (Set.notMem_empty _)
  · rw [isOwner] at inside
    rw [Set.mem_singleton_iff.mp inside]
    exact ⟨zero, isOwner⟩

omit [DecidableEq Thread] in
theorem alone
    (sound : lock.Sound) (member : (lock.phase thread).inRegion = true)
    {other : Thread} (different : other ≠ thread) :
    (lock.phase other).inRegion = false := by
  rw [← Bool.not_eq_true]
  intro otherMember
  have inside : other ∈ lock.region := otherMember
  rw [(sound.occupied member).2] at inside
  exact different inside

theorem move
    (sound : lock.Sound) {current phase : LockPhase}
    (located : lock.phase thread = current)
    (leaves : current.inRegion = true ∧ current.isWaiting = false)
    (enters : phase.inRegion = true ∧ phase.isWaiting = false)
    {lockHolder : Option Thread}
    (holder : lockHolder = if phase.owns then some thread else none) :
    ({ lock with lockHolder := lockHolder }.moveTo thread phase).Sound := by
  subst located
  refine ⟨sound.semaphore, ?_, ?_, ?_⟩
  · apply (Function.forall_update_iff lock.phase (fun other phase =>
      lock.semaphore.Inside other ↔ phase.isWaiting = true)).mpr
    refine ⟨?_, fun other _ => sound.inside other⟩
    rw [sound.inside, leaves.2, enters.2]
  · have sameRegion : ({ lock with lockHolder := lockHolder }.moveTo thread
        phase).region = lock.region :=
      @region_moveTo _ _ lock thread phase (enters.1.trans leaves.1.symm)
    rw [sameRegion]
    exact sound.single
  · apply (Function.forall_update_iff lock.phase (fun other phase =>
      lockHolder = some other ↔ phase.owns = true)).mpr
    rw [holder]
    constructor
    · cases phase.owns <;> simp
    · intro other different
      have notOwner : (lock.phase other).owns = false :=
        LockPhase.owns_eq_false (sound.alone leaves.1 different)
      rw [notOwner]
      cases phase.owns <;> simp [different.symm]

omit [DecidableEq Thread] in
theorem lockHolder_eq
    (sound : lock.Sound) {current : LockPhase}
    (located : lock.phase thread = current) (owns : current.owns = true) :
    lock.lockHolder = some thread := by
  rw [sound.holder, located]
  exact owns

/-- A thread tests the semaphore: in the region already, it goes to sleep for
good; otherwise it enters the region just if it takes the value. -/
theorem test
    (sound : lock.Sound) {taken : Bool} {semaphore : SemaphoreUse Thread}
    (tested : lock.semaphore.Tested thread taken semaphore)
    (semaphoreSound : semaphore.Sound 1 0)
    {current : LockPhase} (located : lock.phase thread = current)
    (again_iff : current.inRegion = current.again ∧
      current.owns = current.again) :
    ({ lock with semaphore := semaphore }.moveTo thread
      ((lock.phase thread).afterTest taken)).Sound := by
  subst located
  obtain ⟨region_again, owns_again⟩ := again_iff
  refine ⟨semaphoreSound, ?_, ?_, ?_⟩
  · apply (Function.forall_update_iff lock.phase (fun other phase =>
      semaphore.Inside other ↔ phase.isWaiting = true)).mpr
    refine ⟨?_, fun other different => ?_⟩
    · rw [tested.inside_self]
      cases taken <;> simp [LockPhase.afterTest, LockPhase.isWaiting]
    · rw [tested.inside_other other different]
      exact sound.inside other
  · change (semaphore.semaphore.value = 1 ∧
      (lock.moveTo thread _).region = ∅) ∨ (semaphore.semaphore.value = 0 ∧
        ∃ owner, (lock.moveTo thread _).region = {owner})
    rw [tested.value]
    cases taken with
    | false =>
      have sameRegion :
          ((lock.phase thread).afterTest false).inRegion =
            (lock.phase thread).inRegion := region_again.symm
      rw [region_moveTo sameRegion]
      simpa using sound.single
    | true =>
      have nonzero := tested.taken_iff.mp rfl
      rcases sound.single with ⟨one, empty⟩ | ⟨zero, _⟩
      · right
        refine ⟨by rw [one]; rfl, thread, ?_⟩
        ext other
        change (Function.update lock.phase thread
          (.passed (lock.phase thread).again) other).inRegion = true ↔ _
        by_cases isThread : other = thread
        · subst isThread
          simp [LockPhase.inRegion]
        · rw [Function.update_of_ne isThread, Set.mem_singleton_iff,
            iff_false_right isThread]
          intro member
          have inside : other ∈ lock.region := member
          rw [empty] at inside
          exact inside
      · exact absurd zero nonzero
  · apply (Function.forall_update_iff lock.phase (fun other phase =>
      lock.lockHolder = some other ↔ phase.owns = true)).mpr
    refine ⟨?_, fun other _ => sound.holder other⟩
    rw [sound.holder thread, owns_again]
    cases taken <;> rfl

theorem leave
    (sound : lock.Sound) (cleared : lock.phase thread = .cleared) :
    ({ lock with semaphore := lock.semaphore.V }.moveTo thread
      .outside).Sound := by
  have member : (lock.phase thread).inRegion = true := by
    rw [cleared]
    rfl
  obtain ⟨zero, isOwner⟩ := sound.occupied member
  refine ⟨sound.semaphore.V (by omega), ?_, Or.inl ⟨?_, ?_⟩, ?_⟩
  · apply (Function.forall_update_iff lock.phase (fun other phase =>
      lock.semaphore.V.Inside other ↔ phase.isWaiting = true)).mpr
    refine ⟨?_, fun other _ => ?_⟩
    · rw [SemaphoreUse.inside_V, sound.inside, cleared]
      rfl
    · rw [SemaphoreUse.inside_V]
      exact sound.inside other
  · change lock.semaphore.V.semaphore.value = 1
    rw [sound.semaphore.value_V (by omega), zero]
    rfl
  · apply Set.eq_empty_of_forall_notMem
    apply (Function.forall_update_iff lock.phase (fun _ phase =>
      ¬ phase.inRegion = true)).mpr
    refine ⟨by decide, fun other different inside => ?_⟩
    have isMember : other ∈ lock.region := inside
    rw [isOwner] at isMember
    exact different isMember
  · apply (Function.forall_update_iff lock.phase (fun other phase =>
      lock.lockHolder = some other ↔ phase.owns = true)).mpr
    refine ⟨?_, fun other _ => sound.holder other⟩
    rw [sound.holder thread, cleared]
    rfl

/-- A step that is allowed does not fail, keeps the invariant, and changes the
phase of its own thread only. -/
theorem step
    (sound : lock.Sound) {event : Event Thread}
    (allowed : lock.Allows event) :
    ∃ next phase, lock.perform event = .ok next ∧ next.Sound ∧
      next.phase = Function.update lock.phase event.thread phase ∧
      event.Follows (lock.phase event.thread) phase := by
  cases event with
  | acquire thread =>
    have outsideP : ¬ lock.semaphore.Inside thread := by
      rw [sound.inside]
      rcases allowed with located | located <;>
        simp [located, LockPhase.isWaiting]
    obtain ⟨taken, semaphore, tested, effect, semaphoreSound⟩ :=
      sound.semaphore.P outsideP
    have performed : lock.perform (.acquire thread) =
        .ok ({ lock with semaphore := semaphore }.moveTo thread
          ((lock.phase thread).afterTest taken)) := by
      simp [perform, tested]
    refine ⟨_, _, performed, ?_, rfl, ?_, fun isRelease => nomatch isRelease⟩
    · rcases allowed with outside | holding
      · exact sound.test effect semaphoreSound outside ⟨rfl, rfl⟩
      · exact sound.test effect semaphoreSound holding ⟨rfl, rfl⟩
    · intro _ notHolding _
      rw [allowed.resolve_right notHolding]
      cases taken <;> rfl
  | resume thread =>
    obtain ⟨⟨again, waiting⟩, readied⟩ := allowed
    obtain ⟨taken, semaphore, tested, effect, semaphoreSound⟩ :=
      sound.semaphore.resume readied
    have performed : lock.perform (.resume thread) =
        .ok ({ lock with semaphore := semaphore }.moveTo thread
          ((lock.phase thread).afterTest taken)) := by
      simp [perform, tested]
    refine ⟨_, _, performed,
      sound.test effect semaphoreSound waiting ⟨rfl, rfl⟩, rfl, ?_,
      fun isRelease => nomatch isRelease⟩
    intro _ _ inAcquire
    change (lock.phase thread).inAcquire = true at inAcquire
    rw [waiting] at inAcquire ⊢
    cases taken <;> exact inAcquire
  | assign thread =>
    obtain ⟨again, passed⟩ := allowed
    exact ⟨_, _, rfl, sound.move passed ⟨rfl, rfl⟩ ⟨rfl, rfl⟩ rfl, rfl,
      fun _ _ _ => rfl, fun isRelease => nomatch isRelease⟩
  | release thread =>
    exact ⟨_, _, rfl, sound.move allowed ⟨rfl, rfl⟩ ⟨rfl, rfl⟩
      (sound.lockHolder_eq allowed rfl), rfl,
      fun isAcquire => (nomatch isAcquire), fun _ => rfl⟩
  | check thread =>
    have held := sound.lockHolder_eq allowed rfl
    have performed : lock.perform (.check thread) =
        .ok (lock.moveTo thread .checked) := by
      simp [perform, isHeldBy, held]
    exact ⟨_, _, performed, sound.move allowed ⟨rfl, rfl⟩ ⟨rfl, rfl⟩ held,
      rfl, fun isAcquire => (nomatch isAcquire), fun _ => rfl⟩
  | clear thread =>
    exact ⟨_, _, rfl, sound.move allowed ⟨rfl, rfl⟩ ⟨rfl, rfl⟩ rfl, rfl,
      fun isAcquire => (nomatch isAcquire), fun _ => rfl⟩
  | V thread =>
    exact ⟨_, _, rfl, sound.leave allowed, rfl,
      fun isAcquire => (nomatch isAcquire), fun _ => rfl⟩

end Sound

theorem sound_of_reachable (reachable : system.Reachable lock) :
    lock.Sound := by
  apply reachable.invariant
  · intro state starting
    rw [show state = create from starting]
    exact sound_create
  · intro source event target sound taken
    obtain ⟨next, _, performed, nextSound, _⟩ := sound.step taken.1
    cases performed.symm.trans taken.2
    exact nextSound

/-- Mutual exclusion, under every schedule: at most one thread is past the `P`
of `Acquire` and before the `V` of its `Release`; the value of the semaphore and
the number of such threads add up to 1; `lockHolder` is nobody or such a thread;
a thread that has returned from `Acquire` passes the `ASSERT` of `Release`; and
no step fails. -/
theorem mutual_exclusion_of_reachable (reachable : system.Reachable lock) :
    lock.region.Subsingleton ∧
      lock.semaphore.semaphore.value + lock.region.ncard = 1 ∧
      (∀ thread, lock.lockHolder = some thread → thread ∈ lock.region) ∧
      (∀ thread, lock.phase thread = .holding ∨
        lock.phase thread = .releasing → lock.isHeldBy thread = true) ∧
      ∀ event, lock.Allows event → ∃ next, lock.perform event = .ok next := by
  have sound := sound_of_reachable reachable
  refine ⟨?_, ?_, ?_, ?_, ?_⟩
  · rcases sound.single with ⟨_, empty⟩ | ⟨_, owner, isOwner⟩
    · rw [empty]
      exact Set.subsingleton_empty
    · rw [isOwner]
      exact Set.subsingleton_singleton
  · rcases sound.single with ⟨one, empty⟩ | ⟨zero, owner, isOwner⟩
    · rw [one, empty, Set.ncard_empty]
      rfl
    · rw [zero, isOwner, Set.ncard_singleton]
      rfl
  · intro thread held
    have owns := (sound.holder thread).mp held
    by_contra notMember
    rw [LockPhase.owns_eq_false (Bool.not_eq_true _ ▸ notMember)] at owns
    cases owns
  · intro thread located
    unfold isHeldBy
    rw [decide_eq_true_eq]
    rcases located with holding | releasing
    · exact sound.lockHolder_eq holding rfl
    · exact sound.lockHolder_eq releasing rfl
  · intro event allowed
    obtain ⟨next, _, performed, _⟩ := sound.step allowed
    exact ⟨next, performed⟩

theorem mutual_exclusion_before_assignment :
    ∃ lock : LockUse Nat,
      system.Reachable lock ∧ lock.phase 1 = .passed false ∧
        lock.phase 2 = .waiting false ∧ lock.lockHolder = none ∧
        lock.semaphore.semaphore.value + lock.region.ncard = 1 := by
  have first := TransitionSystem.Reachable.step
    (.start (show system.start (create : LockUse Nat) from rfl))
    (show system.step _ (.acquire 1) _ from ⟨Or.inl rfl, rfl⟩)
  have second := TransitionSystem.Reachable.step first
    (show system.step _ (.acquire 2) _ from ⟨Or.inl rfl, rfl⟩)
  exact ⟨_, second, rfl, rfl, rfl, (mutual_exclusion_of_reachable second).2.1⟩

end LockUse

end Nachos
