import Nachos.Threads.Semaphore
import Nachos.Foundation.Update

/-!
# Semaphores that wait in line

The part of a condition variable that does not depend on its lock: each waiting
thread allocates a semaphore of its own, puts it at the end of `waitQueue` and
calls `P` on it; a waker takes the first semaphore off the queue and calls `V`.
Semaphores are numbered in the order of their allocation, and a number is never
used again.
-/

namespace Nachos

open Foundation

variable {Thread : Type}

inductive WaiterRole where
  | none
  /-- It has put its semaphore in the queue and not yet called `P`. -/
  | before (waiter : Nat)
  /-- It is inside that `P`. -/
  | asleep (waiter : Nat)
  /-- It is past `P`, and the semaphore is not yet deleted. -/
  | after (waiter : Nat)
  /-- It has taken the semaphore of another thread off the queue and not yet
  called `V`. -/
  | waking (waiter : Nat)
  deriving DecidableEq, Repr

namespace WaiterRole

def waiter? : WaiterRole → Option Nat
  | .before waiter | .asleep waiter | .after waiter => some waiter
  | .none | .waking _ => Option.none

def about : WaiterRole → Option Nat
  | .before waiter | .asleep waiter | .after waiter | .waking waiter =>
    some waiter
  | .none => Option.none

theorem about_of_waiter?
    {role : WaiterRole} {waiter : Nat} (waits : role.waiter? = some waiter) :
    role.about = some waiter := by
  cases role <;> first | exact waits | cases waits

end WaiterRole

structure Waiter (Thread : Type) where
  thread : Thread
  semaphore : SemaphoreUse Thread

/-- The wait queue and the semaphores that exist.  `selected` are the
semaphores that were taken off the queue, in that order. -/
structure Waiters (Thread : Type) where
  waitQueue : List Nat
  semaphores : Nat → Option (Waiter Thread)
  allocated : Nat
  selected : List Nat
  role : Thread → WaiterRole

namespace Waiters

def create : Waiters Thread :=
  ⟨[], fun _ => none, 0, [], fun _ => .none⟩

def find (waiters : Waiters Thread) (waiter : Nat) :
    Except Fault (Waiter Thread) :=
  match waiters.semaphores waiter with
  | some found => .ok found
  | none => .error .badObject

def store (waiters : Waiters Thread) (waiter : Nat)
    (updated : Option (Waiter Thread)) : Waiters Thread :=
  { waiters with
    semaphores := Function.update waiters.semaphores waiter updated }

def moveTo [DecidableEq Thread]
    (waiters : Waiters Thread) (thread : Thread) (role : WaiterRole) :
    Waiters Thread :=
  { waiters with role := Function.update waiters.role thread role }

inductive Event (Thread : Type) where
  /-- `new Semaphore("condition", 0)` and `waitQueue->Append(waiter)`. -/
  | enqueue (thread : Thread)
  /-- Call `waiter->P()`, up to its first test. -/
  | P (thread : Thread) (waiter : Nat)
  /-- A woken thread tests again. -/
  | resume (thread : Thread) (waiter : Nat)
  /-- `delete waiter`. -/
  | delete (thread : Thread) (waiter : Nat)
  /-- `waitQueue->RemoveFront()`. -/
  | remove (thread : Thread)
  /-- `waiter->V()`. -/
  | V (thread : Thread) (waiter : Nat)

def Allows (waiters : Waiters Thread) : Event Thread → Prop
  | .enqueue thread => waiters.role thread = .none
  | .P thread waiter => waiters.role thread = .before waiter
  | .resume thread waiter =>
    waiters.role thread = .asleep waiter ∧
      ∀ found ∈ waiters.semaphores waiter,
        thread ∈ found.semaphore.readied
  | .delete thread waiter => waiters.role thread = .after waiter
  | .remove thread =>
    waiters.role thread = .none ∧ waiters.waitQueue ≠ []
  | .V thread waiter => waiters.role thread = .waking waiter

def afterTest (waiter : Nat) (taken : Bool) : WaiterRole :=
  if taken then .after waiter else .asleep waiter

def removeFront [DecidableEq Thread]
    (waiters : Waiters Thread) (thread : Thread) :
    Except Fault (Nat × Waiters Thread) := do
  let (waiter, rest) ← listRemoveFront waiters.waitQueue
  return (waiter, { waiters with
    waitQueue := rest
    selected := waiters.selected ++ [waiter] }.moveTo thread
      (.waking waiter))

def perform [DecidableEq Thread] (waiters : Waiters Thread) :
    Event Thread → Except Fault (Waiters Thread)
  | .enqueue thread => do
    let waiter := waiters.allocated
    let waitQueue ← listAppend waiters.waitQueue waiter
    return ({ waiters with
      waitQueue := waitQueue
      allocated := waiter + 1 }.store waiter
        (some ⟨thread, .create 0⟩)).moveTo thread (.before waiter)
  | .P thread waiter => do
    let found ← waiters.find waiter
    let (taken, semaphore) ← found.semaphore.test thread
    return (waiters.store waiter
      (some { found with semaphore := semaphore })).moveTo thread
        (afterTest waiter taken)
  | .resume thread waiter => do
    let found ← waiters.find waiter
    let (taken, semaphore) ← found.semaphore.resume thread
    return (waiters.store waiter
      (some { found with semaphore := semaphore })).moveTo thread
        (afterTest waiter taken)
  | .delete thread waiter => do
    let _ ← waiters.find waiter
    return (waiters.store waiter none).moveTo thread .none
  | .remove thread => do
    let (_, waiters) ← waiters.removeFront thread
    return waiters
  | .V thread waiter => do
    let found ← waiters.find waiter
    return (waiters.store waiter
      (some { found with semaphore := found.semaphore.V })).moveTo thread
        .none

/-- The semaphore has not had its `V`: it is in the queue, or in the hands of a
waker. -/
def Blocked (waiters : Waiters Thread) (waiter : Nat) : Prop :=
  waiter ∈ waiters.waitQueue ∨
    ∃ thread, waiters.role thread = .waking waiter

/-! ## The invariant -/

/-- The invariant of one semaphore: it has had one `V` if it is not blocked any
more, and one `P` if its thread is past it, and none otherwise. -/
structure WaiterSound (waiters : Waiters Thread) (waiter : Nat)
    (found : Waiter Thread) : Prop where
  allocated : waiter < waiters.allocated
  semaphore : found.semaphore.Sound 0 0
  owner : (waiters.role found.thread).waiter? = some waiter
  inside : ∀ thread, found.semaphore.Inside thread ↔
    waiters.role thread = .asleep waiter
  completedP : found.semaphore.completedP =
    if waiters.role found.thread = .after waiter then 1 else 0
  completedV :
    (waiters.Blocked waiter ∧ found.semaphore.completedV = 0) ∨
      (¬ waiters.Blocked waiter ∧ found.semaphore.completedV = 1)

structure SoundAt (waiters : Waiters Thread) (waiter : Nat) : Prop where
  waking : ∀ thread, waiters.role thread = .waking waiter →
    waiter ∈ waiters.selected
  single : ∀ thread other, waiters.role thread = .waking waiter →
    waiters.role other = .waking waiter → thread = other
  blocked : waiters.Blocked waiter →
    ∃ found, waiters.semaphores waiter = some found
  owned : ∀ thread, (waiters.role thread).waiter? = some waiter →
    ∃ semaphore, waiters.semaphores waiter = some ⟨thread, semaphore⟩
  waiter : ∀ found, waiters.semaphores waiter = some found →
    waiters.WaiterSound waiter found

/-- Semaphores leave the queue in the order they came, each once. -/
structure Sound (waiters : Waiters Thread) : Prop where
  order : waiters.selected ++ waiters.waitQueue =
    List.range waiters.allocated
  at_ : ∀ waiter, waiters.SoundAt waiter

theorem sound_create : (create : Waiters Thread).Sound where
  order := rfl
  at_ := by
    intro waiter
    refine ⟨?_, ?_, ?_, ?_, ?_⟩
    · intro thread isWaking
      cases isWaking
    · intro thread other isWaking
      cases isWaking
    · rintro (queued | ⟨thread, isWaking⟩)
      · cases queued
      · cases isWaking
    · intro thread waits
      cases waits
    · intro found present
      cases present

theorem SoundAt.waking_congr
    {waiters next : Waiters Thread} {waiter : Nat}
    (sound : waiters.SoundAt waiter)
    (waking_iff : ∀ other, next.role other = .waking waiter ↔
      waiters.role other = .waking waiter) :
    (∀ other, next.role other = .waking waiter → waiter ∈ waiters.selected) ∧
    ∀ first second, next.role first = .waking waiter →
      next.role second = .waking waiter → first = second := by
  simp only [waking_iff]
  exact ⟨sound.waking, sound.single⟩

/-- A step of a thread whose role is not about this semaphore, before nor
after. -/
theorem SoundAt.frame [DecidableEq Thread]
    {waiters next : Waiters Thread} {waiter : Nat}
    (sound : waiters.SoundAt waiter) {thread : Thread} {moved : WaiterRole}
    (role : next.role = Function.update waiters.role thread moved)
    (leaves : (waiters.role thread).about ≠ some waiter)
    (takes : moved.about ≠ some waiter)
    (queue : waiter ∈ next.waitQueue ↔ waiter ∈ waiters.waitQueue)
    (semaphore : next.semaphores waiter = waiters.semaphores waiter)
    (selected : waiter ∈ waiters.selected → waiter ∈ next.selected)
    (allocated : waiters.allocated ≤ next.allocated) :
    next.SoundAt waiter := by
  have roles : ∀ (other : Thread) (target : WaiterRole),
      target.about = some waiter →
        (next.role other = target ↔ waiters.role other = target) := by
    intro other target isAbout
    rw [role]
    apply update_eq_iff
    · rintro rfl
      exact leaves isAbout
    · rintro rfl
      exact takes isAbout
  have waking_iff : ∀ other, next.role other = .waking waiter ↔
      waiters.role other = .waking waiter :=
    fun other => roles other _ rfl
  have blocked_iff : next.Blocked waiter ↔ waiters.Blocked waiter := by
    unfold Blocked
    rw [queue, exists_congr waking_iff]
  obtain ⟨waking, single⟩ := sound.waking_congr waking_iff
  refine ⟨fun other isWaking => selected (waking other isWaking), single, ?_,
    ?_, ?_⟩
  · rw [semaphore, blocked_iff]
    exact sound.blocked
  · intro other waits
    rw [semaphore]
    apply sound.owned
    have same := (roles other _ (WaiterRole.about_of_waiter? waits)).mp rfl
    rw [same]
    exact waits
  · intro found present
    rw [semaphore] at present
    have old := sound.waiter found present
    have same := (roles found.thread _
      (WaiterRole.about_of_waiter? old.owner)).mpr rfl
    refine ⟨old.allocated.trans_le allocated, old.semaphore, ?_, ?_, ?_, ?_⟩
    · rw [same]
      exact old.owner
    · intro other
      rw [old.inside, roles other _ rfl]
    · rw [old.completedP, same]
    · rw [blocked_iff]
      exact old.completedV

theorem find_eq
    {waiters : Waiters Thread} {waiter : Nat} {found : Waiter Thread}
    (present : waiters.semaphores waiter = some found) :
    waiters.find waiter = .ok found := by
  unfold find
  rw [present]

namespace Sound

variable {waiters : Waiters Thread} {thread : Thread} {waiter : Nat}

theorem lt_allocated
    (sound : waiters.Sound)
    (known : waiter ∈ waiters.selected ∨ waiter ∈ waiters.waitQueue) :
    waiter < waiters.allocated := by
  rw [← List.mem_range, ← sound.order, List.mem_append]
  exact known

theorem lt_allocated_of_waiter?
    (sound : waiters.Sound)
    (waits : (waiters.role thread).waiter? = some waiter) :
    waiter < waiters.allocated := by
  obtain ⟨_, present⟩ := (sound.at_ waiter).owned thread waits
  exact ((sound.at_ waiter).waiter _ present).allocated

theorem fresh (sound : waiters.Sound) :
    waiters.semaphores waiters.allocated = none ∧
      waiters.allocated ∉ waiters.waitQueue ∧
      (∀ thread, (waiters.role thread).about ≠ some waiters.allocated) := by
  have absent : waiters.semaphores waiters.allocated = none := by
    cases present : waiters.semaphores waiters.allocated with
    | none => rfl
    | some found =>
      have bound := ((sound.at_ _).waiter found present).allocated
      exact absurd bound (lt_irrefl _)
  refine ⟨absent, ?_, ?_⟩
  · intro queued
    exact lt_irrefl _ (sound.lt_allocated (Or.inr queued))
  · intro thread isAbout
    cases role : waiters.role thread with
    | none =>
      rw [role] at isAbout
      cases isAbout
    | waking waiter =>
      rw [role] at isAbout
      cases isAbout
      have selected := (sound.at_ _).waking thread role
      exact lt_irrefl _ (sound.lt_allocated (Or.inl selected))
    | before waiter | asleep waiter | after waiter =>
      rw [role] at isAbout
      cases isAbout
      obtain ⟨semaphore, present⟩ :=
        (sound.at_ _).owned thread (by rw [role]; rfl)
      rw [absent] at present
      cases present

variable [DecidableEq Thread]

theorem enqueue
    (sound : waiters.Sound) (idle : waiters.role thread = .none) :
    ∃ next, waiters.perform (.enqueue thread) = .ok next ∧ next.Sound ∧
      next.waitQueue = waiters.waitQueue ++ [waiters.allocated] ∧
      next.selected = waiters.selected ∧
      next.allocated = waiters.allocated + 1 ∧
      next.role = Function.update waiters.role thread
        (.before waiters.allocated) := by
  obtain ⟨absent, notQueued, unused⟩ := sound.fresh
  have performed : waiters.perform (.enqueue thread) =
      .ok (({ waiters with
        waitQueue := waiters.waitQueue ++ [waiters.allocated]
        allocated := waiters.allocated + 1 }.store waiters.allocated
          (some ⟨thread, .create 0⟩)).moveTo thread
            (.before waiters.allocated)) := by
    simp [perform, listAppend_eq notQueued]
  refine ⟨_, performed, ⟨?_, ?_⟩, rfl, rfl, rfl, rfl⟩
  · change waiters.selected ++ (waiters.waitQueue ++ [waiters.allocated]) =
      List.range (waiters.allocated + 1)
    rw [← List.append_assoc, sound.order, List.range_succ]
  · intro waiter
    by_cases same : waiter = waiters.allocated
    · subst same
      have role_eq : ∀ target : WaiterRole,
          target.about = some waiters.allocated →
          target ≠ .before waiters.allocated → ∀ other,
            Function.update waiters.role thread (.before waiters.allocated)
              other ≠ target := by
        intro target isAbout notBefore other
        rw [Ne, update_eq_iff _ notBefore.symm]
        · rintro rfl
          exact unused other isAbout
        · rintro rfl
          exact unused thread isAbout
      refine ⟨?_, ?_, ?_, ?_, ?_⟩
      · intro other isWaking
        exact absurd isWaking (role_eq _ rfl (by simp) other)
      · intro other _ isWaking
        exact absurd isWaking (role_eq _ rfl (by simp) other)
      · exact fun _ => ⟨_, Function.update_self ..⟩
      · intro other waits
        by_cases isThread : other = thread
        · subst isThread
          exact ⟨_, Function.update_self ..⟩
        · exact absurd (WaiterRole.about_of_waiter? waits) (by
            change (Function.update waiters.role thread _ other).about ≠ _
            rw [Function.update_of_ne isThread]
            exact unused other)
      · intro found present
        cases (Function.update_self ..).symm.trans present
        refine ⟨Nat.lt_succ_self _, SemaphoreUse.sound_create le_rfl (by decide),
          ?_, ?_, ?_, Or.inl ⟨Or.inl ?_, rfl⟩⟩
        · change (Function.update waiters.role thread _ thread).waiter? = _
          rw [Function.update_self]
          rfl
        · intro other
          apply iff_of_false
          · simp [SemaphoreUse.Inside, SemaphoreUse.create, Semaphore.create]
          · exact role_eq _ rfl (by simp) other
        · exact (if_neg (role_eq _ rfl (by simp) thread)).symm
        · exact List.mem_append_right _ (List.mem_singleton.mpr rfl)
    · apply (sound.at_ waiter).frame rfl
      · rw [idle]
        simp [WaiterRole.about]
      · exact fun equal => same (Option.some.inj equal).symm
      · change waiter ∈ waiters.waitQueue ++ [waiters.allocated] ↔ _
        simp [same]
      · exact Function.update_of_ne same _ _
      · exact id
      · exact Nat.le_succ _

/-- A test in `P`: the thread gets past it, or falls asleep. -/
theorem test
    (sound : waiters.Sound) {semaphore tested : SemaphoreUse Thread}
    (waits : waiters.role thread = .before waiter ∨
      waiters.role thread = .asleep waiter)
    (present : waiters.semaphores waiter = some ⟨thread, semaphore⟩)
    {taken : Bool} (effect : semaphore.Tested thread taken tested)
    (testedSound : tested.Sound 0 0) :
    ((waiters.store waiter (some ⟨thread, tested⟩)).moveTo thread
      (afterTest waiter taken)).Sound := by
  have old := ((sound.at_ waiter).waiter _ present)
  have isAbout : (waiters.role thread).about = some waiter := by
    rcases waits with role | role <;> rw [role] <;> rfl
  have notPassed : waiters.role thread ≠ .after waiter := by
    rcases waits with role | role <;> rw [role] <;> simp
  have waking_iff : ∀ other,
      Function.update waiters.role thread (afterTest waiter taken) other =
          .waking waiter ↔
        waiters.role other = .waking waiter := by
    apply update_eq_iff
    · rcases waits with role | role <;> rw [role] <;> simp
    · cases taken <;> simp [afterTest]
  have blocked_iff : ((waiters.store waiter (some ⟨thread, tested⟩)).moveTo
      thread (afterTest waiter taken)).Blocked waiter ↔
        waiters.Blocked waiter :=
    or_congr Iff.rfl (exists_congr waking_iff)
  refine ⟨sound.order, ?_⟩
  intro other
  by_cases same : other = waiter
  · subst same
    obtain ⟨waking, single⟩ :=
      @SoundAt.waking_congr _ _ (waiters.moveTo thread (afterTest other taken))
        _ (sound.at_ other) waking_iff
    refine ⟨waking, single, ?_, ?_, ?_⟩
    · exact fun _ => ⟨_, Function.update_self ..⟩
    · intro someThread someWaits
      by_cases isThread : someThread = thread
      · subst isThread
        exact ⟨_, Function.update_self ..⟩
      · change (Function.update waiters.role thread _ someThread).waiter? =
          _ at someWaits
        rw [Function.update_of_ne isThread] at someWaits
        obtain ⟨_, owned⟩ := (sound.at_ other).owned someThread someWaits
        rw [present] at owned
        cases owned
        exact absurd rfl isThread
    · intro found nowPresent
      cases (Function.update_self ..).symm.trans nowPresent
      refine ⟨old.allocated, testedSound, ?_, ?_, ?_, ?_⟩
      · change (Function.update waiters.role thread _ thread).waiter? = _
        rw [Function.update_self]
        cases taken <;> rfl
      · apply (Function.forall_update_iff waiters.role (fun someThread role =>
          tested.Inside someThread ↔ role = .asleep other)).mpr
        constructor
        · rw [effect.inside_self]
          cases taken <;> simp [afterTest]
        · intro someThread different
          rw [effect.inside_other someThread different]
          exact old.inside someThread
      · change tested.completedP =
          if Function.update waiters.role thread _ thread = _ then 1 else 0
        rw [Function.update_self, effect.completedP, old.completedP,
          if_neg notPassed]
        cases taken <;> simp [afterTest]
      · rw [blocked_iff]
        dsimp only
        rw [effect.completedV]
        exact old.completedV
  · apply (sound.at_ other).frame rfl
    · rw [isAbout]
      exact fun equal => same (Option.some.inj equal).symm
    · cases taken <;> exact fun equal => same (Option.some.inj equal).symm
    · rfl
    · exact Function.update_of_ne same _ _
    · exact id
    · exact le_rfl

omit [DecidableEq Thread] in
theorem not_selected
    (sound : waiters.Sound) (queued : waiter ∈ waiters.waitQueue) :
    waiter ∉ waiters.selected := by
  intro selected
  have nodup : (waiters.selected ++ waiters.waitQueue).Nodup := by
    rw [sound.order]
    exact List.nodup_range
  exact (List.nodup_append.mp nodup).2.2 waiter selected waiter queued rfl

omit [DecidableEq Thread] in
theorem not_blocked_of_after
    (sound : waiters.Sound) (passed : waiters.role thread = .after waiter) :
    ¬ waiters.Blocked waiter := by
  obtain ⟨semaphore, present⟩ :=
    (sound.at_ waiter).owned thread (by rw [passed]; rfl)
  have old := (sound.at_ waiter).waiter _ present
  have completedP := old.completedP
  have account := old.semaphore.account
  have nonnegative := old.semaphore.nonnegative
  dsimp only at completedP account nonnegative
  rw [if_pos passed] at completedP
  rcases old.completedV with ⟨_, none⟩ | ⟨notBlocked, _⟩
  · dsimp only at none
    omega
  · exact notBlocked

theorem delete
    (sound : waiters.Sound) (passed : waiters.role thread = .after waiter) :
    ((waiters.store waiter none).moveTo thread .none).Sound := by
  have notBlocked := sound.not_blocked_of_after passed
  have waking_iff : ∀ other,
      Function.update waiters.role thread .none other = .waking waiter ↔
        waiters.role other = .waking waiter := by
    apply update_eq_iff
    · rw [passed]
      simp
    · simp
  refine ⟨sound.order, ?_⟩
  intro other
  by_cases same : other = waiter
  · subst same
    obtain ⟨waking, single⟩ :=
      @SoundAt.waking_congr _ _ (waiters.moveTo thread .none) _
        (sound.at_ other) waking_iff
    refine ⟨waking, single, ?_, ?_, ?_⟩
    · intro blocked
      have blockedBefore : waiters.Blocked other :=
        blocked.imp_right (fun ⟨someThread, isWaking⟩ =>
          ⟨someThread, (waking_iff someThread).mp isWaking⟩)
      exact absurd blockedBefore notBlocked
    · apply (Function.forall_update_iff waiters.role (fun someThread role =>
        role.waiter? = some other → ∃ semaphore,
          Function.update waiters.semaphores other none other =
            some ⟨someThread, semaphore⟩)).mpr
      refine ⟨fun waits => (nomatch waits), ?_⟩
      intro someThread different waits
      obtain ⟨_, present⟩ :=
        (sound.at_ other).owned thread (by rw [passed]; rfl)
      obtain ⟨_, alsoPresent⟩ := (sound.at_ other).owned someThread waits
      rw [present] at alsoPresent
      cases alsoPresent
      exact absurd rfl different
    · intro found present
      cases (Function.update_self ..).symm.trans present
  · apply (sound.at_ other).frame rfl
    · rw [passed]
      exact fun equal => same (Option.some.inj equal).symm
    · exact fun equal => nomatch equal
    · rfl
    · exact Function.update_of_ne same _ _
    · exact id
    · exact le_rfl

theorem remove
    (sound : waiters.Sound) (idle : waiters.role thread = .none)
    {rest : List Nat} (queue : waiters.waitQueue = waiter :: rest) :
    ({ waiters with
      waitQueue := rest
      selected := waiters.selected ++ [waiter] }.moveTo thread
        (.waking waiter)).Sound := by
  have queued : waiter ∈ waiters.waitQueue := by
    rw [queue]
    exact List.mem_cons_self
  have nobodyWakes : ∀ other, waiters.role other ≠ .waking waiter :=
    fun other isWaking =>
      sound.not_selected queued ((sound.at_ waiter).waking other isWaking)
  have waking_iff : ∀ other,
      Function.update waiters.role thread (.waking waiter) other =
          .waking waiter ↔ other = thread := by
    intro other
    rw [update_eq_iff_or]
    exact or_iff_left (nobodyWakes other)
  refine ⟨?_, ?_⟩
  · change waiters.selected ++ [waiter] ++ rest = _
    rw [List.append_assoc, List.singleton_append, ← queue]
    exact sound.order
  intro other
  by_cases same : other = waiter
  · subst same
    obtain ⟨found, present⟩ := (sound.at_ other).blocked (Or.inl queued)
    have old := (sound.at_ other).waiter found present
    have notThread : found.thread ≠ thread := by
      intro isThread
      have owner := old.owner
      rw [isThread, idle] at owner
      cases owner
    refine ⟨?_, ?_, fun _ => ⟨found, present⟩, ?_, ?_⟩
    · exact fun _ _ =>
        List.mem_append_right _ (List.mem_singleton.mpr rfl)
    · intro first second firstWaking secondWaking
      rw [(waking_iff first).mp firstWaking,
        (waking_iff second).mp secondWaking]
    · apply (Function.forall_update_iff waiters.role (fun someThread role =>
        role.waiter? = some other → ∃ semaphore,
          waiters.semaphores other = some ⟨someThread, semaphore⟩)).mpr
      exact ⟨fun waits => (nomatch waits),
        fun someThread _ waits => (sound.at_ other).owned someThread waits⟩
    · intro alsoFound alsoPresent
      cases present.symm.trans alsoPresent
      have sameRole : Function.update waiters.role thread (.waking other)
          found.thread = waiters.role found.thread :=
        Function.update_of_ne notThread _ _
      refine ⟨old.allocated, old.semaphore, ?_, ?_, ?_, Or.inl ⟨?_, ?_⟩⟩
      · change (Function.update waiters.role thread _ found.thread).waiter? = _
        rw [sameRole]
        exact old.owner
      · intro someThread
        rw [old.inside]
        refine (update_eq_iff ?_ ?_ someThread).symm
        · rw [idle]
          simp
        · simp
      · change found.semaphore.completedP =
          if Function.update waiters.role thread _ found.thread = _ then 1
          else 0
        rw [sameRole]
        exact old.completedP
      · exact Or.inr ⟨thread, Function.update_self ..⟩
      · rcases old.completedV with ⟨_, none⟩ | ⟨notBlocked, _⟩
        · exact none
        · exact absurd (Or.inl queued) notBlocked
  · apply (sound.at_ other).frame rfl
    · rw [idle]
      exact fun equal => nomatch equal
    · exact fun equal => same (Option.some.inj equal).symm
    · rw [queue, List.mem_cons, or_iff_right same]
      rfl
    · rfl
    · exact fun selected => List.mem_append_left _ selected
    · exact le_rfl

theorem not_blocked_after_V
    (sound : waiters.Sound) (waker : waiters.role thread = .waking waiter)
    {updated : Option (Waiter Thread)} :
    ¬ ((waiters.store waiter updated).moveTo thread .none).Blocked waiter := by
  rintro (queued | ⟨other, isWaking⟩)
  · exact sound.not_selected queued
      ((sound.at_ waiter).waking thread waker)
  · change Function.update waiters.role thread .none other = _ at isWaking
    rw [update_eq_iff_and (by simp)] at isWaking
    exact isWaking.1 ((sound.at_ waiter).single other thread isWaking.2 waker)

theorem V
    (sound : waiters.Sound) (waker : waiters.role thread = .waking waiter)
    {found : Waiter Thread}
    (present : waiters.semaphores waiter = some found) :
    ((waiters.store waiter
      (some { found with semaphore := found.semaphore.V })).moveTo thread
        .none).Sound := by
  have old := (sound.at_ waiter).waiter found present
  have selected := (sound.at_ waiter).waking thread waker
  have notBlocked := @not_blocked_after_V _ waiters thread waiter _ sound waker
    (some { found with semaphore := found.semaphore.V })
  have notThread : found.thread ≠ thread := by
    intro isThread
    have owner := old.owner
    rw [isThread, waker] at owner
    cases owner
  refine ⟨sound.order, ?_⟩
  intro other
  by_cases same : other = waiter
  · subst same
    refine ⟨?_, ?_, fun _ => ⟨_, Function.update_self ..⟩, ?_, ?_⟩
    · exact fun _ _ => selected
    · exact fun first _ firstWaking _ =>
        absurd (Or.inr ⟨first, firstWaking⟩) notBlocked
    · apply (Function.forall_update_iff waiters.role (fun someThread role =>
        role.waiter? = some other → ∃ semaphore,
          Function.update waiters.semaphores other _ other =
            some ⟨someThread, semaphore⟩)).mpr
      refine ⟨fun waits => (nomatch waits), fun someThread _ waits => ?_⟩
      obtain ⟨semaphore, owned⟩ := (sound.at_ other).owned someThread waits
      rw [present] at owned
      cases owned
      exact ⟨_, Function.update_self ..⟩
    · intro alsoFound alsoPresent
      cases (Function.update_self ..).symm.trans alsoPresent
      have sameRole : Function.update waiters.role thread .none
          found.thread = waiters.role found.thread :=
        Function.update_of_ne notThread _ _
      have completedV : found.semaphore.completedV = 0 := by
        rcases old.completedV with ⟨_, none⟩ | ⟨notBlocked, _⟩
        · exact none
        · exact absurd (Or.inr ⟨thread, waker⟩) notBlocked
      have account := old.semaphore.account
      refine ⟨old.allocated, old.semaphore.V (by omega), ?_, ?_, ?_,
        Or.inr ⟨notBlocked, ?_⟩⟩
      · change (Function.update waiters.role thread _ found.thread).waiter? = _
        rw [sameRole]
        exact old.owner
      · intro someThread
        rw [SemaphoreUse.inside_V, old.inside]
        refine (update_eq_iff ?_ ?_ someThread).symm
        · rw [waker]
          simp
        · simp
      · change found.semaphore.completedP =
          if Function.update waiters.role thread _ found.thread = _ then 1
          else 0
        rw [sameRole]
        exact old.completedP
      · change found.semaphore.completedV + 1 = 1
        rw [completedV]
  · apply (sound.at_ other).frame rfl
    · rw [waker]
      exact fun equal => same (Option.some.inj equal).symm
    · exact fun equal => nomatch equal
    · rfl
    · exact Function.update_of_ne same _ _
    · exact id
    · exact le_rfl

end Sound

/-! ## Every step -/

/-- A thread took another role, and the queue is as it was. -/
structure Moves [DecidableEq Thread]
    (waiters next : Waiters Thread) (thread : Thread) (role : WaiterRole) :
    Prop where
  role : next.role = Function.update waiters.role thread role
  waitQueue : next.waitQueue = waiters.waitQueue
  selected : next.selected = waiters.selected
  allocated : next.allocated = waiters.allocated

namespace Sound

variable [DecidableEq Thread] {waiters : Waiters Thread} {thread : Thread}
variable {waiter : Nat}

theorem perform_P
    (sound : waiters.Sound) (waits : waiters.role thread = .before waiter) :
    ∃ taken next, waiters.perform (.P thread waiter) = .ok next ∧
      next.Sound ∧ waiters.Moves next thread (afterTest waiter taken) := by
  obtain ⟨semaphore, present⟩ :=
    (sound.at_ waiter).owned thread (by rw [waits]; rfl)
  have old := (sound.at_ waiter).waiter _ present
  have outside : ¬ semaphore.Inside thread := by
    rw [old.inside, waits]
    simp
  obtain ⟨taken, tested, performed, effect, testedSound⟩ :=
    old.semaphore.P outside
  refine ⟨taken, _, ?_, sound.test (Or.inl waits) present effect testedSound,
    ⟨rfl, rfl, rfl, rfl⟩⟩
  simp [perform, find_eq present, performed]

theorem perform_resume
    (sound : waiters.Sound) (allowed : waiters.Allows (.resume thread waiter)) :
    ∃ taken next, waiters.perform (.resume thread waiter) = .ok next ∧
      next.Sound ∧ waiters.Moves next thread (afterTest waiter taken) := by
  obtain ⟨waits, isReadied⟩ := allowed
  obtain ⟨semaphore, present⟩ :=
    (sound.at_ waiter).owned thread (by rw [waits]; rfl)
  have old := (sound.at_ waiter).waiter _ present
  obtain ⟨taken, tested, performed, effect, testedSound⟩ :=
    old.semaphore.resume (isReadied _ present)
  refine ⟨taken, _, ?_, sound.test (Or.inr waits) present effect testedSound,
    ⟨rfl, rfl, rfl, rfl⟩⟩
  simp [perform, find_eq present, performed]

theorem perform_delete
    (sound : waiters.Sound) (passed : waiters.role thread = .after waiter) :
    ∃ next, waiters.perform (.delete thread waiter) = .ok next ∧
      next.Sound ∧ waiters.Moves next thread .none := by
  obtain ⟨semaphore, present⟩ :=
    (sound.at_ waiter).owned thread (by rw [passed]; rfl)
  refine ⟨_, ?_, sound.delete passed, ⟨rfl, rfl, rfl, rfl⟩⟩
  simp [perform, find_eq present]

theorem perform_V
    (sound : waiters.Sound) (waker : waiters.role thread = .waking waiter) :
    ∃ next, waiters.perform (.V thread waiter) = .ok next ∧ next.Sound ∧
      waiters.Moves next thread .none ∧ ¬ next.Blocked waiter := by
  obtain ⟨found, present⟩ := (sound.at_ waiter).blocked (Or.inr ⟨thread, waker⟩)
  refine ⟨_, ?_, sound.V waker present, ⟨rfl, rfl, rfl, rfl⟩, ?_⟩
  · simp [perform, find_eq present]
  · exact sound.not_blocked_after_V waker

theorem removeFront
    (sound : waiters.Sound) (idle : waiters.role thread = .none)
    (nonempty : waiters.waitQueue ≠ []) :
    ∃ waiter next, waiters.removeFront thread = .ok (waiter, next) ∧
      next.Sound ∧ waiters.waitQueue = waiter :: next.waitQueue ∧
      next.selected = waiters.selected ++ [waiter] ∧
      next.allocated = waiters.allocated ∧
      next.role = Function.update waiters.role thread (.waking waiter) := by
  obtain ⟨waiter, rest, queue⟩ := List.exists_cons_of_ne_nil nonempty
  refine ⟨waiter, _, ?_, sound.remove idle queue, queue, rfl, rfl, rfl⟩
  simp [Waiters.removeFront, queue, listRemoveFront]

end Sound

/-! ## Blocked and released threads -/

/-- Until its semaphore has had its `V`, a thread does not get past `P`: the
value is 0, and it is on no ready list. -/
theorem Sound.of_blocked
    {waiters : Waiters Thread} (sound : waiters.Sound) {waiter : Nat}
    (blocked : waiters.Blocked waiter) {found : Waiter Thread}
    (present : waiters.semaphores waiter = some found) :
    found.semaphore.semaphore.value = 0 ∧ found.semaphore.readied = [] := by
  have old := (sound.at_ waiter).waiter found present
  have account := old.semaphore.account
  have nonnegative := old.semaphore.nonnegative
  have few := old.semaphore.few
  rcases old.completedV with ⟨_, none⟩ | ⟨notBlocked, _⟩
  · rw [none] at account few
    refine ⟨by omega, List.eq_nil_of_length_eq_zero (by omega)⟩
  · exact absurd blocked notBlocked

/-- Once it has had it, the value is there for the thread, which is not asleep
without being on the ready list. -/
theorem Sound.of_released
    {waiters : Waiters Thread} (sound : waiters.Sound) {thread : Thread}
    {waiter : Nat}
    (waits : waiters.role thread = .before waiter ∨
      waiters.role thread = .asleep waiter)
    (notBlocked : ¬ waiters.Blocked waiter) :
    ∃ semaphore, waiters.semaphores waiter = some ⟨thread, semaphore⟩ ∧
      semaphore.semaphore.value = 1 ∧
      (waiters.role thread = .asleep waiter → thread ∈ semaphore.readied) := by
  obtain ⟨semaphore, present⟩ := (sound.at_ waiter).owned thread (by
    rcases waits with role | role <;> rw [role] <;> rfl)
  have old := (sound.at_ waiter).waiter _ present
  have account := old.semaphore.account
  have completedP := old.completedP
  have notPassed : waiters.role thread ≠ .after waiter := by
    rcases waits with role | role <;> rw [role] <;> simp
  dsimp only at account completedP
  rw [if_neg notPassed] at completedP
  have completedV : semaphore.completedV = 1 := by
    rcases old.completedV with ⟨blocked, _⟩ | ⟨_, one⟩
    · exact absurd blocked notBlocked
    · exact one
  have value : semaphore.semaphore.value = 1 := by omega
  refine ⟨semaphore, present, value, ?_⟩
  intro asleep
  rcases (old.inside thread).mpr asleep with queued | isReadied
  · -- no wakeup is lost: someone is readied, and it can only be this thread
    have covered := old.semaphore.covered (List.ne_nil_of_mem queued)
    dsimp only at covered
    have nonempty : semaphore.readied ≠ [] := by
      intro empty
      rw [empty, value, List.length_nil] at covered
      omega
    obtain ⟨other, otherReadied⟩ := List.exists_mem_of_ne_nil _ nonempty
    have otherAsleep := (old.inside other).mp (Or.inr otherReadied)
    obtain ⟨_, otherPresent⟩ :=
      (sound.at_ waiter).owned other (by rw [otherAsleep]; rfl)
    rw [present] at otherPresent
    cases otherPresent
    exact otherReadied
  · exact isReadied

theorem Moves.blocked [DecidableEq Thread]
    {waiters next : Waiters Thread} {thread : Thread} {role : WaiterRole}
    (moves : waiters.Moves next thread role)
    (takes : ∀ waiter, role ≠ .waking waiter) {waiter : Nat}
    (blocked : next.Blocked waiter) : waiters.Blocked waiter := by
  rcases blocked with queued | ⟨other, isWaking⟩
  · rw [moves.waitQueue] at queued
    exact Or.inl queued
  · rw [moves.role, update_eq_iff_and (takes waiter)] at isWaking
    exact Or.inr ⟨other, isWaking.2⟩

end Waiters

end Nachos
