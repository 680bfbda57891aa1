import Nachos.Lib.List
import Nachos.Foundation.Transitions
import Mathlib.Data.List.Nodup

/-!
# Semaphores

`Semaphore::P` and `Semaphore::V` of `threads/synch.cc`, cut into the sections
that run with interrupts off.  A thread that finds `value` 0 sleeps in the
queue; `V` hands the first one to the ready list, and when it runs again it
tests `value` once more, behind any thread that came in between.  `value` is an
`int` that wraps around, so that the contract of a semaphore holds exactly as
long as the balance of its calls is an `int`.
-/

namespace Nachos

open Foundation

variable {Thread : Type}

structure Semaphore (Thread : Type) where
  value : Int
  queue : List Thread

namespace Semaphore

def create (initialValue : Int) : Semaphore Thread :=
  ⟨initialValue, []⟩

/-- One test of the loop in `Semaphore::P`: the value is taken, and `P` goes on
to its end, or the thread is queued and goes to sleep. -/
def test [DecidableEq Thread]
    (thread : Thread) (semaphore : Semaphore Thread) :
    Except Fault (Bool × Semaphore Thread) :=
  if semaphore.value = 0 then do
    let queue ← listAppend semaphore.queue thread
    return (false, { semaphore with queue := queue })
  else
    return (true, { semaphore with value := wrap (semaphore.value - 1) })

/-- `Semaphore::V`, with the thread that it hands to `ReadyToRun`. -/
def V (semaphore : Semaphore Thread) : Option Thread × Semaphore Thread :=
  match semaphore.queue with
  | [] => (none, { semaphore with value := wrap (semaphore.value + 1) })
  | thread :: rest => (some thread, ⟨wrap (semaphore.value + 1), rest⟩)

end Semaphore

/-- A semaphore in use.  `readied` are the threads inside `P` that `V` moved to
the ready list and that have not tested `value` since; the two counters are of
the `P`s and `V`s that came to their end. -/
structure SemaphoreUse (Thread : Type) where
  semaphore : Semaphore Thread
  readied : List Thread
  completedP : Nat
  completedV : Nat

namespace SemaphoreUse

def create (initialValue : Int) : SemaphoreUse Thread :=
  ⟨.create initialValue, [], 0, 0⟩

/-- A thread tests `value`, for the first time or again. -/
def test [DecidableEq Thread] (thread : Thread) (use : SemaphoreUse Thread) :
    Except Fault (Bool × SemaphoreUse Thread) := do
  let (taken, semaphore) ← use.semaphore.test thread
  return (taken, { use with
    semaphore := semaphore
    completedP := if taken then use.completedP + 1 else use.completedP })

/-- A thread from the ready list runs again inside `P`. -/
def resume [DecidableEq Thread]
    (thread : Thread) (use : SemaphoreUse Thread) :
    Except Fault (Bool × SemaphoreUse Thread) :=
  test thread { use with readied := use.readied.erase thread }

def V (use : SemaphoreUse Thread) : SemaphoreUse Thread where
  semaphore := use.semaphore.V.2
  readied := use.readied ++ use.semaphore.V.1.toList
  completedP := use.completedP
  completedV := use.completedV + 1

/-- The thread has called `P` and not come to its end. -/
def Inside (use : SemaphoreUse Thread) (thread : Thread) : Prop :=
  thread ∈ use.semaphore.queue ∨ thread ∈ use.readied

/-- The sections with interrupts off.  `V` is called by a thread, or by an
interrupt handler if there is no caller. -/
inductive Event (Thread : Type) where
  | P (thread : Thread)
  | resume (thread : Thread)
  | V (caller : Option Thread)

/-- What can happen next: a thread inside `P` does nothing until it is readied,
and then goes on in `P`. -/
def Allows (use : SemaphoreUse Thread) : Event Thread → Prop
  | .P thread => ¬ use.Inside thread
  | .resume thread => thread ∈ use.readied
  | .V caller => ∀ thread ∈ caller, ¬ use.Inside thread

def perform [DecidableEq Thread] (use : SemaphoreUse Thread) :
    Event Thread → Except Fault (SemaphoreUse Thread)
  | .P thread => do
    let (_, use) ← use.test thread
    return use
  | .resume thread => do
    let (_, use) ← use.resume thread
    return use
  | .V _ => return use.V

def system [DecidableEq Thread] (initialValue : Int) :
    TransitionSystem (SemaphoreUse Thread) (Event Thread) where
  start use := use = create initialValue
  step use event next := use.Allows event ∧ use.perform event = .ok next

/-! ## The invariant -/

/-- The invariant; `testing` counts the readied threads that are just about to
test `value`. -/
structure Sound (initialValue : Int) (testing : Nat)
    (use : SemaphoreUse Thread) : Prop where
  nonnegative : 0 ≤ use.semaphore.value
  small : use.semaphore.value < 2 ^ 31
  account : use.semaphore.value =
    initialValue + use.completedV - use.completedP
  covered : use.semaphore.queue ≠ [] →
    use.semaphore.value ≤ use.readied.length + testing
  nodup : (use.semaphore.queue ++ use.readied).Nodup
  few : use.readied.length ≤ use.completedV

variable {use : SemaphoreUse Thread} {initialValue : Int} {testing : Nat}

theorem sound_create
    (nonnegative : 0 ≤ initialValue) (small : initialValue < 2 ^ 31) :
    (create initialValue : SemaphoreUse Thread).Sound initialValue 0 where
  nonnegative := nonnegative
  small := small
  account := by simp [create, Semaphore.create]
  covered := fun waiting => absurd rfl waiting
  nodup := List.nodup_nil
  few := le_rfl

variable [DecidableEq Thread]

theorem test_of_zero
    {thread : Thread} (zero : use.semaphore.value = 0)
    (notQueued : thread ∉ use.semaphore.queue) :
    use.test thread = .ok (false, { use with
      semaphore := { use.semaphore with
        queue := use.semaphore.queue ++ [thread] } }) := by
  unfold test Semaphore.test
  rw [if_pos zero, listAppend_eq notQueued]
  rfl

theorem test_of_positive
    {thread : Thread} (positive : 0 < use.semaphore.value)
    (small : use.semaphore.value < 2 ^ 31) :
    use.test thread = .ok (true, { use with
      semaphore := { use.semaphore with value := use.semaphore.value - 1 }
      completedP := use.completedP + 1 }) := by
  unfold test Semaphore.test
  rw [if_neg (by omega), wrap_eq_self (by omega) (by omega)]
  rfl

structure Tested
    (use : SemaphoreUse Thread) (thread : Thread) (taken : Bool)
    (next : SemaphoreUse Thread) : Prop where
  taken_iff : taken = true ↔ use.semaphore.value ≠ 0
  value : next.semaphore.value = use.semaphore.value - taken.toNat
  completedP : next.completedP = use.completedP + taken.toNat
  completedV : next.completedV = use.completedV
  inside_self : next.Inside thread ↔ taken = false
  inside_other : ∀ other, other ≠ thread →
    (next.Inside other ↔ use.Inside other)

/-- A thread that is not inside `P` can test `value`, and that keeps the
invariant. -/
theorem Sound.test
    (sound : use.Sound initialValue 1) {thread : Thread}
    (outside : ¬ use.Inside thread) :
    ∃ taken next, use.test thread = .ok (taken, next) ∧
      use.Tested thread taken next ∧ next.Sound initialValue 0 := by
  have nonnegative := sound.nonnegative
  have small := sound.small
  have account := sound.account
  have covered := sound.covered
  by_cases zero : use.semaphore.value = 0
  · have notQueued : thread ∉ use.semaphore.queue :=
      fun queued => outside (Or.inl queued)
    refine ⟨false, _, test_of_zero zero notQueued,
      ⟨?_, ?_, rfl, rfl, ?_, ?_⟩,
      ⟨nonnegative, small, account, ?_, ?_, sound.few⟩⟩
    · simp [zero]
    · simp
    · simp [Inside]
    · intro other different
      simp [Inside, different]
    · intro _
      simp [zero]
    · have shifted :
          (use.semaphore.queue ++ [thread] ++ use.readied).Perm
            (thread :: (use.semaphore.queue ++ use.readied)) := by
        rw [List.append_assoc, List.singleton_append]
        exact List.perm_middle
      rw [shifted.nodup_iff, List.nodup_cons, List.mem_append]
      exact ⟨outside, sound.nodup⟩
  · refine ⟨true, _, test_of_positive (by omega) small,
      ⟨?_, ?_, rfl, rfl, ?_, ?_⟩,
      ⟨?_, ?_, ?_, ?_, sound.nodup, sound.few⟩⟩
    · simp [zero]
    · simp
    · exact iff_of_false outside (by decide)
    · exact fun _ _ => Iff.rfl
    · dsimp only
      omega
    · dsimp only
      omega
    · dsimp only
      omega
    · intro waiting
      have bound := covered waiting
      dsimp only
      omega

theorem Sound.P
    (sound : use.Sound initialValue 0) {thread : Thread}
    (outside : ¬ use.Inside thread) :
    ∃ taken next, use.test thread = .ok (taken, next) ∧
      use.Tested thread taken next ∧ next.Sound initialValue 0 :=
  Sound.test
    { sound with
      covered := fun waiting => (sound.covered waiting).trans (by simp) }
    outside

/-- The test of a thread that was woken: it counts as testing once it has left
`readied`. -/
theorem Sound.resume
    (sound : use.Sound initialValue 0) {thread : Thread}
    (readied : thread ∈ use.readied) :
    ∃ taken next, use.resume thread = .ok (taken, next) ∧
      use.Tested thread taken next ∧ next.Sound initialValue 0 := by
  have nodup := List.nodup_append.mp sound.nodup
  have length := List.length_erase_of_mem readied
  have positive := List.length_pos_of_mem readied
  have erased :
      { use with readied := use.readied.erase thread }.Sound
        initialValue 1 := by
    refine ⟨sound.nonnegative, sound.small, sound.account, ?_, ?_, ?_⟩
    · intro waiting
      have bound := sound.covered waiting
      dsimp only
      omega
    · exact sound.nodup.sublist
        ((List.Sublist.refl _).append List.erase_sublist)
    · exact List.erase_sublist.length_le.trans sound.few
  have outside :
      ¬ { use with readied := use.readied.erase thread }.Inside thread := by
    rintro (queued | again)
    · exact nodup.2.2 thread queued thread readied rfl
    · exact (nodup.2.1.mem_erase_iff.mp again).1 rfl
  obtain ⟨taken, next, tested, effect, nextSound⟩ := erased.test outside
  refine ⟨taken, next, tested, { effect with inside_other := ?_ }, nextSound⟩
  intro other different
  rw [effect.inside_other other different]
  unfold Inside
  rw [nodup.2.1.mem_erase_iff, and_iff_right different]

omit [DecidableEq Thread] in
theorem inside_V (use : SemaphoreUse Thread) (thread : Thread) :
    use.V.Inside thread ↔ use.Inside thread := by
  obtain ⟨⟨value, queue⟩, readied, completedP, completedV⟩ := use
  cases queue with
  | nil => simp [V, Semaphore.V, Inside]
  | cons first rest =>
    simp only [V, Semaphore.V, Inside, Option.toList_some, List.mem_append,
      List.mem_cons, List.not_mem_nil, or_false]
    constructor
    · rintro (inRest | inReadied | isFirst)
      · exact Or.inl (Or.inr inRest)
      · exact Or.inr inReadied
      · exact Or.inl (Or.inl isFirst)
    · rintro ((isFirst | inRest) | inReadied)
      · exact Or.inr (Or.inr isFirst)
      · exact Or.inl inRest
      · exact Or.inr (Or.inl inReadied)

omit [DecidableEq Thread] in
theorem wraps_V (use : SemaphoreUse Thread) :
    use.V.semaphore.value = wrap (use.semaphore.value + 1) := by
  obtain ⟨⟨value, queue⟩, readied, completedP, completedV⟩ := use
  cases queue <;> rfl

omit [DecidableEq Thread] in
theorem Sound.value_V
    (sound : use.Sound initialValue 0)
    (fits : use.semaphore.value + 1 < 2 ^ 31) :
    use.V.semaphore.value = use.semaphore.value + 1 := by
  have nonnegative := sound.nonnegative
  rw [wraps_V, wrap_eq_self (by omega) fits]

omit [DecidableEq Thread] in
/-- `V` keeps the invariant as long as the value does not wrap around. -/
theorem Sound.V
    (sound : use.Sound initialValue 0)
    (fits : use.semaphore.value + 1 < 2 ^ 31) :
    use.V.Sound initialValue 0 := by
  have raised := sound.value_V fits
  obtain ⟨nonnegative, small, account, covered, nodup, few⟩ := sound
  obtain ⟨⟨value, queue⟩, readied, completedP, completedV⟩ := use
  dsimp only at nonnegative account covered nodup few fits raised
  have balance : value + 1 =
      initialValue + ((completedV + 1 : Nat) : Int) - completedP := by
    omega
  refine ⟨by omega, by omega, raised.trans balance, ?_, ?_, ?_⟩
  · rw [raised]
    cases queue with
    | nil => exact fun waiting => absurd rfl waiting
    | cons first rest =>
      have bound := covered (List.cons_ne_nil _ _)
      intro _
      change value + 1 ≤ ((readied ++ [first]).length : Int) + _
      rw [List.length_append]
      push_cast
      simp only [List.length_singleton]
      omega
  · cases queue with
    | nil => simpa [SemaphoreUse.V, Semaphore.V] using nodup
    | cons first rest =>
      change (rest ++ (readied ++ [first])).Nodup
      have moved : (rest ++ (readied ++ [first])).Perm
          (first :: rest ++ readied) := by
        rw [← List.append_assoc]
        exact List.perm_append_singleton _ _
      exact moved.nodup_iff.mpr nodup
  · cases queue with
    | nil =>
      change (readied ++ []).length ≤ completedV + 1
      rw [List.append_nil]
      omega
    | cons first rest =>
      change (readied ++ [first]).length ≤ completedV + 1
      rw [List.length_append, List.length_singleton]
      omega

/-! ## Every schedule -/

/-- The balance of the calls that came to their end is an `int`. -/
def Fits (initialValue : Int) (use : SemaphoreUse Thread) : Prop :=
  initialValue + use.completedV - use.completedP < 2 ^ 31

/-- The contract of a semaphore: its value is not negative, it is the balance of
the calls, and while a thread sleeps in the queue there are at least as many
threads on their way to test the value as it counts.  No section fails. -/
structure Contract (initialValue : Int) (use : SemaphoreUse Thread) : Prop where
  nonnegative : 0 ≤ use.semaphore.value
  account : use.semaphore.value =
    initialValue + use.completedV - use.completedP
  covered : use.semaphore.queue ≠ [] →
    use.semaphore.value ≤ use.readied.length
  returns : ∀ event, use.Allows event → ∃ next, use.perform event = .ok next

/-- The schedules in which the balance was an `int` before each section. -/
def fittingRuns (initialValue : Int) :
    TransitionSystem (SemaphoreUse Thread) (Event Thread) where
  start := (system initialValue).start
  step use event next :=
    use.Fits initialValue ∧ (system initialValue).step use event next

omit [DecidableEq Thread] in
theorem Sound.fits (sound : use.Sound initialValue 0) :
    use.Fits initialValue := by
  unfold Fits
  rw [← sound.account]
  exact sound.small

/-- A section keeps the invariant, or it is the `V` that makes the value
negative. -/
theorem Sound.step
    (sound : use.Sound initialValue 0) {event : Event Thread}
    (allowed : use.Allows event) :
    ∃ next, use.perform event = .ok next ∧
      (next.Sound initialValue 0 ∨
        ¬ next.Fits initialValue ∧ next.semaphore.value < 0) := by
  cases event with
  | P thread =>
    obtain ⟨taken, next, tested, _, nextSound⟩ := sound.P allowed
    exact ⟨next, by simp [perform, tested], Or.inl nextSound⟩
  | resume thread =>
    obtain ⟨taken, next, tested, _, nextSound⟩ := sound.resume allowed
    exact ⟨next, by simp [perform, tested], Or.inl nextSound⟩
  | V caller =>
    refine ⟨use.V, rfl, ?_⟩
    by_cases fits : use.semaphore.value + 1 < 2 ^ 31
    · exact Or.inl (sound.V fits)
    · have small := sound.small
      have account := sound.account
      have largest : use.semaphore.value = 2 ^ 31 - 1 := by omega
      right
      rw [wraps_V, largest]
      refine ⟨?_, by decide⟩
      change ¬ (initialValue + ((use.completedV + 1 : Nat) : Int) -
        use.completedP < 2 ^ 31)
      omega

theorem sound_of_reachable
    (nonnegative : 0 ≤ initialValue) (small : initialValue < 2 ^ 31)
    (reachable : (fittingRuns initialValue).Reachable use) :
    use.Sound initialValue 0 ∨
      ¬ use.Fits initialValue ∧ use.semaphore.value < 0 := by
  apply reachable.invariant
  · intro state starting
    rw [show state = create initialValue from starting]
    exact Or.inl (sound_create nonnegative small)
  · rintro source event target (sound | ⟨overflow, _⟩) ⟨fits, allowed, performed⟩
    · obtain ⟨next, isPerformed, nextSound⟩ := sound.step allowed
      cases isPerformed.symm.trans performed
      exact nextSound
    · exact absurd fits overflow

/-- Under every schedule of `P` and `V`, the contract of a semaphore holds up to
the first `V` that makes the balance too large for an `int`, and no longer. -/
theorem contract_iff_fits
    (nonnegative : 0 ≤ initialValue) (small : initialValue < 2 ^ 31)
    (reachable : (fittingRuns initialValue).Reachable use) :
    use.Contract initialValue ↔ use.Fits initialValue := by
  rcases sound_of_reachable nonnegative small reachable with
    sound | ⟨overflow, negative⟩
  · refine iff_of_true ⟨sound.nonnegative, sound.account, ?_, ?_⟩ sound.fits
    · intro waiting
      have bound := sound.covered waiting
      omega
    · intro event allowed
      obtain ⟨next, performed, _⟩ := sound.step allowed
      exact ⟨next, performed⟩
  · refine iff_of_false (fun contract => ?_) overflow
    have nonnegative := contract.nonnegative
    omega

theorem contract_after_wakeup :
    ∃ use : SemaphoreUse Nat,
      (fittingRuns 0).Reachable use ∧ use.semaphore.queue = [2] ∧
        use.readied = [1] ∧ use.Contract 0 := by
  have first : (fittingRuns 0).Reachable
      (⟨⟨0, [1]⟩, [], 0, 0⟩ : SemaphoreUse Nat) :=
    .step (.start rfl)
      (show (fittingRuns 0).step _ (.P 1) _ from
        ⟨by unfold Fits; decide,
          by simp [Allows, Inside, create, Semaphore.create], rfl⟩)
  have second : (fittingRuns 0).Reachable
      (⟨⟨0, [1, 2]⟩, [], 0, 0⟩ : SemaphoreUse Nat) :=
    .step first
      (show (fittingRuns 0).step _ (.P 2) _ from
        ⟨by unfold Fits; decide, by simp [Allows, Inside], rfl⟩)
  have third : (fittingRuns 0).Reachable
      (⟨⟨1, [2]⟩, [1], 0, 1⟩ : SemaphoreUse Nat) :=
    .step second
      (show (fittingRuns 0).step _ (.V none) _ from
        ⟨by unfold Fits; decide, by simp [Allows], rfl⟩)
  exact ⟨_, third, rfl, rfl,
    (contract_iff_fits le_rfl (by decide) third).mpr (by unfold Fits; decide)⟩

/-- A semaphore that starts with the largest `int`: one `V` makes it
negative. -/
theorem value_negative_after_V :
    ∃ use : SemaphoreUse Nat,
      (system 2147483647).Reachable use ∧ use.completedV = 1 ∧
        use.completedP = 0 ∧ use.semaphore.value = -2147483648 :=
  ⟨(create 2147483647).V,
    .step (.start rfl)
      (show (system 2147483647).step _ (.V none) _ from
        ⟨by simp [Allows], rfl⟩),
    rfl, rfl, rfl⟩

end SemaphoreUse

end Nachos
