import Nachos.Threads.ConditionCalls
import Nachos.Foundation.Channel
import Nachos.Foundation.Counting

/-!
# Synchronized lists

`SynchList::Append` and `SynchList::RemoveFront` of `threads/synchlist.cc`, step
by step.  The calls of `Acquire`, `Release`, `Wait` and `Signal` are those of the
lock and of the condition `listEmpty`, whose steps other threads can come
between; so can they between any two statements of `Append` and `RemoveFront`.
-/

namespace Nachos

open Foundation

variable {Thread Item : Type}

inductive SynchListCall (Item : Type) where
  | append (item : Item)
  | removeFront

def SynchListCall.item? : SynchListCall Item → Option Item
  | .append item => some item
  | .removeFront => none

inductive SynchListTask (Item : Type) where
  | idle
  /-- In `lock->Acquire()`. -/
  | acquiring (call : SynchListCall Item)
  /-- Before `list->Append(item)`. -/
  | appending (item : Item)
  /-- Before the call of `listEmpty->Signal(lock)`. -/
  | signalCall
  /-- In `listEmpty->Signal(lock)`. -/
  | signalling
  /-- Before the test of the loop of `RemoveFront`; `again` after a `Wait`. -/
  | testing (again : Bool)
  /-- Before the call of `listEmpty->Wait(lock)`. -/
  | waitCall
  /-- In `listEmpty->Wait(lock)`. -/
  | waiting
  /-- Before `list->RemoveFront()`. -/
  | taking
  /-- Before the call of `lock->Release()`, with the item to return. -/
  | releaseCall (result : Option Item)
  /-- In `lock->Release()`. -/
  | releasing (result : Option Item)

namespace SynchListTask

def pending? : SynchListTask Item → Option Item
  | .acquiring call => call.item?
  | .appending item => some item
  | .idle | .signalCall | .signalling | .testing _ | .waitCall | .waiting
  | .taking | .releaseCall _ | .releasing _ => none

/-- The item that the thread has taken off the list and not returned yet. -/
def result? : SynchListTask Item → Option Item
  | .releaseCall result | .releasing result => result
  | .idle | .acquiring _ | .appending _ | .signalCall | .signalling
  | .testing _ | .waitCall | .waiting | .taking => none

end SynchListTask

def SynchListCall.entered : SynchListCall Item → SynchListTask Item
  | .append item => .appending item
  | .removeFront => .testing false

/-- A synchronized list in use, and where each thread is.  The last four fields
are a record of what happened: the items that were passed to `Append`, those
that were put in the list, those that were taken off it and by whom, each in
that order, and what each thread got from `RemoveFront`. -/
structure SynchListUse (Thread Item : Type) where
  condition : ConditionUse Thread
  list : List Item
  task : Thread → SynchListTask Item
  passed : List Item
  appended : List Item
  removed : List (Thread × Item)
  returned : Thread → List Item

namespace SynchListUse

def create : SynchListUse Thread Item :=
  ⟨.create, [], fun _ => .idle, [], [], [], fun _ => []⟩

inductive Event (Thread Item : Type) where
  /-- Call `Append` or `RemoveFront`. -/
  | call (thread : Thread) (call : SynchListCall Item)
  /-- A step inside `Acquire`, `Release`, `Wait` or `Signal`. -/
  | condition (event : ConditionUse.Event Thread)
  /-- `lock->Acquire()` has returned. -/
  | acquired (thread : Thread) (call : SynchListCall Item)
  /-- `list->Append(item)`. -/
  | append (thread : Thread) (item : Item)
  /-- Call `listEmpty->Signal(lock)`. -/
  | signal (thread : Thread)
  /-- `listEmpty->Signal(lock)` has returned. -/
  | signalled (thread : Thread)
  /-- `list->IsEmpty()`. -/
  | test (thread : Thread) (again : Bool)
  /-- Call `listEmpty->Wait(lock)`. -/
  | wait (thread : Thread)
  /-- `listEmpty->Wait(lock)` has returned. -/
  | waited (thread : Thread)
  /-- `list->RemoveFront()`. -/
  | take (thread : Thread)
  /-- Call `lock->Release()`. -/
  | release (thread : Thread) (result : Option Item)
  /-- `lock->Release()` has returned, and so does the function. -/
  | released (thread : Thread) (result : Option Item)

def Permits (use : SynchListUse Thread Item)
    (event : ConditionUse.Event Thread) : Prop :=
  match use.task event.thread with
  | .acquiring _ =>
    use.condition.lock.phase event.thread ≠ .holding ∧
      ∃ inner, event = .lock inner ∧ inner.ofAcquire = true
  | .releasing _ => ∃ inner, event = .lock inner ∧ inner.ofAcquire = false
  | .signalling | .waiting => use.condition.phase event.thread ≠ .rest
  | .idle | .appending _ | .signalCall | .testing _ | .waitCall | .taking
  | .releaseCall _ => False

/-- What can happen next.  No item is passed to `Append` twice. -/
def Allows (use : SynchListUse Thread Item) : Event Thread Item → Prop
  | .call thread call =>
    use.task thread = .idle ∧ ∀ item ∈ call.item?, item ∉ use.passed
  | .condition event => use.Permits event ∧ use.condition.Allows event
  | .acquired thread call =>
    use.task thread = .acquiring call ∧
      use.condition.lock.phase thread = .holding
  | .append thread item => use.task thread = .appending item
  | .signal thread => use.task thread = .signalCall
  | .signalled thread =>
    use.task thread = .signalling ∧ use.condition.phase thread = .rest
  | .test thread again => use.task thread = .testing again
  | .wait thread => use.task thread = .waitCall
  | .waited thread =>
    use.task thread = .waiting ∧ use.condition.phase thread = .rest
  | .take thread => use.task thread = .taking
  | .release thread result => use.task thread = .releaseCall result
  | .released thread result =>
    use.task thread = .releasing result ∧
      use.condition.lock.phase thread = .outside

def moveTo [DecidableEq Thread]
    (use : SynchListUse Thread Item) (thread : Thread)
    (task : SynchListTask Item) : SynchListUse Thread Item :=
  { use with task := Function.update use.task thread task }

variable [DecidableEq Thread] [DecidableEq Item]

def perform (use : SynchListUse Thread Item) :
    Event Thread Item → Except Fault (SynchListUse Thread Item)
  | .call thread call =>
    return { use with
      passed := use.passed ++ call.item?.toList }.moveTo thread
        (.acquiring call)
  | .condition event => do
    let condition ← use.condition.perform event
    return { use with condition := condition }
  | .acquired thread call => return use.moveTo thread call.entered
  | .append thread item => do
    let list ← listAppend use.list item
    return { use with
      list := list
      appended := use.appended ++ [item] }.moveTo thread .signalCall
  | .signal thread => do
    let condition ← use.condition.perform (.signal thread)
    return { use with condition := condition }.moveTo thread .signalling
  | .signalled thread => return use.moveTo thread (.releaseCall none)
  | .test thread _ =>
    if use.list.isEmpty then
      return use.moveTo thread .waitCall
    else
      return use.moveTo thread .taking
  | .wait thread => do
    let condition ← use.condition.perform (.wait thread)
    return { use with condition := condition }.moveTo thread .waiting
  | .waited thread => return use.moveTo thread (.testing true)
  | .take thread => do
    let (item, list) ← listRemoveFront use.list
    return { use with
      list := list
      removed := use.removed ++ [(thread, item)] }.moveTo thread
        (.releaseCall (some item))
  | .release thread result => do
    let condition ← use.condition.perform (.lock (.release thread))
    return { use with condition := condition }.moveTo thread
      (.releasing result)
  | .released thread result =>
    return { use with
      returned := Function.update use.returned thread
        (use.returned thread ++ result.toList) }.moveTo thread .idle

def system : TransitionSystem (SynchListUse Thread Item)
    (Event Thread Item) where
  start use := use = create
  step use event next := use.Allows event ∧ use.perform event = .ok next

/-! ## The invariant -/

omit [DecidableEq Thread] [DecidableEq Item]

def TaskSound (condition : ConditionUse Thread) (list : List Item)
    (thread : Thread) : SynchListTask Item → Prop
  | .idle =>
    condition.phase thread = .rest ∧ condition.lock.phase thread = .outside
  | .acquiring _ =>
    condition.phase thread = .rest ∧
      (condition.lock.phase thread).inAcquire = true
  | .appending _ | .signalCall | .testing _ | .releaseCall _ =>
    condition.phase thread = .rest ∧ condition.lock.phase thread = .holding
  | .signalling =>
    (condition.phase thread).inSignal = true ∧
      condition.lock.phase thread = .holding
  | .waitCall =>
    condition.phase thread = .rest ∧
      condition.lock.phase thread = .holding ∧ list = []
  | .waiting =>
    (condition.phase thread).inWait = true ∧
      (condition.phase thread = .rest →
        condition.lock.phase thread = .holding) ∧
      ((condition.phase thread).beforeQueue = true → list = [])
  | .taking =>
    condition.phase thread = .rest ∧
      condition.lock.phase thread = .holding ∧ list ≠ []
  | .releasing _ =>
    condition.phase thread = .rest ∧
      (condition.lock.phase thread).inRelease = true

/-- A consumer that was signalled and has not tested the list again. -/
def Signalled (condition : ConditionUse Thread) (thread : Thread) :
    SynchListTask Item → Prop
  | .testing again => again = true
  | .waiting => condition.Woken thread
  | .idle | .acquiring _ | .appending _ | .signalCall | .signalling
  | .waitCall | .taking | .releaseCall _ | .releasing _ => False

/-- A thread that answers for an item in the list: a consumer that was
signalled, a producer that has not signalled for its item yet, or a consumer
about to take an item. -/
def Answers (condition : ConditionUse Thread) (thread : Thread) :
    SynchListTask Item → Prop
  | .testing again => again = true
  | .waiting => condition.Woken thread
  | .signalCall | .taking => True
  | .signalling => (condition.phase thread).beforeV = true
  | .idle | .acquiring _ | .appending _ | .waitCall | .releaseCall _
  | .releasing _ => False

def signalled (use : SynchListUse Thread Item) : Set Thread :=
  { thread | Signalled use.condition thread (use.task thread) }

/-- The threads that answer for an item. -/
def answering (use : SynchListUse Thread Item) : Set Thread :=
  { thread | Answers use.condition thread (use.task thread) }

structure Recorded [DecidableEq Thread] (use : SynchListUse Thread Item) :
    Prop where
  listed : ∀ item ∈ use.list, item ∈ use.appended
  passed : ∀ item ∈ use.appended, item ∈ use.passed
  pending : ∀ thread item, (use.task thread).pending? = some item →
    item ∈ use.passed ∧ item ∉ use.appended
  distinct : ∀ thread other item,
    (use.task thread).pending? = some item →
    (use.task other).pending? = some item → thread = other
  results : ∀ thread,
    (use.removed.filter (fun entry => entry.1 = thread)).map Prod.snd =
      use.returned thread ++ (use.task thread).result?.toList

/-- The invariant.  While somebody is in the wait queue, every item in the list
has a thread that answers for it. -/
structure Sound [DecidableEq Thread] (use : SynchListUse Thread Item) :
    Prop where
  condition : use.condition.Sound
  tasks : ∀ thread,
    TaskSound use.condition use.list thread (use.task thread)
  recorded : use.Recorded
  finite : { thread | use.task thread ≠ .idle }.Finite
  covered : use.condition.waiters.waitQueue ≠ [] →
    use.list.length ≤ use.answering.ncard

/-- What was put in the list and taken off it, as the state of a channel. -/
def channel (use : SynchListUse Thread Item) : Channel Item :=
  ⟨use.list, use.appended, use.removed.map Prod.snd⟩

theorem sound_create [DecidableEq Thread] :
    (create : SynchListUse Thread Item).Sound where
  condition := ConditionUse.sound_create
  tasks := fun _ => ⟨rfl, rfl⟩
  recorded := by
    refine ⟨?_, ?_, ?_, ?_, fun _ => rfl⟩ <;>
      simp [create, SynchListTask.pending?]
  finite := by simp [create]
  covered := fun waiting => absurd rfl waiting

section Frame

variable {condition next : ConditionUse Thread} {thread : Thread}
variable {task : SynchListTask Item}

theorem TaskSound.frame
    {list nextList : List Item}
    (sound : TaskSound condition list thread task)
    (conditionSound : condition.Sound)
    (undisturbed : condition.Undisturbed next thread)
    (same : condition.lock.phase thread = .holding → nextList = list) :
    TaskSound next nextList thread task := by
  cases task with
  | idle | acquiring call | appending item | signalCall | signalling
  | testing again | releaseCall result | releasing result =>
    simp only [TaskSound, undisturbed.phase, undisturbed.lock]
    exact sound
  | waitCall | taking =>
    simp only [TaskSound, undisturbed.phase, undisturbed.lock, same sound.2.1]
    exact sound
  | waiting =>
    simp only [TaskSound, undisturbed.phase, undisturbed.lock]
    refine ⟨sound.1, sound.2.1, fun before => ?_⟩
    rw [same (conditionSound.holding_of_beforeQueue before)]
    exact sound.2.2 before

theorem Answers.frame
    (answers : Answers condition thread task)
    (conditionSound : condition.Sound)
    (undisturbed : condition.Undisturbed next thread) :
    Answers next thread task := by
  cases task with
  | idle | acquiring call | appending item | signalCall | testing again
  | waitCall | taking | releaseCall result | releasing result =>
    exact answers
  | signalling =>
    simp only [Answers, undisturbed.phase]
    exact answers
  | waiting => exact undisturbed.woken_of_woken conditionSound answers

theorem Signalled.answers
    (signalled : Signalled condition thread task) :
    Answers condition thread task := by
  cases task <;> first | exact signalled | exact signalled.elim

theorem Answers.signalled_or_holding
    (answers : Answers condition thread task) {list : List Item}
    (sound : TaskSound condition list thread task) :
    Signalled condition thread task ∨
      condition.lock.phase thread = .holding := by
  cases task with
  | testing again | waiting => exact Or.inl answers
  | signalCall | signalling => exact Or.inr sound.2
  | taking => exact Or.inr sound.2.1
  | idle | acquiring call | appending item | waitCall | releaseCall result
  | releasing result => exact answers.elim

theorem Answers.ne_idle
    (answers : Answers condition thread task) : task ≠ .idle := by
  rintro rfl
  exact answers

end Frame

end SynchListUse

end Nachos
