import Nachos.Threads.Scheduler
import Mathlib.Data.List.Nodup

/-!
# Where threads are
-/

namespace Nachos

open Foundation

variable {Thread Key : Type}

structure PlacedAt (status : Option ThreadStatus) (thread : Thread)
    (readyList : List Thread) (queue : Key → List Thread)
    (finished : List Thread) : Prop where
  ready : status = some .ready ↔ thread ∈ readyList
  queued : ∀ key, thread ∈ queue key →
    status = some .blocked ∧ thread ∉ finished
  single : ∀ key other, thread ∈ queue key → thread ∈ queue other →
    key = other
  blocked : status = some .blocked → thread ∉ finished →
    ∃ key, thread ∈ queue key

/-- Every thread is where it should be, and only once. -/
structure Placed (status : Thread → Option ThreadStatus)
    (readyList : List Thread) (queue : Key → List Thread)
    (finished : List Thread) : Prop where
  nodup : readyList.Nodup
  queues : ∀ key, (queue key).Nodup
  at_ : ∀ thread,
    PlacedAt (status thread) thread readyList queue finished

/-- A thread with this status is neither in the ready list nor in a queue. -/
def Loose (status : Option ThreadStatus) : Prop :=
  status ≠ some .ready ∧ status ≠ some .blocked

theorem PlacedAt.of_loose
    {status : Option ThreadStatus} {thread : Thread}
    {readyList : List Thread} {queue : Key → List Thread}
    {finished : List Thread} (loose : Loose status)
    (notReady : thread ∉ readyList)
    (notQueued : ∀ key, thread ∉ queue key) :
    PlacedAt status thread readyList queue finished where
  ready := iff_of_false loose.1 notReady
  queued := fun key member => absurd member (notQueued key)
  single := fun key _ member => absurd member (notQueued key)
  blocked := fun isBlocked => absurd isBlocked loose.2

namespace Placed

variable {status : Thread → Option ThreadStatus} {readyList : List Thread}
variable {queue : Key → List Thread} {finished : List Thread}
variable {thread : Thread}

theorem notReady
    (placed : Placed status readyList queue finished)
    (loose : Loose (status thread)) : thread ∉ readyList :=
  fun member => loose.1 ((placed.at_ thread).ready.mpr member)

theorem notQueued
    (placed : Placed status readyList queue finished)
    (loose : status thread ≠ some .blocked) (key : Key) :
    thread ∉ queue key :=
  fun member => loose ((placed.at_ thread).queued key member).1

theorem ready_of_mem
    (placed : Placed status readyList queue finished)
    (member : thread ∈ readyList) : status thread = some .ready :=
  (placed.at_ thread).ready.mpr member

variable [DecidableEq Thread]

theorem update
    (placed : Placed status readyList queue finished)
    {newStatus : Option ThreadStatus} {newReadyList : List Thread}
    {newQueue : Key → List Thread} {newFinished : List Thread}
    (nodup : newReadyList.Nodup) (queues : ∀ key, (newQueue key).Nodup)
    (others : ∀ other, other ≠ thread →
      (other ∈ newReadyList ↔ other ∈ readyList) ∧
        (∀ key, other ∈ newQueue key ↔ other ∈ queue key) ∧
        (other ∈ newFinished ↔ other ∈ finished))
    (self : PlacedAt newStatus thread newReadyList newQueue newFinished) :
    Placed (Function.update status thread newStatus) newReadyList newQueue
      newFinished where
  nodup := nodup
  queues := queues
  at_ := by
    apply (Function.forall_update_iff status (fun other status =>
      PlacedAt status other newReadyList newQueue newFinished)).mpr
    refine ⟨self, fun other different => ?_⟩
    obtain ⟨sameReady, sameQueue, sameFinished⟩ := others other different
    have old := placed.at_ other
    refine ⟨old.ready.trans sameReady.symm, ?_, ?_, ?_⟩
    · intro key member
      obtain ⟨isBlocked, unfinished⟩ :=
        old.queued key ((sameQueue key).mp member)
      exact ⟨isBlocked, fun isFinished =>
        unfinished (sameFinished.mp isFinished)⟩
    · intro first second inFirst inSecond
      exact old.single first second ((sameQueue first).mp inFirst)
        ((sameQueue second).mp inSecond)
    · intro isBlocked unfinished
      obtain ⟨key, member⟩ := old.blocked isBlocked
        (fun isFinished => unfinished (sameFinished.mpr isFinished))
      exact ⟨key, (sameQueue key).mpr member⟩

omit [DecidableEq Thread] in
theorem nodup_append_singleton
    {list : List Thread} (nodup : list.Nodup) (absent : thread ∉ list) :
    (list ++ [thread]).Nodup := by
  rw [← List.concat_eq_append]
  exact nodup.concat absent

omit [DecidableEq Thread] in
theorem mem_append_singleton_of_ne
    {list : List Thread} {other : Thread} (different : other ≠ thread) :
    other ∈ list ++ [thread] ↔ other ∈ list := by
  simp [different]

theorem stay_loose
    (placed : Placed status readyList queue finished)
    (loose : Loose (status thread)) {newStatus : Option ThreadStatus}
    (stillLoose : Loose newStatus) :
    Placed (Function.update status thread newStatus) readyList queue
      finished :=
  placed.update placed.nodup placed.queues
    (fun _ _ => ⟨Iff.rfl, fun _ => Iff.rfl, Iff.rfl⟩)
    (.of_loose stillLoose (placed.notReady loose)
      (placed.notQueued loose.2))

theorem enqueue
    (placed : Placed status readyList queue finished)
    (loose : Loose (status thread)) :
    Placed (Function.update status thread (some .ready))
      (readyList ++ [thread]) queue finished := by
  refine placed.update
    (nodup_append_singleton placed.nodup (placed.notReady loose))
    placed.queues (fun other different => ⟨?_, fun _ => Iff.rfl, Iff.rfl⟩) ?_
  · exact mem_append_singleton_of_ne different
  · refine ⟨iff_of_true rfl (by simp), ?_, ?_, ?_⟩
    · exact fun key member =>
        absurd member (placed.notQueued loose.2 key)
    · exact fun key _ member =>
        absurd member (placed.notQueued loose.2 key)
    · exact fun isBlocked => (nomatch isBlocked)

theorem dequeue
    {rest : List Thread}
    (placed : Placed status (thread :: rest) queue finished) :
    Placed (Function.update status thread (some .running)) rest queue
      finished := by
  obtain ⟨notInRest, nodup⟩ := List.nodup_cons.mp placed.nodup
  have ready := placed.ready_of_mem List.mem_cons_self
  refine placed.update nodup placed.queues
    (fun other different => ⟨?_, fun _ => Iff.rfl, Iff.rfl⟩)
    (.of_loose (by simp [Loose]) notInRest
      (placed.notQueued (by simp [ready])))
  simp [different]

variable [DecidableEq Key]

theorem block
    (placed : Placed status readyList queue finished)
    (loose : Loose (status thread)) (unfinished : thread ∉ finished)
    (key : Key) :
    Placed (Function.update status thread (some .blocked)) readyList
      (Function.update queue key (queue key ++ [thread])) finished := by
  have notQueued := placed.notQueued loose.2
  have member_iff : ∀ other,
      thread ∈ Function.update queue key (queue key ++ [thread]) other ↔
        other = key := by
    intro other
    by_cases same : other = key
    · simp [same]
    · simp [same, notQueued other]
  refine placed.update placed.nodup ?_
    (fun other different => ⟨Iff.rfl, ?_, Iff.rfl⟩) ?_
  · apply (Function.forall_update_iff queue
      (fun _ list => list.Nodup)).mpr
    exact ⟨nodup_append_singleton (placed.queues key) (notQueued key),
      fun other _ => placed.queues other⟩
  · intro other
    by_cases same : other = key
    · rw [same, Function.update_self]
      exact mem_append_singleton_of_ne different
    · rw [Function.update_of_ne same]
  · refine ⟨iff_of_false (by simp) (placed.notReady loose), ?_, ?_, ?_⟩
    · exact fun _ _ => ⟨rfl, unfinished⟩
    · intro first second inFirst inSecond
      exact ((member_iff first).mp inFirst).trans
        ((member_iff second).mp inSecond).symm
    · exact fun _ _ => ⟨key, (member_iff key).mpr rfl⟩

theorem wake
    (placed : Placed status readyList queue finished)
    {key : Key} {rest : List Thread} (first : queue key = thread :: rest) :
    Placed (Function.update status thread (some .ready))
      (readyList ++ [thread]) (Function.update queue key rest)
      finished := by
  have member : thread ∈ queue key := by
    rw [first]
    exact List.mem_cons_self
  have isBlocked := ((placed.at_ thread).queued key member).1
  have nodup := placed.queues key
  rw [first] at nodup
  obtain ⟨notInRest, nodupRest⟩ := List.nodup_cons.mp nodup
  have notReady : thread ∉ readyList := by
    intro isReady
    rw [placed.ready_of_mem isReady] at isBlocked
    cases isBlocked
  have notQueued : ∀ other, thread ∉ Function.update queue key rest other := by
    intro other
    by_cases same : other = key
    · rw [same, Function.update_self]
      exact notInRest
    · rw [Function.update_of_ne same]
      exact fun inOther =>
        same ((placed.at_ thread).single other key inOther member)
  refine placed.update (nodup_append_singleton placed.nodup notReady) ?_
    (fun other different => ⟨?_, ?_, Iff.rfl⟩) ?_
  · apply (Function.forall_update_iff queue
      (fun _ list => list.Nodup)).mpr
    exact ⟨nodupRest, fun other _ => placed.queues other⟩
  · exact mem_append_singleton_of_ne different
  · intro other
    by_cases same : other = key
    · rw [same, Function.update_self, first]
      simp [different]
    · rw [Function.update_of_ne same]
  · refine ⟨iff_of_true rfl (by simp), ?_, ?_, ?_⟩
    · exact fun other inOther => absurd inOther (notQueued other)
    · exact fun other _ inOther => absurd inOther (notQueued other)
    · exact fun isBlocked => (nomatch isBlocked)

omit [DecidableEq Key]

theorem finish
    (placed : Placed status readyList queue finished)
    (loose : Loose (status thread)) :
    Placed (Function.update status thread (some .blocked)) readyList queue
      (finished ++ [thread]) := by
  have notQueued := placed.notQueued loose.2
  refine placed.update placed.nodup placed.queues
    (fun other different => ⟨Iff.rfl, fun _ => Iff.rfl, ?_⟩) ?_
  · exact mem_append_singleton_of_ne different
  · refine ⟨iff_of_false (by simp) (placed.notReady loose), ?_, ?_, ?_⟩
    · exact fun key member => absurd member (notQueued key)
    · exact fun key _ member => absurd member (notQueued key)
    · exact fun _ unfinished => absurd (by simp) unfinished

theorem bury
    (placed : Placed status readyList queue finished)
    (isBlocked : status thread = some .blocked)
    (isFinished : thread ∈ finished) :
    Placed (Function.update status thread none) readyList queue
      finished := by
  refine placed.update placed.nodup placed.queues
    (fun _ _ => ⟨Iff.rfl, fun _ => Iff.rfl, Iff.rfl⟩)
    (.of_loose (by simp [Loose]) ?_ ?_)
  · intro member
    rw [placed.ready_of_mem member] at isBlocked
    cases isBlocked
  · exact fun key member =>
      ((placed.at_ thread).queued key member).2 isFinished

end Placed

structure Buried (status : Thread → Option ThreadStatus)
    (finished deleted undeleted : List Thread) : Prop where
  nodup : finished.Nodup
  order : finished = deleted ++ undeleted
  gone : ∀ thread ∈ deleted, status thread = none
  left : ∀ thread ∈ undeleted, status thread = some .blocked

namespace Buried

variable {status : Thread → Option ThreadStatus}
variable {finished deleted undeleted : List Thread} {thread : Thread}

theorem unfinished
    (buried : Buried status finished deleted undeleted)
    (exists_ : status thread ≠ none)
    (notBlocked : status thread ≠ some .blocked) :
    thread ∉ finished := by
  rw [buried.order, List.mem_append]
  rintro (isDeleted | isLeft)
  · exact exists_ (buried.gone thread isDeleted)
  · exact notBlocked (buried.left thread isLeft)

variable [DecidableEq Thread]

theorem update
    (buried : Buried status finished deleted undeleted)
    (unfinished : thread ∉ finished) (newStatus : Option ThreadStatus) :
    Buried (Function.update status thread newStatus) finished deleted
      undeleted where
  nodup := buried.nodup
  order := buried.order
  gone := by
    intro other member
    rw [Function.update_of_ne]
    · exact buried.gone other member
    · rintro rfl
      exact unfinished (buried.order ▸ List.mem_append_left _ member)
  left := by
    intro other member
    rw [Function.update_of_ne]
    · exact buried.left other member
    · rintro rfl
      exact unfinished (buried.order ▸ List.mem_append_right _ member)

theorem finish
    (buried : Buried status finished deleted [])
    (unfinished : thread ∉ finished) :
    Buried (Function.update status thread (some .blocked))
      (finished ++ [thread]) deleted [thread] where
  nodup := Placed.nodup_append_singleton buried.nodup unfinished
  order := by
    rw [buried.order, List.append_nil]
  gone := (buried.update unfinished _).gone
  left := by
    intro other member
    rw [List.mem_singleton.mp member, Function.update_self]

theorem delete
    (buried : Buried status finished deleted [thread]) :
    Buried (Function.update status thread none) finished
      (deleted ++ [thread]) [] where
  nodup := buried.nodup
  order := by
    rw [buried.order, List.append_nil]
  gone := by
    intro other member
    by_cases same : other = thread
    · rw [same, Function.update_self]
    · rw [Function.update_of_ne same]
      exact buried.gone other
        ((Placed.mem_append_singleton_of_ne same).mp member)
  left := fun _ member => absurd member List.not_mem_nil

end Buried

end Nachos
