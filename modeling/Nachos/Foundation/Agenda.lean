import Mathlib.Data.List.Sort
import Nachos.Foundation.Transitions

/-!
# Agendas

A clock with entries posted for later times.  They wait in a list sorted by
time, behind the entries of the same time that were posted before, and are
served from its front once the clock has reached them.
-/

namespace Foundation

variable {Entry Time : Type} [LinearOrder Time]

/-- The clock, the waiting entries, all that were ever posted, and all that
were served, each with the clock at this moment. -/
structure Agenda (Entry Time : Type) where
  now : Time
  waiting : List Entry
  posted : List Entry
  served : List (Entry × Time)

namespace Agenda

inductive Action (Entry Time : Type) where
  | advance (now : Time)
  | post (entry : Entry)
  | serve

section

variable (time : Entry → Time) (stamp : Entry → Nat)

/-- The order of service: by time, then by stamp. -/
def Precedes (first second : Entry) : Prop :=
  time first < time second ∨
    time first = time second ∧ stamp first < stamp second

def due (now : Time) (waiting : List Entry) : Nat :=
  waiting.countP fun entry => decide (time entry ≤ now)

/-- The stamps of the entries number them in the order of their posting. -/
def system :
    TransitionSystem (Agenda Entry Time) (Action Entry Time) where
  start agenda :=
    agenda.waiting = [] ∧ agenda.posted = [] ∧ agenda.served = []
  step agenda action next :=
    match action with
    | .advance now => agenda.now ≤ now ∧ next = { agenda with now := now }
    | .post entry =>
      agenda.now < time entry ∧ stamp entry = agenda.posted.length ∧
        next = { agenda with
          waiting := agenda.waiting.orderedInsert
            (fun new old => time new < time old) entry
          posted := agenda.posted ++ [entry] }
    | .serve =>
      ∃ entry rest, agenda.waiting = entry :: rest ∧
        time entry ≤ agenda.now ∧
        next = { agenda with
          waiting := rest
          served := agenda.served ++ [(entry, agenda.now)] }

/-- What an agenda guarantees: entries are served in order, when they are due,
and none is lost or served twice. -/
structure Ordered (agenda : Agenda Entry Time) : Prop where
  order :
    (agenda.served.map Prod.fst ++ agenda.waiting).Pairwise
      (Precedes time stamp)
  punctual : ∀ service ∈ agenda.served, time service.1 ≤ service.2
  past : ∀ service ∈ agenda.served, service.2 ≤ agenda.now
  stamps : agenda.posted.map stamp = List.range agenda.posted.length
  complete :
    (agenda.served.map Prod.fst ++ agenda.waiting).Perm agenda.posted

end

variable {time : Entry → Time} {stamp : Entry → Nat}

theorem Precedes.time_le
    {first second : Entry} (precedes : Precedes time stamp first second) :
    time first ≤ time second := by
  rcases precedes with earlier | ⟨same, _⟩
  · exact earlier.le
  · exact same.le

theorem pairwise_orderedInsert
    {entry : Entry} {waiting : List Entry}
    (order : waiting.Pairwise (Precedes time stamp))
    (latest : ∀ other ∈ waiting, stamp other < stamp entry) :
    (waiting.orderedInsert (fun new old => time new < time old) entry).Pairwise
      (Precedes time stamp) := by
  induction waiting with
  | nil =>
    exact List.pairwise_singleton _ _
  | cons first rest ih =>
    obtain ⟨before, restOrder⟩ := List.pairwise_cons.mp order
    rw [List.orderedInsert_cons]
    split_ifs with earlier
    · refine List.pairwise_cons.mpr ⟨?_, order⟩
      intro other member
      rcases List.mem_cons.mp member with rfl | inRest
      · exact Or.inl earlier
      · exact Or.inl (earlier.trans_le (before other inRest).time_le)
    · have restLatest : ∀ other ∈ rest, stamp other < stamp entry :=
        fun other member => latest other (List.mem_cons_of_mem _ member)
      refine List.pairwise_cons.mpr ⟨?_, ih restOrder restLatest⟩
      intro other member
      rcases (List.mem_orderedInsert _).mp member with rfl | inRest
      · rcases (not_lt.mp earlier).lt_or_eq with later | same
        · exact Or.inl later
        · exact Or.inr ⟨same, latest first List.mem_cons_self⟩
      · exact before other inRest

theorem later_of_front
    {now : Time} {front : Entry} {rest : List Entry}
    (order : (front :: rest).Pairwise (Precedes time stamp))
    (early : now < time front) :
    ∀ entry ∈ front :: rest, now < time entry := by
  intro entry member
  rcases List.mem_cons.mp member with rfl | inRest
  · exact early
  · exact early.trans_le ((List.pairwise_cons.mp order).1 entry inRest).time_le

@[simp]
theorem due_orderedInsert
    {now : Time} {entry : Entry} (early : now < time entry)
    (waiting : List Entry) :
    due time now
        (waiting.orderedInsert (fun new old => time new < time old) entry) =
      due time now waiting := by
  unfold due
  rw [(List.perm_orderedInsert _ entry waiting).countP_eq,
    List.countP_cons_of_neg (by simpa using early)]

theorem due_cons
    {now : Time} {entry : Entry} (reached : time entry ≤ now)
    (rest : List Entry) :
    due time now (entry :: rest) = due time now rest + 1 :=
  List.countP_cons_of_pos (by simpa using reached)

namespace Ordered

variable {agenda : Agenda Entry Time}

theorem waiting_pairwise (ordered : agenda.Ordered time stamp) :
    agenda.waiting.Pairwise (Precedes time stamp) :=
  (List.pairwise_append.mp ordered.order).2.1

theorem stamp_lt (ordered : agenda.Ordered time stamp)
    {entry : Entry} (posted : entry ∈ agenda.posted) :
    stamp entry < agenda.posted.length := by
  have member : stamp entry ∈ agenda.posted.map stamp :=
    List.mem_map_of_mem posted
  rw [ordered.stamps] at member
  exact List.mem_range.mp member

theorem advance (ordered : agenda.Ordered time stamp)
    {now : Time} (later : agenda.now ≤ now) :
    { agenda with now := now }.Ordered time stamp :=
  { ordered with
    past := fun service member => (ordered.past service member).trans later }

theorem post (ordered : agenda.Ordered time stamp)
    {entry : Entry} (ahead : agenda.now < time entry)
    (numbered : stamp entry = agenda.posted.length) :
    { agenda with
      waiting := agenda.waiting.orderedInsert
        (fun new old => time new < time old) entry
      posted := agenda.posted ++ [entry] }.Ordered time stamp := by
  have inserted := List.perm_orderedInsert
    (fun new old => time new < time old) entry agenda.waiting
  have latest : ∀ other ∈ agenda.waiting, stamp other < stamp entry := by
    intro other member
    rw [numbered]
    exact ordered.stamp_lt
      (ordered.complete.subset (List.mem_append_right _ member))
  obtain ⟨servedOrder, waitingOrder, between⟩ :=
    List.pairwise_append.mp ordered.order
  refine ⟨?_, ordered.punctual, ordered.past, ?_, ?_⟩
  · refine List.pairwise_append.mpr
      ⟨servedOrder, pairwise_orderedInsert waitingOrder latest, ?_⟩
    intro earlier served other member
    rcases (List.mem_orderedInsert _).mp member with rfl | waits
    · -- What was served is not later than the clock.
      obtain ⟨service, recorded, rfl⟩ := List.mem_map.mp served
      exact Or.inl (((ordered.punctual service recorded).trans
        (ordered.past service recorded)).trans_lt ahead)
    · exact between earlier served other waits
  · simp only [List.map_append, List.map_cons, List.map_nil,
      List.length_append, List.length_singleton, ordered.stamps, numbered,
      List.range_succ]
  · calc
      List.Perm _ (agenda.served.map Prod.fst ++ entry :: agenda.waiting) :=
        inserted.append_left _
      List.Perm _ (entry :: (agenda.served.map Prod.fst ++ agenda.waiting)) :=
        List.perm_middle
      List.Perm _ (entry :: agenda.posted) := ordered.complete.cons entry
      List.Perm _ (agenda.posted ++ [entry]) :=
        (List.perm_append_singleton entry agenda.posted).symm

theorem serve (ordered : agenda.Ordered time stamp)
    {entry : Entry} {rest : List Entry}
    (front : agenda.waiting = entry :: rest)
    (reached : time entry ≤ agenda.now) :
    { agenda with
      waiting := rest
      served := agenda.served ++ [(entry, agenda.now)] }.Ordered
        time stamp := by
  -- The entry moves from one side of the joined list to the other.
  have joined :
      (agenda.served ++ [(entry, agenda.now)]).map Prod.fst ++ rest =
        agenda.served.map Prod.fst ++ agenda.waiting := by
    rw [front, List.map_append, List.append_assoc]
    rfl
  refine ⟨?_, ?_, ?_, ordered.stamps, ?_⟩
  · rw [joined]
    exact ordered.order
  · intro service member
    rcases List.mem_append.mp member with earlier | last
    · exact ordered.punctual service earlier
    · rw [List.mem_singleton.mp last]
      exact reached
  · intro service member
    rcases List.mem_append.mp member with earlier | last
    · exact ordered.past service earlier
    · rw [List.mem_singleton.mp last]
  · rw [joined]
    exact ordered.complete

end Ordered

theorem ordered_of_reachable
    {agenda : Agenda Entry Time}
    (reachable : (system time stamp).Reachable agenda) :
    agenda.Ordered time stamp := by
  refine reachable.invariant ?_ ?_
  · rintro state ⟨waiting, posted, served⟩
    constructor <;> simp [waiting, posted, served]
  · intro source action target ordered taken
    cases action with
    | advance now =>
      obtain ⟨later, rfl⟩ := taken
      exact ordered.advance later
    | post entry =>
      obtain ⟨ahead, numbered, rfl⟩ := taken
      exact ordered.post ahead numbered
    | serve =>
      obtain ⟨entry, rest, front, reached, rfl⟩ := taken
      exact ordered.serve front reached

section

variable {agenda : Agenda Entry Time}

theorem reachable_advance
    (reachable : (system time stamp).Reachable agenda)
    {now : Time} (later : agenda.now ≤ now) :
    (system time stamp).Reachable { agenda with now := now } :=
  reachable.step
    (show (system time stamp).step _ (.advance now) _ from ⟨later, rfl⟩)

theorem reachable_post
    (reachable : (system time stamp).Reachable agenda)
    {entry : Entry} (ahead : agenda.now < time entry)
    (numbered : stamp entry = agenda.posted.length) :
    (system time stamp).Reachable { agenda with
      waiting := agenda.waiting.orderedInsert
        (fun new old => time new < time old) entry
      posted := agenda.posted ++ [entry] } :=
  reachable.step
    (show (system time stamp).step _ (.post entry) _ from
      ⟨ahead, numbered, rfl⟩)

theorem reachable_serve
    (reachable : (system time stamp).Reachable agenda)
    {entry : Entry} {rest : List Entry}
    (front : agenda.waiting = entry :: rest)
    (reached : time entry ≤ agenda.now) :
    (system time stamp).Reachable { agenda with
      waiting := rest
      served := agenda.served ++ [(entry, agenda.now)] } :=
  reachable.step
    (show (system time stamp).step _ .serve _ from
      ⟨entry, rest, front, reached, rfl⟩)

end

end Agenda

end Foundation
