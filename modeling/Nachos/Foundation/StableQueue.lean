import Mathlib.Data.List.Find
import Mathlib.Data.List.Sort
import Nachos.Foundation.Refinement

/-!
# Stable priority queues

A queue that is served smallest first, and among the items that are tied in the
order of their arrival.
-/

namespace Foundation

universe u

namespace StableQueue

variable {Item : Type u}

inductive Call (Item : Type u) where
  | insert (item : Item)
  | removeFront
  | remove (item : Item)
  deriving DecidableEq, Repr

def inserted : List (Call Item) → List Item
  | [] => []
  | .insert item :: calls => item :: inserted calls
  | .removeFront :: calls => inserted calls
  | .remove _ :: calls => inserted calls

def removed : List (Call Item) → List (Option Item) → List Item
  | .insert _ :: calls, _ :: answers => removed calls answers
  | .removeFront :: calls, answer :: answers =>
    answer.toList ++ removed calls answers
  | .remove item :: calls, _ :: answers => item :: removed calls answers
  | _, _ => []

section

variable (le : Item → Item → Prop) [DecidableRel le]

/-- The first to arrive among the smallest items. -/
def next (arrivals : List Item) : Option Item :=
  arrivals.find? fun item => decide (∀ other ∈ arrivals, le item other)

def specification [DecidableEq Item] :
    Specification (List Item) (Call Item) (Option Item) where
  Permits arrivals
    | .insert item => item ∉ arrivals
    | .removeFront => arrivals ≠ []
    | .remove item => item ∈ arrivals
  answer arrivals
    | .insert item => (none, arrivals ++ [item])
    | .removeFront =>
      match next le arrivals with
      | none => (none, arrivals)
      | some item => (some item, arrivals.erase item)
    | .remove item => (none, arrivals.erase item)

instance [DecidableEq Item] (arrivals : List Item) (call : Call Item) :
    Decidable ((specification le).Permits arrivals call) :=
  match call with
  | .insert item => inferInstanceAs (Decidable (item ∉ arrivals))
  | .removeFront => inferInstanceAs (Decidable (arrivals ≠ []))
  | .remove item => inferInstanceAs (Decidable (item ∈ arrivals))

def tied (item other : Item) : Bool :=
  decide (le item other ∧ le other item)

/-- The arrivals in order, tied ones in the order of their arrival. -/
structure StablySorted (arrivals waiting : List Item) : Prop where
  perm : waiting.Perm arrivals
  sorted : waiting.Pairwise le
  stable : ∀ item, waiting.filter (tied le item) = arrivals.filter (tied le item)

end

variable {le : Item → Item → Prop} [DecidableRel le]
variable {arrivals waiting : List Item}

theorem answerAll_perm [DecidableEq Item]
    {calls : List (Call Item)}
    (permitted : (specification le).PermitsAll arrivals calls) :
    (((specification le).answerAll arrivals calls).2 ++
        removed calls ((specification le).answerAll arrivals calls).1).Perm
      (arrivals ++ inserted calls) := by
  induction calls generalizing arrivals with
  | nil =>
    exact List.Perm.refl _
  | cons call calls ih =>
    obtain ⟨first, later⟩ := permitted
    have rest := ih later
    rw [Specification.answerAll_cons]
    cases call with
    | insert item =>
      rw [inserted, List.append_cons]
      exact rest
    | removeFront =>
      rw [inserted]
      cases found : next le arrivals with
      | none =>
        simp only [specification, found] at rest ⊢
        exact rest
      | some item =>
        have present : item ∈ arrivals := List.mem_of_find?_eq_some found
        simp only [specification, found] at rest ⊢
        refine List.perm_middle.trans ((rest.cons item).trans ?_)
        exact (List.perm_cons_erase present).symm.append_right _
    | remove item =>
      rw [inserted]
      refine List.perm_middle.trans ((rest.cons item).trans ?_)
      exact (List.perm_cons_erase first).symm.append_right _

theorem stablySorted_nil : StablySorted le [] [] :=
  ⟨List.Perm.refl _, List.Pairwise.nil, fun _ => rfl⟩

namespace StablySorted

theorem erase [DecidableEq Item]
    (stably : StablySorted le arrivals waiting) (nodup : waiting.Nodup)
    (item : Item) :
    StablySorted le (arrivals.erase item) (waiting.erase item) := by
  refine ⟨stably.perm.erase item, stably.sorted.sublist List.erase_sublist, ?_⟩
  intro other
  rw [nodup.erase_eq_filter, (stably.perm.nodup_iff.mp nodup).erase_eq_filter,
    List.filter_filter, List.filter_filter]
  simp only [Bool.and_comm (tied le other _)]
  rw [← List.filter_filter, ← List.filter_filter, stably.stable]

section

variable [Std.Total le] [IsTrans Item le]

omit [DecidableRel le] [IsTrans Item le] in
theorem le_of_front
    {front : Item} {rest : List Item}
    (sorted : (front :: rest).Pairwise le) :
    ∀ other ∈ front :: rest, le front other := by
  intro other member
  rcases List.mem_cons.mp member with rfl | inRest
  · exact (Std.Total.total other other).elim id id
  · exact (List.pairwise_cons.mp sorted).1 other inRest

variable {before : Item → Item → Prop} [DecidableRel before]

omit [DecidableRel le] in
theorem pairwise_orderedInsert
    (isBefore : ∀ new old, before new old ↔ ¬ le old new)
    (sorted : waiting.Pairwise le) (item : Item) :
    (waiting.orderedInsert before item).Pairwise le := by
  induction waiting with
  | nil =>
    exact List.pairwise_singleton _ _
  | cons front rest ih =>
    obtain ⟨least, restSorted⟩ := List.pairwise_cons.mp sorted
    rw [List.orderedInsert_cons]
    split_ifs with earlier
    · have smaller : le item front :=
        (Std.Total.total item front).resolve_right
          ((isBefore item front).mp earlier)
      refine List.pairwise_cons.mpr ⟨?_, sorted⟩
      intro other member
      exact IsTrans.trans _ _ _ smaller (le_of_front sorted other member)
    · rw [isBefore, not_not] at earlier
      refine List.pairwise_cons.mpr ⟨?_, ih restSorted⟩
      intro other member
      rcases (List.mem_orderedInsert _).mp member with rfl | inRest
      · exact earlier
      · exact least other inRest

theorem filter_orderedInsert
    (isBefore : ∀ new old, before new old ↔ ¬ le old new)
    (sorted : waiting.Pairwise le) (item other : Item) :
    (waiting.orderedInsert before item).filter (tied le other) =
      (waiting ++ [item]).filter (tied le other) := by
  induction waiting with
  | nil =>
    rfl
  | cons front rest ih =>
    rw [List.orderedInsert_cons]
    split_ifs with earlier
    · by_cases isTied : tied le other item = true
      · have apart : (front :: rest).filter (tied le other) = [] := by
          rw [List.filter_eq_nil_iff]
          intro held member heldTied
          have itemTied := of_decide_eq_true isTied
          have heldTied := of_decide_eq_true heldTied
          have smaller : le front item :=
            IsTrans.trans _ _ _ (le_of_front sorted held member)
              (IsTrans.trans _ _ _ heldTied.2 itemTied.1)
          exact (isBefore item front).mp earlier smaller
        rw [List.filter_cons_of_pos isTied, List.filter_append, apart,
          List.filter_cons_of_pos isTied]
        rfl
      · rw [List.filter_cons_of_neg isTied, List.filter_append,
          List.filter_cons_of_neg isTied, List.filter_nil, List.append_nil]
    · have rest := ih (List.pairwise_cons.mp sorted).2
      rw [List.cons_append, List.filter_cons, List.filter_cons, rest]

theorem insert
    (isBefore : ∀ new old, before new old ↔ ¬ le old new)
    (stably : StablySorted le arrivals waiting) (item : Item) :
    StablySorted le (arrivals ++ [item])
      (waiting.orderedInsert before item) := by
  refine ⟨?_, pairwise_orderedInsert isBefore stably.sorted item, ?_⟩
  · exact (List.perm_orderedInsert before item waiting).trans
      ((stably.perm.cons item).trans (List.perm_append_singleton _ _).symm)
  · intro other
    rw [filter_orderedInsert isBefore stably.sorted, List.filter_append,
      List.filter_append, stably.stable]

theorem next_eq
    {front : Item} {rest : List Item}
    (stably : StablySorted le arrivals (front :: rest)) :
    next le arrivals = some front := by
  have least : ∀ other ∈ arrivals, le front other := by
    intro other member
    exact le_of_front stably.sorted other (stably.perm.mem_iff.mpr member)
  have present : front ∈ arrivals := stably.perm.mem_iff.mp List.mem_cons_self
  have frontTied : tied le front front = true :=
    decide_eq_true ⟨least front present, least front present⟩
  -- the smallest items are those that are tied with the front
  have smallest : ∀ item ∈ arrivals,
      decide (∀ other ∈ arrivals, le item other) = tied le front item := by
    intro item member
    apply decide_eq_decide.mpr
    constructor
    · intro isLeast
      exact ⟨least item member, isLeast front present⟩
    · rintro ⟨_, smaller⟩ other inside
      exact IsTrans.trans _ _ _ smaller (least other inside)
  calc
    next le arrivals = arrivals.find? (tied le front) :=
      List.find?_congr smallest
    _ = (arrivals.filter (tied le front)).head? :=
      List.head?_filter.symm
    _ = ((front :: rest).filter (tied le front)).head? := by
      rw [stably.stable]
    _ = some front := by
      rw [List.filter_cons_of_pos frontTied, List.head?_cons]

end

end StablySorted

end StableQueue

end Foundation
