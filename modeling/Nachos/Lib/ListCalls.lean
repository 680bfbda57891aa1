import Nachos.Foundation.Refinement
import Nachos.Lib.ListElements

/-!
# `List` as a list
-/

namespace Nachos

open Foundation

inductive ListCall (Item : Type) where
  | append (item : Item)
  | prepend (item : Item)
  | removeFront
  | remove (item : Item)
  deriving DecidableEq, Repr

namespace LinkedList

variable {Item : Type}

/-! ## What the pointers lead to -/

/-- The pointer that `steps` times `pointer->next` leads to. -/
def follow (list : LinkedList Item) : Nat → Option Nat → Option Nat
  | 0, pointer => pointer
  | steps + 1, pointer =>
    list.follow steps ((pointer.bind list.elements).bind Node.next)

def itemsFrom (list : LinkedList Item) : Nat → Option Nat → List Item
  | 0, _ => []
  | count + 1, pointer =>
    match pointer.bind list.elements with
    | none => []
    | some element => element.item :: list.itemsFrom count element.next

/-- `first`, `last`, `next` and `numInList` agree. -/
structure WellLinked (list : LinkedList Item) : Prop where
  reachesLast :
    0 < list.numInList →
      list.follow (list.numInList.toNat - 1) list.first = list.last
  endsAtLast :
    0 < list.numInList → ∃ item, list.element list.last = .ok ⟨item, none⟩
  first_eq_none : list.first = none ↔ list.numInList = 0
  last_eq_none : list.last = none ↔ list.numInList = 0

variable {list : LinkedList Item} {path : List (Nat × Item)} {items : List Item}

theorem follow_of_linked
    {entry : Nat × Item} {pointer : Option Nat}
    (linked : Linked list.elements pointer (entry :: path) none) :
    list.follow path.length pointer =
      ((entry :: path).map Prod.fst).getLast? := by
  induction path generalizing entry pointer with
  | nil =>
    exact linked.1
  | cons entry' path ih =>
    obtain ⟨rfl, next, stored, linkedRest⟩ := linked
    rw [List.length_cons, follow, Option.bind_some, stored, Option.bind_some,
      ih linkedRest]
    exact List.getLast?_cons_cons.symm

theorem itemsFrom_of_linked
    {pointer stop : Option Nat}
    (linked : Linked list.elements pointer path stop) :
    list.itemsFrom path.length pointer = path.map Prod.snd := by
  induction path generalizing pointer with
  | nil =>
    rfl
  | cons entry path ih =>
    obtain ⟨rfl, next, stored, linkedRest⟩ := linked
    rw [List.length_cons, itemsFrom, Option.bind_some, stored, List.map_cons]
    exact congrArg _ (ih linkedRest)

theorem Holds.itemsFrom_eq (holds : list.Holds items) :
    list.itemsFrom list.numInList.toNat list.first = items := by
  obtain ⟨path, threads, rfl⟩ := holds
  rw [threads.counted, Int.toNat_natCast]
  exact itemsFrom_of_linked threads.linked

theorem Holds.wellLinked (holds : list.Holds items) : list.WellLinked := by
  obtain ⟨path, threads, rfl⟩ := holds
  cases path with
  | nil =>
    have isFirst : list.first = none := threads.linked
    have isLast : list.last = none := threads.isLast
    have nothing : list.numInList = 0 := threads.counted
    refine ⟨?_, ?_, iff_of_true isFirst nothing, iff_of_true isLast nothing⟩
    · omega
    · omega
  | cons entry path =>
    have isFirst : list.first = some entry.1 := threads.linked.1
    have counted : list.numInList = (path.length + 1 : Nat) := threads.counted
    obtain ⟨item, isElement⟩ := threads.element_last (by simp)
    refine ⟨?_, fun _ => ⟨item, isElement⟩, ?_, ?_⟩
    · intro _
      rw [counted, Int.toNat_natCast, Nat.add_sub_cancel, threads.isLast]
      exact follow_of_linked threads.linked
    · exact iff_of_false (by rw [isFirst]; simp) (by omega)
    · exact iff_of_false (by rw [threads.isLast]; simp) (by omega)

/-! ## Sequences of calls -/

variable [DecidableEq Item]

/-- What a `List` is for.  `RemoveFront` alone returns an item. -/
def specification : Specification (List Item) (ListCall Item) (Option Item) where
  Permits items
    | .append item => item ∉ items
    | .prepend item => item ∉ items
    | .removeFront => items ≠ []
    | .remove item => item ∈ items
  answer items
    | .append item => (none, items ++ [item])
    | .prepend item => (none, item :: items)
    | .removeFront => (items.head?, items.tail)
    | .remove item => (none, items.erase item)

instance (items : List Item) (call : ListCall Item) :
    Decidable (specification.Permits items call) :=
  match call with
  | .append item => inferInstanceAs (Decidable (item ∉ items))
  | .prepend item => inferInstanceAs (Decidable (item ∉ items))
  | .removeFront => inferInstanceAs (Decidable (items ≠ []))
  | .remove item => inferInstanceAs (Decidable (item ∈ items))

def perform (list : LinkedList Item) :
    ListCall Item → Except Fault (Option Item × LinkedList Item)
  | .append item => do return (none, ← list.append item)
  | .prepend item => do return (none, ← list.prepend item)
  | .removeFront => do
    let (item, list) ← list.removeFront
    return (some item, list)
  | .remove item => do return (none, ← list.remove item)

/-- Every call on the linked elements does what it does to the Lean list. -/
theorem perform_implements :
    Implements (@perform Item _) specification Holds := by
  intro list items call holds permitted
  cases call with
  | append item =>
    obtain ⟨longer, isLonger, held⟩ := holds.append_eq permitted
    refine ⟨longer, ?_, held⟩
    rw [perform, isLonger]
    rfl
  | prepend item =>
    obtain ⟨longer, isLonger, held⟩ := holds.prepend_eq permitted
    refine ⟨longer, ?_, held⟩
    rw [perform, isLonger]
    rfl
  | removeFront =>
    obtain ⟨front, rest, rfl⟩ := List.exists_cons_of_ne_nil permitted
    obtain ⟨shorter, isShorter, held⟩ := holds.removeFront_eq
    refine ⟨shorter, ?_, held⟩
    rw [perform, isShorter]
    rfl
  | remove item =>
    obtain ⟨shorter, isShorter, held⟩ := holds.remove_eq permitted
    refine ⟨shorter, ?_, held⟩
    rw [perform, isShorter]
    rfl

/-- Every sequence of calls returns, without a failed `ASSERT`, what the same
operations on Lean lists return.  The elements are then well linked, and
following `next` meets the items of the Lean list. -/
theorem calls_wellLinked
    (calls : List (ListCall Item))
    (permitted : specification.PermitsAll [] calls) :
    ∃ list : LinkedList Item,
      performAll perform new calls =
          .ok ((specification.answerAll [] calls).1, list) ∧
        list.WellLinked ∧
        list.sanityCheck = .ok () ∧
        list.numInList = (specification.answerAll [] calls).2.length ∧
        list.itemsFrom list.numInList.toNat list.first =
          (specification.answerAll [] calls).2 := by
  obtain ⟨list, answered, holds⟩ :=
    perform_implements.performAll_eq holds_new permitted
  exact ⟨list, answered, holds.wellLinked, holds.sanityCheck_eq,
    holds.numInList, holds.itemsFrom_eq⟩

/-- The last, the first and the only item are taken out. -/
theorem calls_wellLinked_both_ends :
    ∃ list : LinkedList Nat,
      performAll perform new
          [.append 1, .prepend 2, .append 3, .remove 3, .removeFront,
            .remove 1, .append 4] =
          .ok ([none, none, none, none, some 2, none, none], list) ∧
        list.WellLinked ∧
        list.sanityCheck = .ok () ∧
        list.numInList = 1 ∧
        list.itemsFrom list.numInList.toNat list.first = [4] :=
  calls_wellLinked _ (by decide)

end LinkedList

end Nachos
