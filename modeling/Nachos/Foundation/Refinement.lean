import Mathlib.Data.List.Basic

/-!
# Objects that refine a specification

An object answers calls one after the other, and code that answers a call may
fail.  A specification says which calls are permitted and what they are
answered.
-/

namespace Foundation

universe u v w x

structure Specification (State : Type u) (Call : Type v) (Answer : Type w) where
  Permits : State → Call → Prop
  answer : State → Call → Answer × State

def performAll {Object : Type u} {Call : Type v} {Answer : Type u}
    {Error : Type x}
    (perform : Object → Call → Except Error (Answer × Object)) :
    Object → List Call → Except Error (List Answer × Object)
  | object, [] => .ok ([], object)
  | object, call :: calls => do
    let (answer, next) ← perform object call
    let (answers, last) ← performAll perform next calls
    return (answer :: answers, last)

namespace Specification

variable {State : Type u} {Call : Type v} {Answer : Type w}

def answerAll (specification : Specification State Call Answer) :
    State → List Call → List Answer × State
  | state, [] => ([], state)
  | state, call :: calls =>
    let (answer, next) := specification.answer state call
    let (answers, last) := specification.answerAll next calls
    (answer :: answers, last)

def PermitsAll (specification : Specification State Call Answer) :
    State → List Call → Prop
  | _, [] => True
  | state, call :: calls =>
    specification.Permits state call ∧
      specification.PermitsAll (specification.answer state call).2 calls

variable {specification : Specification State Call Answer}

instance decidablePermitsAll
    [∀ state call, Decidable (specification.Permits state call)] :
    ∀ state calls, Decidable (specification.PermitsAll state calls)
  | _, [] => inferInstanceAs (Decidable True)
  | state, call :: calls =>
    have := decidablePermitsAll (specification.answer state call).2 calls
    inferInstanceAs (Decidable (_ ∧ _))

theorem answerAll_cons (state : State) (call : Call) (calls : List Call) :
    specification.answerAll state (call :: calls) =
      ((specification.answer state call).1 ::
          (specification.answerAll (specification.answer state call).2 calls).1,
        (specification.answerAll (specification.answer state call).2 calls).2) :=
  rfl

end Specification

/-- Every permitted call on an object that represents a state is answered as
the specification answers it, and the object then represents the state after. -/
def Implements {State : Type v} {Call : Type w} {Answer Object : Type u}
    {Error : Type x}
    (perform : Object → Call → Except Error (Answer × Object))
    (specification : Specification State Call Answer)
    (represents : Object → State → Prop) : Prop :=
  ∀ object state call,
    represents object state → specification.Permits state call →
    ∃ next,
      perform object call = .ok ((specification.answer state call).1, next) ∧
        represents next (specification.answer state call).2

/-- Every permitted sequence of calls is answered as the specification answers
it. -/
theorem Implements.performAll_eq
    {State : Type v} {Call : Type w} {Answer Object : Type u} {Error : Type x}
    {perform : Object → Call → Except Error (Answer × Object)}
    {specification : Specification State Call Answer}
    {represents : Object → State → Prop}
    (implements : Implements perform specification represents)
    {object : Object} {state : State} {calls : List Call}
    (initially : represents object state)
    (permitted : specification.PermitsAll state calls) :
    ∃ last,
      performAll perform object calls =
          .ok ((specification.answerAll state calls).1, last) ∧
        represents last (specification.answerAll state calls).2 := by
  induction calls generalizing object state with
  | nil =>
    exact ⟨object, rfl, initially⟩
  | cons call calls ih =>
    obtain ⟨first, later⟩ := permitted
    obtain ⟨next, answered, represented⟩ :=
      implements object state call initially first
    obtain ⟨last, answeredLater, representedLast⟩ := ih represented later
    refine ⟨last, ?_, representedLast⟩
    rw [performAll, answered]
    change (performAll perform next calls >>= _) = _
    rw [answeredLater]
    rfl

end Foundation
