import Nachos.Foundation.Transitions

/-!
# Computations in lockstep

Two computations that may fail are in lockstep if they fail for the same reason,
or give results that are related.  The relation is carried through a sequence of
steps, also if the environment changes both states between the steps, each in
its own way.
-/

namespace Foundation

universe u

variable {ε ι : Type u} {α β γ δ : Type u}

/-- The same failure, or related results. -/
inductive Lockstep (related : α → β → Prop) : Except ε α → Except ε β → Prop
  | ok {left : α} {right : β} :
      related left right → Lockstep related (.ok left) (.ok right)
  | error (reason : ε) : Lockstep related (.error reason) (.error reason)

namespace Lockstep

variable {related : α → β → Prop} {first : Except ε α} {second : Except ε β}

theorem same (result : Except ε α) : Lockstep Eq result result := by
  cases result with
  | error reason => exact .error reason
  | ok value => exact .ok rfl

theorem bind
    {others : γ → δ → Prop} {left : α → Except ε γ} {right : β → Except ε δ}
    (earlier : Lockstep related first second)
    (later : ∀ a b, related a b → Lockstep others (left a) (right b)) :
    Lockstep others (first >>= left) (second >>= right) := by
  cases earlier with
  | ok isRelated => exact later _ _ isRelated
  | error reason => exact .error reason

theorem mono
    {weaker : α → β → Prop} (lockstep : Lockstep related first second)
    (implied : ∀ left right, related left right → weaker left right) :
    Lockstep weaker first second := by
  cases lockstep with
  | ok isRelated => exact .ok (implied _ _ isRelated)
  | error reason => exact .error reason

theorem results (lockstep : Lockstep related first second) :
    Lockstep (fun left right =>
      related left right ∧ first = .ok left ∧ second = .ok right) first
        second := by
  cases lockstep with
  | ok isRelated => exact .ok ⟨isRelated, rfl, rfl⟩
  | error reason => exact .error reason

end Lockstep

/-! ## Runs -/

/-- A run of `step` over its inputs, with a change by the environment after each
step, and how it ends: a step fails, or the inputs are used up. -/
inductive Interleaved (step : ι → α → Except ε α) (between : α → α → Prop) :
    List ι → α → Except ε α → Prop
  | done (state : α) : Interleaved step between [] state (.ok state)
  | stopped {input : ι} (inputs : List ι) {state : α} {reason : ε} :
      step input state = .error reason →
      Interleaved step between (input :: inputs) state (.error reason)
  | next {input : ι} {inputs : List ι} {state middle after : α}
      {result : Except ε α} :
      step input state = .ok middle → between middle after →
      Interleaved step between inputs after result →
      Interleaved step between (input :: inputs) state result

namespace Interleaved

variable {step : ι → α → Except ε α} {between : α → α → Prop}
  {related : α → α → Prop} {inputs : List ι} {left right : α}
  {leftResult rightResult : Except ε α}

/-- A relation that the steps keep, and that the environment keeps on either
side, holds to the end. -/
theorem lockstep
    (steps : ∀ input left right, related left right →
      Lockstep related (step input left) (step input right))
    (onLeft : ∀ left next right, related left right → between left next →
      related next right)
    (onRight : ∀ left right next, related left right → between right next →
      related left next)
    (isRelated : related left right)
    (first : Interleaved step between inputs left leftResult)
    (second : Interleaved step between inputs right rightResult) :
    Lockstep related leftResult rightResult := by
  -- The same input is next on both sides, so both steps fail or neither does.
  induction first generalizing right with
  | done state =>
    cases second with
    | done other => exact .ok isRelated
  | @stopped input _ _ _ failed =>
    have together := steps input _ _ isRelated
    rw [failed] at together
    cases second with
    | stopped _ otherFailed =>
      rw [otherFailed] at together
      cases together
      exact .error _
    | next taken _ _ =>
      rw [taken] at together
      cases together
  | @next input _ _ _ _ _ taken changed _ ih =>
    have together := steps input _ _ isRelated
    rw [taken] at together
    cases second with
    | stopped _ otherFailed =>
      rw [otherFailed] at together
      cases together
    | next otherTaken otherChanged rest =>
      rw [otherTaken] at together
      cases together with
      | ok middles =>
        have changedLeft := onLeft _ _ _ middles changed
        exact ih (onRight _ _ _ changedLeft otherChanged) rest

theorem invariant (holds : α → Prop) {last : α}
    (steps : ∀ input state next, holds state → step input state = .ok next →
      holds next)
    (changes : ∀ state next, holds state → between state next → holds next)
    (start : holds left)
    (run : Interleaved step between inputs left leftResult)
    (ended : leftResult = .ok last) : holds last := by
  induction run with
  | done state =>
    cases ended
    exact start
  | stopped _ _ => cases ended
  | next taken changed _ ih =>
    exact ih (changes _ _ (steps _ _ _ start taken) changed) ended

end Interleaved

end Foundation
