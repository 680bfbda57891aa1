import Mathlib.Data.List.Basic

/-!
# Labelled transition systems
-/

namespace Foundation

universe u v w x

structure TransitionSystem (State : Type u) (Label : Type v) where
  start : State → Prop
  step : State → Label → State → Prop

namespace TransitionSystem

variable {State : Type u} {Label : Type v}
variable {Target : Type w} {TargetLabel : Type x}

/-- `Run system source labels target` performs `labels`, oldest first. -/
inductive Run (system : TransitionSystem State Label) :
    State → List Label → State → Prop
  | nil (state : State) : Run system state [] state
  | snoc {source middle target : State}
      {labels : List Label} {label : Label} :
      Run system source labels middle →
      system.step middle label target →
      Run system source (labels ++ [label]) target

inductive Reachable (system : TransitionSystem State Label) :
    State → Prop
  | start {state : State} : system.start state → Reachable system state
  | step {source target : State} {label : Label} :
      Reachable system source →
      system.step source label target →
      Reachable system target

/-- `Trail system source steps target` performs `steps`, oldest first, each
with the state it starts from and the state it ends in. -/
inductive Trail (system : TransitionSystem State Label) :
    State → List (State × Label × State) → State → Prop
  | nil (state : State) : Trail system state [] state
  | snoc {source middle target : State}
      {steps : List (State × Label × State)} {label : Label} :
      Trail system source steps middle →
      system.step middle label target →
      Trail system source (steps ++ [(middle, label, target)]) target

variable {system : TransitionSystem State Label}

/-- A predicate that holds at the start and survives every step taken from a
state where it holds is true of every reachable state. -/
theorem Reachable.invariant
    {holds : State → Prop}
    (initially : ∀ state, system.start state → holds state)
    (preserved :
      ∀ source label target,
        holds source → system.step source label target → holds target)
    {state : State} (reachable : system.Reachable state) :
    holds state := by
  induction reachable with
  | start starting =>
    exact initially _ starting
  | step _ taken ih =>
    exact preserved _ _ _ ih taken

theorem Run.cons
    {source middle target : State} {label : Label} {labels : List Label}
    (taken : system.step source label middle)
    (run : system.Run middle labels target) :
    system.Run source (label :: labels) target := by
  induction run with
  | nil =>
    exact Run.snoc (Run.nil source) taken
  | snoc _ last ih =>
    exact Run.snoc ih last

theorem Run.reachable
    {source target : State} {labels : List Label}
    (run : system.Run source labels target)
    (reachable : system.Reachable source) :
    system.Reachable target := by
  induction run with
  | nil =>
    exact reachable
  | snoc _ taken ih =>
    exact Reachable.step ih taken

theorem Reachable.exists_run
    {state : State} (reachable : system.Reachable state) :
    ∃ source labels, system.start source ∧ system.Run source labels state := by
  induction reachable with
  | start starting =>
    exact ⟨_, [], starting, Run.nil _⟩
  | step _ taken ih =>
    obtain ⟨source, labels, starting, run⟩ := ih
    exact ⟨source, _, starting, Run.snoc run taken⟩

theorem Trail.reachable
    {source target : State} {steps : List (State × Label × State)}
    (trail : system.Trail source steps target)
    (reachable : system.Reachable source) :
    system.Reachable target := by
  induction trail with
  | nil =>
    exact reachable
  | snoc _ taken ih =>
    exact Reachable.step ih taken

/-- If a step from a good state leads to a good state exactly when it is
permitted, then a trail visits good states only exactly when all its steps are
permitted. -/
theorem Trail.good_iff_permitted
    {good : State → Prop} {permitted : State → Label → Prop}
    (decides :
      ∀ source label target,
        system.Reachable source → good source →
        system.step source label target →
        (good target ↔ permitted source label))
    {source target : State} {steps : List (State × Label × State)}
    (trail : system.Trail source steps target)
    (starting : system.start source) (initially : good source) :
    ((∀ step ∈ steps, good step.2.2) ↔
        ∀ step ∈ steps, permitted step.1 step.2.1) ∧
      ((∀ step ∈ steps, good step.2.2) → good target) := by
  induction trail with
  | nil =>
    simp [initially]
  | snoc earlier taken ih =>
    obtain ⟨same, reaches⟩ := ih
    have reachable := earlier.reachable (.start starting)
    simp only [List.forall_mem_append, List.forall_mem_singleton]
    refine ⟨⟨?_, ?_⟩, fun allGood => allGood.2⟩
    · rintro ⟨earlierGood, targetGood⟩
      exact ⟨same.mp earlierGood,
        (decides _ _ _ reachable (reaches earlierGood) taken).mp targetGood⟩
    · rintro ⟨earlierPermitted, lastPermitted⟩
      have earlierGood := same.mpr earlierPermitted
      exact ⟨earlierGood,
        (decides _ _ _ reachable (reaches earlierGood) taken).mpr
          lastPermitted⟩

/-- `view` maps every step of `system` to a step of `target` or to no step
at all. -/
structure Projection
    (system : TransitionSystem State Label)
    (target : TransitionSystem Target TargetLabel)
    (view : State → Target) : Prop where
  start : ∀ state, system.start state → target.start (view state)
  step :
    ∀ source label next,
      system.Reachable source →
      system.step source label next →
      view next = view source ∨
        ∃ targetLabel, target.step (view source) targetLabel (view next)

/-- Reachability transfers along a projection, so every invariant of the
target system is an invariant of the projected system. -/
theorem Projection.reachable
    {target : TransitionSystem Target TargetLabel}
    {view : State → Target}
    (projection : Projection system target view)
    {state : State} (reachable : system.Reachable state) :
    target.Reachable (view state) := by
  induction reachable with
  | start starting =>
    exact Reachable.start (projection.start _ starting)
  | step earlier taken ih =>
    rcases projection.step _ _ _ earlier taken with same | ⟨_, moved⟩
    · rw [same]
      exact ih
    · exact Reachable.step ih moved

end TransitionSystem

end Foundation
