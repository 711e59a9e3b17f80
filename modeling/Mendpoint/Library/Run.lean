import Mathlib.Data.List.Basic
import Mathlib.Logic.Relation

/-!
# Runs of a deterministic step

A run applies a step to a state for each input in turn.  `Along` says that
every step of a run meets a condition on the state before it and its input;
`Throughout` says that every state after a step has a property.  The rules
derive facts about runs from facts about one step.
-/

namespace Mendpoint.Library.Run

universe u v

variable {σ : Type u} {α : Type v}

/-- The state after the inputs of a list. -/
def run (step : σ → α → σ) (state : σ) (inputs : List α) : σ :=
  inputs.foldl step state

/-- Every step of a run meets a condition. -/
def Along (step : σ → α → σ) (condition : σ → α → Prop) :
    σ → List α → Prop
  | _, [] => True
  | state, input :: rest =>
    condition state input ∧ Along step condition (step state input) rest

/-- Every state reached by a step of a run has a property. -/
def Throughout (step : σ → α → σ) (property : σ → Prop) :
    σ → List α → Prop
  | _, [] => True
  | state, input :: rest =>
    property (step state input) ∧
      Throughout step property (step state input) rest

@[simp]
theorem run_nil (step : σ → α → σ) (state : σ) :
    run step state [] = state := rfl

@[simp]
theorem run_cons (step : σ → α → σ) (state : σ) (input : α)
    (rest : List α) :
    run step state (input :: rest) = run step (step state input) rest :=
  rfl

theorem run_append (step : σ → α → σ) (state : σ)
    (first second : List α) :
    run step state (first ++ second) =
      run step (run step state first) second :=
  List.foldl_append

variable {step : σ → α → σ} {condition : σ → α → Prop} {state : σ}

theorem along_append {first second : List α} :
    Along step condition state (first ++ second) ↔
      Along step condition state first ∧
        Along step condition (run step state first) second := by
  induction first generalizing state with
  | nil => exact ⟨fun along => ⟨trivial, along⟩, fun both => both.2⟩
  | cons input rest inductionHypothesis =>
    rw [List.cons_append, Along, Along, inductionHypothesis, and_assoc,
      run_cons]

theorem along_of_forall_mem {condition : α → Prop} {inputs : List α}
    (all : ∀ input ∈ inputs, condition input) (state : σ) :
    Along step (fun _ input => condition input) state inputs := by
  induction inputs generalizing state with
  | nil => trivial
  | cons input rest inductionHypothesis =>
    exact ⟨all input List.mem_cons_self, inductionHypothesis
      (fun other member => all other (List.mem_cons_of_mem _ member)) _⟩

theorem run_invariant {step : σ → α → σ} {property : σ → Prop}
    (preserved : ∀ state input, property state →
      property (step state input))
    {state : σ} (initially : property state) (inputs : List α) :
    property (run step state inputs) := by
  induction inputs generalizing state with
  | nil => exact initially
  | cons input rest inductionHypothesis =>
    exact inductionHypothesis (preserved state input initially)

theorem run_along_invariant
    {step : σ → α → σ} {condition : σ → α → Prop} {property : σ → Prop}
    (preserved : ∀ state input, property state → condition state input →
      property (step state input))
    {state : σ} (initially : property state) {inputs : List α}
    (along : Along step condition state inputs) :
    property (run step state inputs) := by
  induction inputs generalizing state with
  | nil => exact initially
  | cons input rest inductionHypothesis =>
    exact inductionHypothesis (preserved state input initially along.1)
      along.2

theorem along_of_invariant {conclusion : σ → α → Prop} {property : σ → Prop}
    (preserved : ∀ state input, property state → condition state input →
      property (step state input))
    (implied : ∀ state input, property state → condition state input →
      conclusion state input) (initially : property state) {inputs : List α}
    (along : Along step condition state inputs) :
    Along step conclusion state inputs := by
  induction inputs generalizing state with
  | nil => trivial
  | cons input rest inductionHypothesis =>
    exact ⟨implied state input initially along.1,
      inductionHypothesis (preserved state input initially along.1)
        along.2⟩

/--
If, from states with a property, one step reaches a good state exactly when it
meets a condition, then a run stays good exactly when all its steps meet it.
-/
theorem throughout_iff_along {good property : σ → Prop}
    (weaken : ∀ state input, property state → good (step state input) →
      property (step state input))
    (exactly : ∀ state input, property state → (good (step state input) ↔
      condition state input)) (initially : property state) (inputs : List α) :
    Throughout step good state inputs ↔ Along step condition state inputs := by
  induction inputs generalizing state with
  | nil => exact Iff.rfl
  | cons input rest inductionHypothesis =>
    rw [Throughout, Along, ← exactly state input initially]
    refine and_congr_right fun reached => ?_
    exact inductionHypothesis (weaken state input initially reached)

/--
If, from states with a property, one step is good exactly when it meets a
condition, and a good step keeps the property, then all steps of a run are good
exactly when all of them meet the condition.
-/
theorem along_iff_along
    {step : σ → α → σ} {good condition : σ → α → Prop} {property : σ → Prop}
    (preserved : ∀ state input, property state → good state input →
      property (step state input))
    (exactly : ∀ state input, property state →
      (good state input ↔ condition state input))
    {state : σ} (initially : property state) (inputs : List α) :
    Along step good state inputs ↔ Along step condition state inputs := by
  induction inputs generalizing state with
  | nil => exact Iff.rfl
  | cons input rest inductionHypothesis =>
    rw [Along, Along, ← exactly state input initially]
    refine and_congr_right fun kept => ?_
    exact inductionHypothesis (preserved state input initially kept)

end Mendpoint.Library.Run

/-!
## Runs of a step relation

What every reachable state has, when runs are finite, and where they end.
-/

namespace Mendpoint.Library.Transition

universe u

variable {σ : Type u} {step : σ → σ → Prop} {start : σ}

open Relation

theorem invariant_of_reachable {property : σ → Prop}
    (preserved : ∀ state next, property state → step state next →
      property next)
    (initially : property start) {state : σ}
    (reached : ReflTransGen step start state) : property state := by
  induction reached with
  | refl => exact initially
  | tail _ last inductionHypothesis =>
    exact preserved _ _ inductionHypothesis last

theorem acc_of_bounded (property : σ → Prop) (work : σ → Nat) (bound : Nat)
    (preserved : ∀ state next, property state → step state next →
      property next)
    (grows : ∀ state next, property state → step state next →
      work state < work next)
    (bounded : ∀ state, property state → work state ≤ bound)
    (initially : property start) : Acc (flip step) start := by
  have fromLeft : ∀ left state, property state → bound - work state ≤ left →
      Acc (flip step) state := by
    intro left
    induction left with
    | zero =>
      intro state holds few
      constructor
      intro next stepped
      have more := grows state next holds stepped
      have most := bounded next (preserved state next holds stepped)
      omega
    | succ left inductionHypothesis =>
      intro state holds few
      constructor
      intro next stepped
      have more := grows state next holds stepped
      have most := bounded next (preserved state next holds stepped)
      apply inductionHypothesis next (preserved state next holds stepped)
      omega
  exact fromLeft _ start initially (Nat.le_refl _)

theorem exists_end (finite : Acc (flip step) start) :
    ∃ state, ReflTransGen step start state ∧ ∀ next, ¬ step state next := by
  induction finite with
  | intro state _ inductionHypothesis =>
    by_cases goesOn : ∃ next, step state next
    · rcases goesOn with ⟨next, stepped⟩
      rcases inductionHypothesis next stepped with ⟨last, reached, ended⟩
      exact ⟨last, .head stepped reached, ended⟩
    · exact ⟨state, .refl, fun next stepped => goesOn ⟨next, stepped⟩⟩

end Mendpoint.Library.Transition
