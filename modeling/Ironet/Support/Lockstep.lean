import Mathlib.Tactic

/-!
# Machines that answer, and two of them in lockstep

A machine answers every input and moves on. `lockstep` compares two machines that are fed the same
inputs: a relation between their states that every step keeps, and that relates the answers of a
step, relates the answers of whole runs.
-/
namespace Support

universe u v w

variable {σ τ : Type u} {ι : Type v} {α β : Type w}

/-- The answers to the inputs in their order, and the state after them. -/
def respondAll (step : σ → ι → α × σ) : σ → List ι → List α × σ
  | state, [] => ([], state)
  | state, input :: rest =>
    ((step state input).1 :: (respondAll step (step state input).2 rest).1,
      (respondAll step (step state input).2 rest).2)

@[simp] theorem respondAll_nil (step : σ → ι → α × σ) (state : σ) :
    respondAll step state [] = ([], state) := rfl

theorem respondAll_invariant {step : σ → ι → α × σ} (holds : σ → Prop) (good : α → Prop)
    (keeps : ∀ state input, holds state → holds (step state input).2)
    (answers : ∀ state input, holds state → good (step state input).1)
    {state : σ} (initially : holds state) (inputs : List ι) :
    holds (respondAll step state inputs).2 ∧ ∀ answer ∈ (respondAll step state inputs).1,
      good answer := by
  induction inputs generalizing state with
  | nil => exact ⟨initially, by simp⟩
  | cons input rest ih =>
    obtain ⟨atEnd, later⟩ := ih (keeps state input initially)
    exact ⟨atEnd, List.forall_mem_cons.mpr ⟨answers state input initially, later⟩⟩

/-- A relation that common steps keep relates the runs, and the answers along them. -/
theorem lockstep {step : σ → ι → α × σ} {other : τ → ι → β × τ} (related : σ → τ → Prop)
    (alike : α → β → Prop) (keeps : ∀ left right input, related left right →
      related (step left input).2 (other right input).2)
    (answers : ∀ left right input, related left right →
      alike (step left input).1 (other right input).1)
    {left : σ} {right : τ} (initially : related left right) (inputs : List ι) :
    related (respondAll step left inputs).2 (respondAll other right inputs).2 ∧
      List.Forall₂ alike (respondAll step left inputs).1 (respondAll other right inputs).1 := by
  induction inputs generalizing left right with
  | nil => exact ⟨initially, .nil⟩
  | cons input rest ih =>
    obtain ⟨atEnd, later⟩ := ih (keeps left right input initially)
    exact ⟨atEnd, .cons (answers left right input initially) later⟩

end Support
