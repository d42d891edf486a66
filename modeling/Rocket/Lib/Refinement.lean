import Mathlib.Logic.Relation
import Rocket.Lib.Trace

set_option autoImplicit false

namespace Trace

open Relation

variable {σ α τ : Type} (step : σ → α → Option σ)

-- Refinement. The specification answers a guarded step with any number of its
-- own steps, none among them, so a whole run is answered by a run of its own.
theorem guarded_refines (spec : τ → τ → Prop) (rel : σ → τ → Prop) (guard : σ → α → Prop)
    (simulates : ∀ state model action, rel state model → guard state action →
      ∃ later answer, step state action = some later ∧ ReflTransGen spec model answer ∧ rel later answer)
    (state : σ) (model : τ) (actions : List α) (initial : rel state model) (guarded : Guarded step guard state actions) :
    ∃ last answer, run step state actions = some last ∧ ReflTransGen spec model answer ∧ rel last answer := by
  induction actions generalizing state model with
  | nil => exact ⟨state, model, rfl, .refl, initial⟩
  | cons action actions ih =>
      obtain ⟨later, answer, taken, answered, related⟩ := simulates state model action initial guarded.1
      obtain ⟨last, final, reached, rest, relatedLast⟩ := ih later answer related (guarded.2 later taken)
      exact ⟨last, final, (run_cons step state later action actions taken).trans reached, answered.trans rest, relatedLast⟩

end Trace
