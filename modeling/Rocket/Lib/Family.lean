import Mathlib.Logic.Function.Basic
import Rocket.Lib.Trace

set_option autoImplicit false

namespace Family

open Trace

variable {ι σ α : Type} [DecidableEq ι] (step : σ → α → Option σ)

-- A system of parties that do not touch each other. An action names the party
-- that takes it.
def each (states : ι → σ) (action : ι × α) : Option (ι → σ) :=
  (step (states action.1) action.2).map (Function.update states action.1)

def EachGuard (guard : σ → α → Prop) (states : ι → σ) (action : ι × α) : Prop :=
  guard (states action.1) action.2

instance (guard : σ → α → Prop) [∀ state action, Decidable (guard state action)] (states : ι → σ) (action : ι × α) :
    Decidable (EachGuard guard states action) :=
  inferInstanceAs (Decidable (guard (states action.1) action.2))

structure EachGood (good : σ → α → σ → Prop) (states : ι → σ) (action : ι × α) (later : ι → σ) : Prop where
  party : good (states action.1) action.2 (later action.1)
  others : ∀ other, other ≠ action.1 → later other = states other

def EachInv (inv : σ → Prop) (states : ι → σ) : Prop := ∀ party, inv (states party)

theorem each_some (states later : ι → σ) (action : ι × α) :
    each step states action = some later ↔
      step (states action.1) action.2 = some (later action.1) ∧ ∀ other, other ≠ action.1 → later other = states other := by
  rw [each, Option.map_eq_some_iff]
  constructor
  · rintro ⟨next, taken, rfl⟩
    refine ⟨by rw [taken, Function.update_self], ?_⟩
    intro other different
    exact Function.update_of_ne different _ _
  · rintro ⟨taken, others⟩
    exact ⟨later action.1, taken, Function.update_eq_iff.mpr ⟨rfl, fun other different => (others other different).symm⟩⟩

theorem each_keeps (guard : σ → α → Prop) (inv : σ → Prop)
    (keeps : ∀ state action, inv state → guard state action → ∃ later, step state action = some later ∧ inv later)
    (states : ι → σ) (action : ι × α) (holds : EachInv inv states) (allowed : EachGuard guard states action) :
    ∃ later, each step states action = some later ∧ EachInv inv later := by
  obtain ⟨next, taken, kept⟩ := keeps (states action.1) action.2 (holds action.1) allowed
  refine ⟨Function.update states action.1 next, by rw [each, taken, Option.map_some], ?_⟩
  intro party
  by_cases same : party = action.1
  · rw [same, Function.update_self]
    exact kept
  · rw [Function.update_of_ne same]
    exact holds party

theorem each_guarded_throughout (guard : σ → α → Prop) (inv : σ → Prop) (good : σ → α → σ → Prop)
    (steps : ∀ state action, inv state → guard state action →
      ∃ later, step state action = some later ∧ inv later ∧ good state action later)
    (states : ι → σ) (actions : List (ι × α)) (initial : EachInv inv states)
    (guarded : Guarded (each step) (EachGuard guard) states actions) :
    Throughout (each step) (EachGood good) states actions := by
  refine guarded_throughout (each step) (EachGuard guard) (EachInv inv) (EachGood good) ?_ states actions initial guarded
  intro states action holds allowed
  obtain ⟨later, taken, kept⟩ := each_keeps step guard inv (steps_keep step guard inv good steps) states action holds allowed
  obtain ⟨moved, others⟩ := (each_some step states later action).mp taken
  obtain ⟨next, takenNext, _, does⟩ := steps (states action.1) action.2 (holds action.1) allowed
  cases moved.symm.trans takenNext
  exact ⟨later, taken, kept, does, others⟩

theorem each_throughout_guarded (guard : σ → α → Prop) (inv : σ → Prop) (good : σ → α → σ → Prop)
    (keeps : ∀ state action, inv state → guard state action → ∃ later, step state action = some later ∧ inv later)
    (forced : ∀ state action later, inv state → step state action = some later → good state action later → guard state action)
    (states : ι → σ) (actions : List (ι × α)) (initial : EachInv inv states)
    (throughout : Throughout (each step) (EachGood good) states actions) :
    Guarded (each step) (EachGuard guard) states actions := by
  refine throughout_guarded (each step) (EachGuard guard) (EachInv inv) (EachGood good)
    (each_keeps step guard inv keeps) ?_ states actions initial throughout
  intro states action later holds taken here
  exact forced _ _ _ (holds action.1) ((each_some step states later action).mp taken).1 here.party

-- Different parties that take the same action one after another.
theorem each_run_once (action : α) (next : ι → σ) (parties : List ι) (once : parties.Nodup) (states : ι → σ)
    (moves : ∀ party ∈ parties, step (states party) action = some (next party)) :
    ∃ later, run (each step) states (parties.map fun party => (party, action)) = some later ∧
      (∀ party ∈ parties, later party = next party) ∧ ∀ party, party ∉ parties → later party = states party := by
  induction parties generalizing states with
  | nil =>
      refine ⟨states, rfl, ?_, fun _ _ => rfl⟩
      intro party member
      cases member
  | cons first rest ih =>
      obtain ⟨fresh, rest_once⟩ := List.nodup_cons.mp once
      have different : ∀ party ∈ rest, party ≠ first := fun party member same => fresh (same ▸ member)
      obtain ⟨later, reached, moved, others⟩ := ih rest_once (Function.update states first (next first)) (by
        intro party member
        rw [Function.update_of_ne (different party member)]
        exact moves party (List.mem_cons_of_mem first member))
      have taken : each step states (first, action) = some (Function.update states first (next first)) := by
        rw [each, moves first List.mem_cons_self, Option.map_some]
      refine ⟨later, (run_cons _ _ _ _ _ taken).trans reached, ?_, ?_⟩
      · intro party member
        rcases List.mem_cons.mp member with rfl | old
        · rw [others party fresh, Function.update_self]
        · exact moved party old
      · intro party outside
        obtain ⟨notFirst, notRest⟩ := not_or.mp (fun either => outside (List.mem_cons.mpr either))
        rw [others party notRest, Function.update_of_ne notFirst]

end Family
