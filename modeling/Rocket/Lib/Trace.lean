import Mathlib.Data.List.Infix

set_option autoImplicit false

namespace Trace

variable {σ α : Type}

-- A step without a value is a failure of the system, not a blocked action: an
-- action that cannot be taken yet is a step that leaves the state alone.
def run (step : σ → α → Option σ) : σ → List α → Option σ
  | state, [] => some state
  | state, action :: actions =>
      match step state action with
      | none => none
      | some later => run step later actions

def Always (step : σ → α → Option σ) (good : σ → Prop) : σ → List α → Prop
  | state, [] => good state
  | state, action :: actions => good state ∧ ∃ later, step state action = some later ∧ Always step good later actions

def Guarded (step : σ → α → Option σ) (guard : σ → α → Prop) : σ → List α → Prop
  | _, [] => True
  | state, action :: actions =>
      guard state action ∧ ∀ later, step state action = some later → Guarded step guard later actions

variable (step : σ → α → Option σ)

instance alwaysDecidable (good : σ → Prop) [∀ state, Decidable (good state)] :
    (state : σ) → (actions : List α) → Decidable (Always step good state actions)
  | state, [] => inferInstanceAs (Decidable (good state))
  | state, action :: actions =>
      match taken : step state action with
      | none => isFalse (by simp [Always, taken])
      | some later =>
          have := alwaysDecidable good later actions
          decidable_of_iff (good state ∧ Always step good later actions) (by simp [Always, taken])

instance guardedDecidable (guard : σ → α → Prop) [∀ state action, Decidable (guard state action)] :
    (state : σ) → (actions : List α) → Decidable (Guarded step guard state actions)
  | _, [] => isTrue trivial
  | state, action :: actions =>
      match taken : step state action with
      | none => decidable_of_iff (guard state action) (by simp [Guarded, taken])
      | some later =>
          have := guardedDecidable guard later actions
          decidable_of_iff (guard state action ∧ Guarded step guard later actions) (by simp [Guarded, taken])

theorem run_cons (state later : σ) (action : α) (actions : List α) (taken : step state action = some later) :
    run step state (action :: actions) = run step later actions := by
  simp only [run, taken]

theorem run_append (state : σ) (first second : List α) :
    run step state (first ++ second) = (run step state first).bind fun middle => run step middle second := by
  induction first generalizing state with
  | nil => rfl
  | cons action first ih =>
      rw [List.cons_append]
      cases taken : step state action with
      | none => simp only [run, taken, Option.bind_none]
      | some later => simp only [run, taken, ih]

theorem run_keeps (inv : σ → Prop) (keeps : ∀ state action later, inv state → step state action = some later → inv later)
    (state later : σ) (actions : List α) (initial : inv state) (reached : run step state actions = some later) :
    inv later := by
  induction actions generalizing state with
  | nil =>
      cases reached
      exact initial
  | cons action actions ih =>
      cases taken : step state action with
      | none => simp only [run, taken] at reached; cases reached
      | some middle =>
          rw [run_cons step state middle action actions taken] at reached
          exact ih middle (keeps state action middle initial taken) reached

theorem always_iff_prefixes (good : σ → Prop) (state : σ) (actions : List α) :
    Always step good state actions ↔
      ∀ done, done <+: actions → ∃ later, run step state done = some later ∧ good later := by
  induction actions generalizing state with
  | nil => simp [Always, run]
  | cons action actions ih =>
      constructor
      · rintro ⟨here, later, taken, rest⟩ done isPrefix
        cases done with
        | nil => exact ⟨state, rfl, here⟩
        | cons first others =>
            obtain ⟨rfl, shorter⟩ := List.cons_prefix_cons.mp isPrefix
            simpa only [run, taken] using (ih later).mp rest others shorter
      · intro every
        obtain ⟨_, same, here⟩ := every [] List.nil_prefix
        cases same
        obtain ⟨_, first, _⟩ := every [action] ⟨actions, rfl⟩
        cases taken : step state action with
        | none => simp [run, taken] at first
        | some later =>
            refine ⟨here, later, taken, (ih later).mpr ?_⟩
            intro done isPrefix
            simpa only [run, taken] using every (action :: done) (List.cons_prefix_cons.mpr ⟨rfl, isPrefix⟩)

theorem always_run (good : σ → Prop) (state : σ) (actions : List α) (always : Always step good state actions) :
    ∃ later, run step state actions = some later ∧ good later :=
  (always_iff_prefixes step good state actions).mp always actions (List.prefix_refl actions)

theorem always_mono (good better : σ → Prop) (weaker : ∀ state, better state → good state) (state : σ)
    (actions : List α) (always : Always step better state actions) : Always step good state actions := by
  induction actions generalizing state with
  | nil => exact weaker state always
  | cons action actions ih =>
      obtain ⟨here, later, taken, rest⟩ := always
      exact ⟨weaker state here, later, taken, ih later rest⟩

-- The invariant rule. A guarded step from an invariant state succeeds and keeps
-- the invariant, so every state of a guarded run satisfies it.
theorem guarded_always (guard : σ → α → Prop) (inv : σ → Prop)
    (keeps : ∀ state action, inv state → guard state action → ∃ later, step state action = some later ∧ inv later)
    (state : σ) (actions : List α) (initial : inv state) (guarded : Guarded step guard state actions) :
    Always step inv state actions := by
  induction actions generalizing state with
  | nil => exact initial
  | cons action actions ih =>
      obtain ⟨later, taken, kept⟩ := keeps state action initial guarded.1
      exact ⟨initial, later, taken, ih later kept (guarded.2 later taken)⟩

-- The converse: when an unguarded step from an invariant state never reaches a
-- good state, a run of good states is guarded.
theorem always_guarded (guard : σ → α → Prop) (inv good : σ → Prop)
    (keeps : ∀ state action, inv state → guard state action → ∃ later, step state action = some later ∧ inv later)
    (forced : ∀ state action later, inv state → step state action = some later → good later → guard state action)
    (state : σ) (actions : List α) (initial : inv state) (always : Always step good state actions) :
    Guarded step guard state actions := by
  induction actions generalizing state with
  | nil => trivial
  | cons action actions ih =>
      obtain ⟨_, later, taken, rest⟩ := always
      have goodLater : good later := by
        cases actions with
        | nil => exact rest
        | cons _ _ => exact rest.1
      have allowed := forced state action later initial taken goodLater
      refine ⟨allowed, ?_⟩
      intro other takenOther
      obtain ⟨kept, takenKept, invKept⟩ := keeps state action initial allowed
      have same : later = other := Option.some.inj (taken.symm.trans takenOther)
      have sameKept : later = kept := Option.some.inj (taken.symm.trans takenKept)
      subst same
      subst sameKept
      exact ih later invKept rest

theorem always_iff_guarded (guard : σ → α → Prop) (inv good : σ → Prop)
    (implies : ∀ state, inv state → good state)
    (keeps : ∀ state action, inv state → guard state action → ∃ later, step state action = some later ∧ inv later)
    (forced : ∀ state action later, inv state → step state action = some later → good later → guard state action)
    (state : σ) (actions : List α) (initial : inv state) :
    Always step good state actions ↔ Guarded step guard state actions := by
  constructor
  · exact always_guarded step guard inv good keeps forced state actions initial
  · intro guarded
    exact always_mono step good inv implies state actions
      (guarded_always step guard inv keeps state actions initial guarded)

theorem always_iff_decided (guard : σ → α → Prop) (inv good : σ → Prop) (implies : ∀ state, inv state → good state)
    (decided : ∀ state action, inv state → ∃ later, step state action = some later ∧
      (guard state action → inv later) ∧ (good later → guard state action))
    (state : σ) (actions : List α) (initial : inv state) :
    Always step good state actions ↔ Guarded step guard state actions := by
  refine always_iff_guarded step guard inv good implies ?_ ?_ state actions initial
  · intro state action held allowed
    obtain ⟨later, taken, kept, _⟩ := decided state action held
    exact ⟨later, taken, kept allowed⟩
  · intro state action later held taken goodLater
    obtain ⟨other, takenOther, _, forced⟩ := decided state action held
    cases taken.symm.trans takenOther
    exact forced goodLater

-- Forward simulation. The state after each part of a guarded run is related to
-- the state that the specification reaches by the same actions.
theorem guarded_simulates {τ : Type} (spec : τ → α → τ) (rel : σ → τ → Prop) (guard : σ → α → Prop)
    (simulates : ∀ state model action, rel state model → guard state action →
      ∃ later, step state action = some later ∧ rel later (spec model action))
    (state : σ) (model : τ) (actions : List α) (initial : rel state model) (guarded : Guarded step guard state actions)
    (done : List α) (isPrefix : done <+: actions) :
    ∃ later, run step state done = some later ∧ rel later (done.foldl spec model) := by
  induction done generalizing state model actions with
  | nil => exact ⟨state, rfl, initial⟩
  | cons action done ih =>
      cases actions with
      | nil => cases List.prefix_nil.mp isPrefix
      | cons first actions =>
          obtain ⟨rfl, shorter⟩ := List.cons_prefix_cons.mp isPrefix
          obtain ⟨later, taken, related⟩ := simulates state model action initial guarded.1
          simpa only [run, taken, List.foldl_cons] using
            ih later (spec model action) actions related (guarded.2 later taken) shorter

-- The invariant rule for an invariant that speaks of the actions taken so far.
theorem run_history (inv : List α → σ → Prop)
    (keeps : ∀ done state action, inv done state → ∃ later, step state action = some later ∧ inv (done ++ [action]) later)
    (state : σ) (done actions : List α) (initial : inv done state) :
    ∃ last, run step state actions = some last ∧ inv (done ++ actions) last := by
  induction actions generalizing state done with
  | nil => exact ⟨state, rfl, (List.append_nil done).symm ▸ initial⟩
  | cons action actions ih =>
      obtain ⟨later, taken, kept⟩ := keeps done state action initial
      obtain ⟨last, reached, held⟩ := ih later (done ++ [action]) kept
      refine ⟨last, (run_cons step state later action actions taken).trans reached, ?_⟩
      rwa [List.append_assoc] at held

theorem guarded_true (state : σ) (actions : List α) : Guarded step (fun _ _ => True) state actions := by
  induction actions generalizing state with
  | nil => trivial
  | cons action actions ih => exact ⟨trivial, fun later _ => ih later⟩

theorem free_always (inv good : σ → Prop) (implies : ∀ state, inv state → good state)
    (keeps : ∀ state action, inv state → ∃ later, step state action = some later ∧ inv later)
    (state : σ) (actions : List α) (initial : inv state) : Always step good state actions :=
  always_mono step good inv implies state actions
    (guarded_always step (fun _ _ => True) inv (fun state action held _ => keeps state action held) state actions initial
      (guarded_true step state actions))

-- Every step of the run succeeds and does what good says of it.
def Throughout (good : σ → α → σ → Prop) : σ → List α → Prop
  | _, [] => True
  | state, action :: actions =>
      ∃ later, step state action = some later ∧ good state action later ∧ Throughout good later actions

instance throughoutDecidable (good : σ → α → σ → Prop) [∀ state action later, Decidable (good state action later)] :
    (state : σ) → (actions : List α) → Decidable (Throughout step good state actions)
  | _, [] => isTrue trivial
  | state, action :: actions =>
      match taken : step state action with
      | none => isFalse (by simp [Throughout, taken])
      | some later =>
          have := throughoutDecidable good later actions
          decidable_of_iff (good state action later ∧ Throughout step good later actions) (by simp [Throughout, taken])

theorem throughout_mono (good better : σ → α → σ → Prop)
    (weaker : ∀ state action later, better state action later → good state action later) (state : σ) (actions : List α)
    (throughout : Throughout step better state actions) : Throughout step good state actions := by
  induction actions generalizing state with
  | nil => trivial
  | cons action actions ih =>
      obtain ⟨later, taken, here, rest⟩ := throughout
      exact ⟨later, taken, weaker state action later here, ih later rest⟩

theorem guarded_throughout (guard : σ → α → Prop) (inv : σ → Prop) (good : σ → α → σ → Prop)
    (steps : ∀ state action, inv state → guard state action →
      ∃ later, step state action = some later ∧ inv later ∧ good state action later)
    (state : σ) (actions : List α) (initial : inv state) (guarded : Guarded step guard state actions) :
    Throughout step good state actions := by
  induction actions generalizing state with
  | nil => trivial
  | cons action actions ih =>
      obtain ⟨later, taken, kept, here⟩ := steps state action initial guarded.1
      exact ⟨later, taken, here, ih later kept (guarded.2 later taken)⟩

theorem steps_keep (guard : σ → α → Prop) (inv : σ → Prop) (good : σ → α → σ → Prop)
    (steps : ∀ state action, inv state → guard state action →
      ∃ later, step state action = some later ∧ inv later ∧ good state action later)
    (state : σ) (action : α) (held : inv state) (allowed : guard state action) :
    ∃ later, step state action = some later ∧ inv later := by
  obtain ⟨later, taken, kept, _⟩ := steps state action held allowed
  exact ⟨later, taken, kept⟩

theorem guarded_sound (guard : σ → α → Prop) (inv sound : σ → Prop) (good : σ → α → σ → Prop)
    (implies : ∀ state, inv state → sound state)
    (steps : ∀ state action, inv state → guard state action →
      ∃ later, step state action = some later ∧ inv later ∧ good state action later)
    (state : σ) (actions : List α) (initial : inv state) (guarded : Guarded step guard state actions) :
    Always step sound state actions ∧ Throughout step good state actions :=
  ⟨always_mono step sound inv implies state actions
      (guarded_always step guard inv (steps_keep step guard inv good steps) state actions initial guarded),
    guarded_throughout step guard inv good steps state actions initial guarded⟩

theorem free_sound (inv sound : σ → Prop) (good : σ → α → σ → Prop) (implies : ∀ state, inv state → sound state)
    (steps : ∀ state action, inv state → ∃ later, step state action = some later ∧ inv later ∧ good state action later)
    (state : σ) (actions : List α) (initial : inv state) :
    Always step sound state actions ∧ Throughout step good state actions :=
  guarded_sound step (fun _ _ => True) inv sound good implies (fun state action held _ => steps state action held) state
    actions initial (guarded_true step state actions)

theorem throughout_guarded (guard : σ → α → Prop) (inv : σ → Prop) (good : σ → α → σ → Prop)
    (keeps : ∀ state action, inv state → guard state action → ∃ later, step state action = some later ∧ inv later)
    (forced : ∀ state action later, inv state → step state action = some later → good state action later →
      guard state action)
    (state : σ) (actions : List α) (initial : inv state) (throughout : Throughout step good state actions) :
    Guarded step guard state actions := by
  induction actions generalizing state with
  | nil => trivial
  | cons action actions ih =>
      obtain ⟨later, taken, here, rest⟩ := throughout
      have allowed := forced state action later initial taken here
      refine ⟨allowed, ?_⟩
      intro other takenOther
      obtain ⟨kept, takenKept, invKept⟩ := keeps state action initial allowed
      cases taken.symm.trans takenOther
      cases taken.symm.trans takenKept
      exact ih later invKept rest

theorem throughout_iff_decided (guard : σ → α → Prop) (inv : σ → Prop) (good : σ → α → σ → Prop)
    (decided : ∀ state action, inv state → ∃ later, step state action = some later ∧
      (guard state action → inv later ∧ good state action later) ∧ (good state action later → guard state action))
    (state : σ) (actions : List α) (initial : inv state) :
    Throughout step good state actions ↔ Guarded step guard state actions := by
  have steps (state : σ) (action : α) (held : inv state) (allowed : guard state action) :
      ∃ later, step state action = some later ∧ inv later ∧ good state action later := by
    obtain ⟨later, taken, kept, _⟩ := decided state action held
    exact ⟨later, taken, kept allowed⟩
  constructor
  · apply throughout_guarded step guard inv good (steps_keep step guard inv good steps) _ state actions initial
    intro state action later held taken here
    obtain ⟨other, takenOther, _, forced⟩ := decided state action held
    cases taken.symm.trans takenOther
    exact forced here
  · exact guarded_throughout step guard inv good steps state actions initial

theorem throughout_append (good : σ → α → σ → Prop) (state : σ) (first second : List α)
    (throughout : Throughout step good state (first ++ second)) :
    Throughout step good state first ∧ ∃ middle, run step state first = some middle ∧ Throughout step good middle second := by
  induction first generalizing state with
  | nil => exact ⟨trivial, state, rfl, throughout⟩
  | cons action first ih =>
      obtain ⟨later, taken, here, rest⟩ := throughout
      obtain ⟨front, middle, reached, back⟩ := ih later rest
      exact ⟨⟨later, taken, here, front⟩, middle, (run_cons step state later action first taken).trans reached, back⟩

theorem throughout_last (good : σ → α → σ → Prop) (state : σ) (first : List α) (action : α)
    (throughout : Throughout step good state (first ++ [action])) :
    ∃ middle later, run step state first = some middle ∧ run step state (first ++ [action]) = some later ∧
      good middle action later := by
  obtain ⟨_, middle, reached, later, taken, here, _⟩ := throughout_append step good state first [action] throughout
  refine ⟨middle, later, reached, ?_, here⟩
  rw [run_append, reached, Option.bind_some, run_cons step middle later action [] taken, run]

-- When no step changes what is observed of a settled state, nothing that comes
-- after a settled state does.
theorem throughout_frozen {β : Type} (settled : σ → Prop) (observe : σ → β) (state : σ) (actions : List α)
    (throughout : Throughout step (fun state _ later => settled state → settled later ∧ observe later = observe state)
      state actions) :
    ∃ last, run step state actions = some last ∧ (settled state → settled last ∧ observe last = observe state) := by
  induction actions generalizing state with
  | nil => exact ⟨state, rfl, fun done => ⟨done, rfl⟩⟩
  | cons action actions ih =>
      obtain ⟨later, taken, here, rest⟩ := throughout
      obtain ⟨last, reached, kept⟩ := ih later rest
      refine ⟨last, (run_cons step state later action actions taken).trans reached, ?_⟩
      intro done
      obtain ⟨doneLater, sameLater⟩ := here done
      obtain ⟨doneLast, sameLast⟩ := kept doneLater
      exact ⟨doneLast, sameLast.trans sameLater⟩

-- A condition that a step establishes exactly when it held before and the step
-- was guarded holds after a run exactly when the run was guarded.
theorem guarded_iff_settled (guard : σ → α → Prop) (inv settled : σ → Prop)
    (keeps : ∀ state action later, inv state → step state action = some later → inv later)
    (settles : ∀ state action later, inv state → step state action = some later →
      (guard state action ∧ settled state ↔ settled later))
    (state last : σ) (actions : List α) (initial : inv state) (reached : run step state actions = some last) :
    inv last ∧ (Guarded step guard state actions ∧ settled state ↔ settled last) := by
  induction actions generalizing state with
  | nil =>
      cases reached
      exact ⟨initial, and_iff_right trivial⟩
  | cons action actions ih =>
      cases taken : step state action with
      | none => simp [run, taken] at reached
      | some later =>
          rw [run_cons step state later action actions taken] at reached
          obtain ⟨kept, rest⟩ := ih later (keeps state action later initial taken) reached
          have here := settles state action later initial taken
          refine ⟨kept, ?_⟩
          rw [← rest, ← here]
          constructor
          · rintro ⟨⟨allowed, after⟩, held⟩
            exact ⟨after later taken, allowed, held⟩
          · rintro ⟨after, allowed, held⟩
            refine ⟨⟨allowed, ?_⟩, held⟩
            intro other takenOther
            cases taken.symm.trans takenOther
            exact after

end Trace
