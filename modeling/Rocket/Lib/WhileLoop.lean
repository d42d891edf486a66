import Mathlib.Data.List.Basic

set_option autoImplicit false

namespace WhileLoop

inductive Flow (σ ρ : Type) where
  | next (state : σ)
  | stop (result : ρ)
deriving DecidableEq, Repr

variable {σ ρ ι : Type}

-- Each turn of the loop may consume one answer of the environment. A turn
-- without a value is undefined; answers left over after the exit are unused.
def run (turn : σ → ι → Option (Flow σ ρ)) : σ → List ι → Option (Flow σ ρ)
  | state, [] => some (.next state)
  | state, answer :: answers =>
      match turn state answer with
      | none => none
      | some (.stop result) => some (.stop result)
      | some (.next later) => run turn later answers

theorem run_stop (turn : σ → ι → Option (Flow σ ρ)) (state : σ) (answer : ι) (answers : List ι) (result : ρ)
    (exit : turn state answer = some (.stop result)) :
    run turn state (answer :: answers) = some (.stop result) := by
  simp only [run, exit]

theorem run_next (turn : σ → ι → Option (Flow σ ρ)) (state later : σ) (answer : ι) (answers : List ι)
    (goesOn : turn state answer = some (.next later)) :
    run turn state (answer :: answers) = run turn later answers := by
  simp only [run, goesOn]

-- The loop under an endless supply of answers, when this many turns are over.
def after (turn : σ → ι → Option (Flow σ ρ)) (answers : Nat → ι) (state : σ) (count : Nat) : Option (Flow σ ρ) :=
  run turn state ((List.range count).map answers)

section Answers

variable (turn : σ → ι → Option (Flow σ ρ))

theorem run_append (state : σ) (first second : List ι) : run turn state (first ++ second) =
    match run turn state first with
    | some (.next middle) => run turn middle second
    | ended => ended := by
  induction first generalizing state with
  | nil => rfl
  | cons answer first ih =>
      rw [List.cons_append]
      cases taken : turn state answer with
      | none => simp only [run, taken]
      | some flow =>
          cases flow with
          | stop result => simp only [run, taken]
          | next middle => rw [run_next turn state middle answer _ taken, run_next turn state middle answer _ taken, ih]

theorem after_succ (answers : Nat → ι) (state : σ) (count : Nat) : after turn answers state (count + 1) =
    match after turn answers state count with
    | some (.next middle) => turn middle (answers count)
    | ended => ended := by
  rw [after, List.range_succ, List.map_append, run_append, ← after]
  cases reached : after turn answers state count with
  | none => rfl
  | some flow =>
      cases flow with
      | stop result => rfl
      | next middle =>
          simp only [List.map_cons, List.map_nil, run]
          cases taken : turn middle (answers count) with
          | none => rfl
          | some last => cases last <;> rfl

theorem after_next (answers : Nat → ι) (state middle : σ) (count : Nat)
    (reached : after turn answers state count = some (.next middle)) :
    after turn answers state (count + 1) = turn middle (answers count) := by
  rw [after_succ, reached]

theorem after_goes_on (answers : Nat → ι) (state later : σ) (count : Nat)
    (reached : after turn answers state (count + 1) = some (.next later)) :
    ∃ middle, after turn answers state count = some (.next middle) ∧ turn middle (answers count) = some (.next later) := by
  rw [after_succ] at reached
  cases earlier : after turn answers state count with
  | none => simp only [earlier] at reached; cases reached
  | some flow =>
      cases flow with
      | stop result => simp only [earlier] at reached; cases reached
      | next middle => exact ⟨middle, rfl, by simpa only [earlier] using reached⟩

-- The head of the loop is reached again exactly while all answers pass.
theorem after_passes (passes : ι → Prop) (inv : σ → Prop)
    (onward : ∀ state answer, inv state → passes answer → ∃ later, turn state answer = some (.next later) ∧ inv later)
    (answers : Nat → ι) (state : σ) (initial : inv state) (count : Nat)
    (all : ∀ index, index < count → passes (answers index)) :
    ∃ later, after turn answers state count = some (.next later) ∧ inv later := by
  induction count with
  | zero => exact ⟨state, rfl, initial⟩
  | succ count ih =>
      obtain ⟨middle, reached, kept⟩ := ih fun index before => all index (Nat.lt_succ_of_lt before)
      obtain ⟨later, taken, laterKept⟩ := onward middle (answers count) kept (all count (Nat.lt_succ_self count))
      exact ⟨later, (after_next turn answers state middle count reached).trans taken, laterKept⟩

theorem after_passed (passes : ι → Prop) (inv : σ → Prop)
    (onward : ∀ state answer, inv state → passes answer → ∃ later, turn state answer = some (.next later) ∧ inv later)
    (leaves : ∀ state answer later, inv state → turn state answer = some (.next later) → passes answer)
    (answers : Nat → ι) (state later : σ) (initial : inv state) (count : Nat)
    (reached : after turn answers state count = some (.next later)) :
    inv later ∧ ∀ index, index < count → passes (answers index) := by
  induction count generalizing later with
  | zero =>
      cases reached
      exact ⟨initial, fun index before => absurd before (Nat.not_lt_zero index)⟩
  | succ count ih =>
      obtain ⟨middle, earlier, taken⟩ := after_goes_on turn answers state later count reached
      obtain ⟨kept, all⟩ := ih middle earlier
      have passed := leaves middle (answers count) later kept taken
      obtain ⟨same, again, laterKept⟩ := onward middle (answers count) kept passed
      rw [taken] at again
      cases again
      refine ⟨laterKept, ?_⟩
      intro index before
      rcases Nat.lt_succ_iff_lt_or_eq.mp before with earlierIndex | last
      · exact all index earlierIndex
      · exact last ▸ passed

end Answers

section Closed

variable (turn : σ → Option (Flow σ ρ))

def turns (count : Nat) (state : σ) : Option (Flow σ ρ) :=
  run (fun current (_ : Unit) => turn current) state (List.replicate count ())

def Returns (state : σ) (result : ρ) : Prop := ∃ count, turns turn count state = some (.stop result)

theorem turns_succ (count : Nat) (state later : σ) (goesOn : turn state = some (.next later)) :
    turns turn (count + 1) state = turns turn count later :=
  run_next _ state later () _ goesOn

theorem turns_stop (count : Nat) (state : σ) (result : ρ) (exit : turn state = some (.stop result)) :
    turns turn (count + 1) state = some (.stop result) :=
  run_stop _ state () _ result exit

theorem returns_stop (state : σ) (result : ρ) (exit : turn state = some (.stop result)) :
    Returns turn state result :=
  ⟨1, turns_stop turn 0 state result exit⟩

theorem returns_next (state later : σ) (result : ρ) (goesOn : turn state = some (.next later))
    (rest : Returns turn later result) : Returns turn state result := by
  obtain ⟨count, ended⟩ := rest
  exact ⟨count + 1, (turns_succ turn count state later goesOn).trans ended⟩

theorem turns_next (count : Nat) (state later : σ) (turned : turns turn (count + 1) state = some (.next later)) :
    ∃ middle, turn state = some (.next middle) ∧ turns turn count middle = some (.next later) := by
  cases taken : turn state with
  | none => simp [turns, run, List.replicate_succ, taken] at turned
  | some flow =>
      cases flow with
      | stop result =>
          rw [turns_stop turn count state result taken] at turned
          cases turned
      | next middle =>
          rw [turns_succ turn count state middle taken] at turned
          exact ⟨middle, rfl, turned⟩

-- The states at the head of the loop.
def Reaches (state later : σ) : Prop := ∃ count, turns turn count state = some (.next later)

-- Only finitely many turns start. A turn without a value is the last of which
-- anything can be said.
def Ends (state : σ) : Prop := ∃ count, ∀ later, turns turn count state ≠ some (.next later)

theorem reaches_refl (state : σ) : Reaches turn state state := ⟨0, rfl⟩

theorem reaches_next (state middle later : σ) (goesOn : turn state = some (.next middle))
    (rest : Reaches turn middle later) : Reaches turn state later := by
  obtain ⟨count, turned⟩ := rest
  exact ⟨count + 1, (turns_succ turn count state middle goesOn).trans turned⟩

theorem reaches_cases (state later : σ) (reached : Reaches turn state later) :
    later = state ∨ ∃ middle, turn state = some (.next middle) ∧ Reaches turn middle later := by
  obtain ⟨count, turned⟩ := reached
  cases count with
  | zero =>
      cases turned
      exact Or.inl rfl
  | succ count =>
      obtain ⟨middle, goesOn, rest⟩ := turns_next turn count state later turned
      exact Or.inr ⟨middle, goesOn, count, rest⟩

theorem reaches_returns (state later : σ) (result : ρ) (reached : Reaches turn state later)
    (returned : Returns turn later result) : Returns turn state result := by
  obtain ⟨count, turned⟩ := reached
  induction count generalizing state with
  | zero =>
      cases turned
      exact returned
  | succ count ih =>
      obtain ⟨middle, goesOn, rest⟩ := turns_next turn count state later turned
      exact returns_next turn state middle result goesOn (ih middle rest)

theorem reaches_inv (inv : σ → Prop) (keeps : ∀ state later, inv state → turn state = some (.next later) → inv later)
    (state later : σ) (initial : inv state) (reached : Reaches turn state later) : inv later := by
  obtain ⟨count, turned⟩ := reached
  induction count generalizing state with
  | zero =>
      cases turned
      exact initial
  | succ count ih =>
      obtain ⟨middle, goesOn, rest⟩ := turns_next turn count state later turned
      exact ih middle (keeps state middle initial goesOn) rest

theorem ends_of_measure (measure : σ → Nat) (inv : σ → Prop)
    (decreases : ∀ state later, inv state → turn state = some (.next later) → inv later ∧ measure later < measure state)
    (state : σ) (initial : inv state) : Ends turn state := by
  obtain ⟨bound, small⟩ : ∃ bound, measure state < bound := ⟨measure state + 1, Nat.lt_succ_self _⟩
  refine ⟨bound, ?_⟩
  induction bound generalizing state with
  | zero => exact absurd small (Nat.not_lt_zero _)
  | succ bound ih =>
      intro later turned
      obtain ⟨middle, goesOn, rest⟩ := turns_next turn bound state later turned
      obtain ⟨kept, less⟩ := decreases state middle initial goesOn
      exact ih middle kept (by omega) later rest

theorem ends_returns (state : σ) (ended : Ends turn state) (defined : ∀ later, Reaches turn state later → turn later ≠ none) :
    ∃ result, Returns turn state result := by
  obtain ⟨count, ended⟩ := ended
  induction count generalizing state with
  | zero => exact absurd rfl (ended state)
  | succ count ih =>
      cases taken : turn state with
      | none => exact absurd taken (defined state (reaches_refl turn state))
      | some flow =>
          cases flow with
          | stop result => exact ⟨result, returns_stop turn state result taken⟩
          | next middle =>
              have rest (later : σ) (reached : Reaches turn middle later) : turn later ≠ none :=
                defined later (reaches_next turn state middle later taken reached)
              obtain ⟨result, returned⟩ := ih middle rest (fun later turned =>
                ended later ((turns_succ turn count state middle taken).trans turned))
              exact ⟨result, returns_next turn state middle result taken returned⟩

theorem repeating_never_ends (state : σ) (again : turn state = some (.next state)) : ¬ Ends turn state := by
  have forever (count : Nat) : turns turn count state = some (.next state) := by
    induction count with
    | zero => rfl
    | succ count ih => exact (turns_succ turn count state state again).trans ih
  rintro ⟨count, ended⟩
  exact ended state (forever count)

end Closed

end WhileLoop
