import Rocket.Lib.Trace

set_option autoImplicit false

namespace Settling

open Trace

-- A party that waits for another one is blocked until that one has moved.
inductive Turn (σ : Type) where
  | blocked
  | crashed
  | moved (later : σ)

def Turn.taken {σ : Type} : Turn σ → Option σ
  | .moved later => some later
  | _ => none

def Turn.map {σ τ : Type} (f : σ → τ) : Turn σ → Turn τ
  | .blocked => .blocked
  | .crashed => .crashed
  | .moved later => .moved (f later)

variable {σ ι : Type} (turn : σ → ι → Turn σ)

-- The scheduler picks a party that can move, again and again.
def scheduled (state : σ) (parties : List ι) : Option σ := run (fun state party => (turn state party).taken) state parties

def AllBlocked (state : σ) : Prop := ∀ party, turn state party = .blocked

-- Whatever the scheduler does, it ends, and where it ends is a goal.
structure SettlesIn (safe goal : σ → Prop) (bound : Nat) (state : σ) : Prop where
  safe : ∀ parties later, scheduled turn state parties = some later →
    safe later ∧ ∀ party, turn later party ≠ .crashed
  bounded : ∀ parties later, scheduled turn state parties = some later → parties.length ≤ bound
  finishes : ∀ parties later, scheduled turn state parties = some later →
    ∃ more last, scheduled turn later more = some last ∧ AllBlocked turn last
  ends : ∀ parties last, scheduled turn state parties = some last → AllBlocked turn last → goal last

variable (inv : σ → Prop) (measure : σ → Nat)
  (keeps : ∀ state party, inv state →
    turn state party = .blocked ∨ ∃ later, turn state party = .moved later ∧ inv later ∧ measure later < measure state)

include keeps

theorem taken_keeps (state later : σ) (party : ι) (held : inv state) (taken : (turn state party).taken = some later) :
    inv later ∧ measure later < measure state := by
  rcases keeps state party held with blocked | ⟨next, moved, kept, less⟩
  · rw [blocked] at taken
    cases taken
  · rw [moved] at taken
    cases taken
    exact ⟨kept, less⟩

theorem scheduled_keeps (state later : σ) (parties : List ι) (held : inv state)
    (reached : scheduled turn state parties = some later) : inv later ∧ measure later + parties.length ≤ measure state := by
  induction parties generalizing state with
  | nil =>
      cases reached
      exact ⟨held, Nat.le_refl _⟩
  | cons party parties ih =>
      cases taken : (turn state party).taken with
      | none => simp [scheduled, run, taken] at reached
      | some next =>
          obtain ⟨kept, less⟩ := taken_keeps turn inv measure keeps state next party held taken
          rw [scheduled, run_cons _ state next party parties taken] at reached
          obtain ⟨last, shorter⟩ := ih next kept reached
          refine ⟨last, ?_⟩
          rw [List.length_cons]
          omega

-- Every move makes the measure smaller, so a state that is not stuck is left
-- behind and the schedule comes to an end.
theorem settles_stuck (state : σ) (held : inv state) :
    ∃ more last, scheduled turn state more = some last ∧ AllBlocked turn last := by
  by_cases stuck : AllBlocked turn state
  · exact ⟨[], state, rfl, stuck⟩
  · obtain ⟨party, free⟩ := not_forall.mp stuck
    obtain ⟨later, moved, kept, less⟩ := (keeps state party held).resolve_left free
    obtain ⟨more, last, reached, stuckLast⟩ := settles_stuck later kept
    refine ⟨party :: more, last, ?_, stuckLast⟩
    rw [scheduled, run_cons _ state later party more (by rw [moved]; rfl)]
    exact reached
termination_by measure state

theorem settles (safe goal : σ → Prop) (sound : ∀ state, inv state → safe state)
    (ends : ∀ state, inv state → AllBlocked turn state → goal state) (state : σ) (held : inv state) :
    SettlesIn turn safe goal (measure state) state where
  safe := by
    intro parties later reached
    obtain ⟨kept, _⟩ := scheduled_keeps turn inv measure keeps state later parties held reached
    refine ⟨sound later kept, ?_⟩
    intro party crashed
    rcases keeps later party kept with blocked | ⟨next, moved, _⟩
    · cases crashed.symm.trans blocked
    · cases crashed.symm.trans moved
  bounded := by
    intro parties later reached
    have := (scheduled_keeps turn inv measure keeps state later parties held reached).2
    omega
  finishes := by
    intro parties later reached
    exact settles_stuck turn inv measure keeps later
      (scheduled_keeps turn inv measure keeps state later parties held reached).1
  ends := by
    intro parties last reached stuck
    exact ends last (scheduled_keeps turn inv measure keeps state last parties held reached).1 stuck

end Settling
