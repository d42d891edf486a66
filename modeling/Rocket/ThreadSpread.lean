import Mathlib.Data.List.Chain
import Mathlib.Tactic.Linarith
import Rocket.AcceptFailure

set_option autoImplicit false

namespace Rocket

open Word32 Trace

-- That many calls of getIOthread in a row, with the index each returned.
def AcceptState.getIOthreads (state : AcceptState) : Nat → Option (AcceptState × List Nat)
  | 0 => some (state, [])
  | calls + 1 => do
      let (chosen, thread) ← state.getIOthread
      let (last, threads) ← chosen.getIOthreads calls
      some (last, thread :: threads)

-- The thread that an action gives a new connection to.
def AcceptState.chosenThread (state : AcceptState) : AcceptAction → List Nat
  | .onAccept result =>
      if state.accept result ∈ state.server.openFds.map Int.ofNat then []
      else (state.getIOthread.map Prod.snd).toList
  | _ => []

def connectionThreads (state : AcceptState) : List AcceptAction → Option (AcceptState × List Nat)
  | [] => some (state, [])
  | action :: actions => do
      let later ← acceptStep state action
      let (last, threads) ← connectionThreads later actions
      some (last, state.chosenThread action ++ threads)

structure EvenShares (size : Nat) (threads : List Nat) : Prop where
  inside : ∀ thread ∈ threads, thread < size
  shares : ∀ thread < size, threads.count thread = threads.length / size ∨
    threads.count thread = (threads.length + size - 1) / size

def Consecutive (size : Nat) (threads : List Nat) : Prop := threads.IsChain fun thread next => next = (thread + 1) % size

structure SpreadsOut (isInet : Bool) (size calls : Nat) : Prop where
  chosen : ∃ last threads, (newAcceptState isInet size).getIOthreads calls = some (last, threads) ∧
    threads.length = calls ∧ EvenShares size threads
  accepted : ∀ actions last threads, connectionThreads (newAcceptState isInet size) actions = some (last, threads) →
    threads.length = calls → Consecutive size threads

-- The index leaves -1 with the first call and stays where it is.
structure IndexStuck (size : Nat) (state : AcceptState) : Prop where
  index : state.threadIndex = -1 ∨ state.threadIndex = 0
  loops : state.ioLoops.length = size

theorem get_io_thread_first (state : AcceptState) (size : Nat) (stuck : IndexStuck size state) (positive : 0 < size) :
    state.getIOthread = some ({ state with threadIndex := 0 }, 0) := by
  have next : state.nextIndex = 0 := by
    rw [AcceptState.nextIndex]
    rcases stuck.index with fresh | started
    · rw [if_pos (Or.inr fresh)]
    · rw [started, ite_self]
  rw [AcceptState.getIOthread, next]
  exact if_pos (by rw [stuck.loops]; exact positive)

theorem get_io_threads_first (state : AcceptState) (size calls : Nat) (stuck : IndexStuck size state) (positive : 0 < size) :
    ∃ last, state.getIOthreads calls = some (last, List.replicate calls 0) := by
  induction calls generalizing state with
  | zero => exact ⟨state, rfl⟩
  | succ calls ih =>
      obtain ⟨last, rest⟩ := ih { state with threadIndex := 0 } ⟨Or.inr rfl, stuck.loops⟩
      refine ⟨last, ?_⟩
      simp only [AcceptState.getIOthreads, get_io_thread_first state size stuck positive, rest, Option.bind_eq_bind,
        Option.bind_some, List.replicate_succ]

theorem insert_connection_stuck (state later : AcceptState) (size thread : Nat) (clientFd : Int)
    (stuck : IndexStuck size state) (returned : insertConnection state thread clientFd = .returned later) :
    IndexStuck size later := by
  rw [insertConnection] at returned
  split at returned
  · cases returned
  · cases returned
    refine ⟨stuck.index, ?_⟩
    rw [List.length_modify]
    exact stuck.loops

theorem accept_step_stuck (state later : AcceptState) (size : Nat) (action : AcceptAction) (stuck : IndexStuck size state)
    (positive : 0 < size) (taken : acceptStep state action = some later) : IndexStuck size later := by
  cases action with
  | onAccept result =>
      simp only [acceptStep] at taken
      split at taken
      · cases taken
        exact stuck
      · split at taken
        · next middle returned =>
            cases taken
            let counted := { state with server := { state.server with clientCounts := state.server.clientCounts + 1 } }
            have first := get_io_thread_first counted size ⟨stuck.index, stuck.loops⟩ positive
            rw [on_accept_chosen state { counted with threadIndex := 0 } result 0 first] at returned
            exact insert_connection_stuck { counted with threadIndex := 0 } _ size 0 _ ⟨Or.inr rfl, stuck.loops⟩ returned
        · cases taken
  | call index call =>
      obtain ⟨server, _, rfl⟩ := Option.map_eq_some_iff.mp taken
      exact ⟨stuck.index, stuck.loops⟩
  | clearClientTimer =>
      cases taken
      exact ⟨stuck.index, stuck.loops⟩
  | getFdEvent fd =>
      obtain ⟨found, _, rfl⟩ := Option.map_eq_some_iff.mp taken
      exact ⟨stuck.index, stuck.loops⟩

theorem connection_threads_first (state last : AcceptState) (size : Nat) (actions : List AcceptAction) (threads : List Nat)
    (stuck : IndexStuck size state) (positive : 0 < size) (reached : connectionThreads state actions = some (last, threads)) :
    ∀ thread ∈ threads, thread = 0 := by
  induction actions generalizing state threads with
  | nil =>
      cases reached
      exact fun thread member => absurd member List.not_mem_nil
  | cons action actions ih =>
      simp only [connectionThreads, Option.bind_eq_bind, Option.bind_eq_some_iff] at reached
      obtain ⟨later, taken, ⟨end_, rest⟩, behind, same⟩ := reached
      cases same
      have others := ih later rest (accept_step_stuck state later size action stuck positive taken) behind
      intro thread member
      rcases List.mem_append.mp member with here | further
      · cases action with
        | onAccept result =>
            simp only [AcceptState.chosenThread, get_io_thread_first state size stuck positive] at here
            split at here
            · cases here
            · simpa using here
        | call index call => cases here
        | clearClientTimer => cases here
        | getFdEvent fd => cases here
      · exact others thread further

theorem first_thread_shares_iff (size calls : Nat) (positive : 0 < size) :
    EvenShares size (List.replicate calls 0) ↔ size = 1 ∨ calls ≤ 1 := by
  constructor
  · intro even
    by_contra uneven
    obtain ⟨several, more⟩ : 2 ≤ size ∧ 2 ≤ calls := by omega
    have first := even.shares 0 positive
    rw [List.count_replicate_self, List.length_replicate] at first
    rcases first with floor | ceiling
    · have less := Nat.div_lt_self (show 0 < calls by omega) several
      omega
    · have less : (calls + size - 1) / size < calls := by
        rw [Nat.div_lt_iff_lt_mul positive]
        have product : 2 * size + 2 * calls ≤ calls * size + 4 := by nlinarith
        omega
      omega
  · intro few
    refine ⟨fun thread member => by rw [List.eq_of_mem_replicate member]; exact positive, ?_⟩
    intro thread inside
    rw [List.length_replicate]
    rcases few with rfl | once
    · obtain rfl : thread = 0 := by omega
      exact Or.inl (by rw [List.count_replicate_self, Nat.div_one])
    · obtain rfl | rfl := Nat.le_one_iff_eq_zero_or_eq_one.mp once
      · exact Or.inl (by rw [Nat.zero_div]; rfl)
      · by_cases first : thread = 0
        · refine Or.inr ?_
          rw [first, List.count_replicate_self, Nat.add_sub_cancel_left, Nat.div_self positive]
        · refine Or.inl ?_
          rw [Nat.div_eq_of_lt (by omega), List.count_eq_zero]
          simpa using first

theorem first_thread_consecutive (size : Nat) (threads : List Nat) (first : ∀ thread ∈ threads, thread = 0)
    (few : size = 1 ∨ threads.length ≤ 1) : Consecutive size threads := by
  have same : threads = List.replicate threads.length 0 := List.eq_replicate_iff.mpr ⟨rfl, first⟩
  rw [same, Consecutive]
  rcases few with rfl | once
  · exact List.isChain_replicate_of_rel _ rfl
  · obtain none | one := Nat.le_one_iff_eq_zero_or_eq_one.mp once
    · rw [none]
      exact List.isChain_nil
    · rw [one]
      exact List.isChain_singleton 0

theorem new_index_stuck (isInet : Bool) (size : Nat) : IndexStuck size (newAcceptState isInet size) :=
  ⟨Or.inl rfl, List.length_replicate⟩

theorem spreads_out_iff (isInet : Bool) (size calls : Nat) (positive : 0 < size) :
    (∃ last threads, (newAcceptState isInet size).getIOthreads calls = some (last, threads) ∧
        ∀ thread ∈ threads, thread < size) ∧
      (SpreadsOut isInet size calls ↔ size = 1 ∨ calls ≤ 1) := by
  have stuck := new_index_stuck isInet size
  obtain ⟨last, chosen⟩ := get_io_threads_first (newAcceptState isInet size) size calls stuck positive
  refine ⟨⟨last, _, chosen, fun thread member => by rw [List.eq_of_mem_replicate member]; exact positive⟩, ?_⟩
  constructor
  · intro spreads
    obtain ⟨other, threads, chosenToo, _, even⟩ := spreads.chosen
    cases chosen.symm.trans chosenToo
    exact (first_thread_shares_iff size calls positive).mp even
  · intro few
    refine ⟨⟨last, _, chosen, List.length_replicate, (first_thread_shares_iff size calls positive).mpr few⟩, ?_⟩
    intro actions reached threads connected length
    have first := connection_threads_first _ reached size actions threads stuck positive connected
    exact first_thread_consecutive size threads first (by rwa [length])

theorem spreads_out_single : SpreadsOut true 1 5 := (spreads_out_iff true 1 5 (by decide)).2.mpr (Or.inl rfl)

-- Both connections go to the first of two threads.
theorem second_thread_idle : ¬ SpreadsOut true 2 2 := by
  intro spreads
  obtain ⟨last, threads, chosen, _, even⟩ := spreads.chosen
  cases chosen
  exact absurd (even.shares 0 (by decide)) (by decide)

end Rocket
