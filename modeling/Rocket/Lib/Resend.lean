import Mathlib.Data.List.Infix
import Mathlib.Data.List.Nodup
import Mathlib.Logic.Relation

set_option autoImplicit false

namespace Resend

open Relation

variable {α β : Type}

-- A sender that forgets nothing: a round sends the first entries of its history
-- once more. A round is known by the number of entries it sends.
def wire (history : List α) (rounds : List Nat) : List α := rounds.flatMap fun count => history.take count

theorem wire_nil (history : List α) : wire history [] = [] := rfl

theorem wire_append (history : List α) (rounds more : List Nat) :
    wire history (rounds ++ more) = wire history rounds ++ wire history more := List.flatMap_append

theorem wire_single (history : List α) (count : Nat) : wire history [count] = history.take count := by
  rw [wire, List.flatMap_singleton]

theorem wire_round (history : List α) (rounds : List Nat) (count : Nat) :
    wire history (rounds ++ [count]) = wire history rounds ++ history.take count := by
  rw [wire_append, wire_single]

theorem wire_whole (history : List α) (rounds : List Nat) :
    wire history (rounds ++ [history.length]) = wire history rounds ++ history := by
  rw [wire_round, List.take_length]

-- What is added to the history later does not change what went out before.
theorem wire_extend (history more : List α) (rounds : List Nat) (bounded : ∀ count ∈ rounds, count ≤ history.length) :
    wire (history ++ more) rounds = wire history rounds := by
  simp only [wire, List.flatMap]
  congr 1
  rw [List.map_inj_left]
  intro count member
  exact List.take_append_of_le_length (bounded count member)

theorem wire_map (f : α → β) (history : List α) (rounds : List Nat) :
    wire (history.map f) rounds = (wire history rounds).map f := by
  simp only [wire, List.map_flatMap, List.map_take]

theorem wire_mem (history : List α) (rounds : List Nat) (entry : α) (member : entry ∈ wire history rounds) :
    entry ∈ history := by
  obtain ⟨count, _, inside⟩ := List.mem_flatMap.mp member
  exact List.mem_of_mem_take inside

theorem mem_take_iff (history : List α) (distinct : history.Nodup) (count index : Nat) (entry : α)
    (access : history[index]? = some entry) : entry ∈ history.take count ↔ index < count := by
  obtain ⟨inside, _⟩ := List.getElem?_eq_some_iff.mp access
  constructor
  · intro member
    obtain ⟨other, found⟩ := List.mem_iff_getElem?.mp member
    by_contra late
    have below : other < count := by
      by_contra outside
      rw [List.getElem?_take_eq_none (by omega)] at found
      cases found
    rw [List.getElem?_take_of_lt below, ← access] at found
    have same := (List.getElem?_inj inside distinct).mp found.symm
    omega
  · intro early
    rw [← List.getElem?_take_of_lt early] at access
    exact List.mem_of_getElem? access

-- An entry goes out once in every round that reaches it.
theorem wire_count [DecidableEq α] (history : List α) (rounds : List Nat) (distinct : history.Nodup) (index : Nat)
    (entry : α) (access : history[index]? = some entry) :
    (wire history rounds).count entry = rounds.countP (fun count => index < count) := by
  induction rounds with
  | nil => rfl
  | cons count rounds ih =>
      have shape : wire history (count :: rounds) = history.take count ++ wire history rounds := List.flatMap_cons
      have once : (history.take count).Nodup := distinct.sublist (List.take_sublist count history)
      have reached := mem_take_iff history distinct count index entry access
      rw [shape, List.count_append, ih, List.countP_cons, Nat.add_comm]
      congr 1
      by_cases early : index < count
      · rw [List.count_eq_one_of_mem once (reached.mpr early)]
        simp [early]
      · rw [List.count_eq_zero_of_not_mem (fun member => early (reached.mp member))]
        simp [early]

-- What such a sender and a receiver behind a reliable stream are for: the
-- receiver has taken the first entries of the wire.
structure Transfer (α : Type) where
  sent : List α
  rounds : List Nat
  delivered : Nat
  bounded : ∀ count ∈ rounds, count ≤ sent.length
  within : delivered ≤ (wire sent rounds).length

def empty : Transfer α := ⟨[], [], 0, by simp, Nat.le_refl 0⟩

def inbox (transfer : Transfer α) : List α := (wire transfer.sent transfer.rounds).take transfer.delivered

def offer (transfer : Transfer α) (more : List α) : Transfer α where
  sent := transfer.sent ++ more
  rounds := transfer.rounds
  delivered := transfer.delivered
  bounded := by
    intro count member
    have bound := transfer.bounded count member
    rw [List.length_append]
    omega
  within := by
    rw [wire_extend transfer.sent more transfer.rounds transfer.bounded]
    exact transfer.within

def flush (transfer : Transfer α) : Transfer α where
  sent := transfer.sent
  rounds := transfer.rounds ++ [transfer.sent.length]
  delivered := transfer.delivered
  bounded := by
    intro count member
    rcases List.mem_append.mp member with earlier | last
    · exact transfer.bounded count earlier
    · rw [List.mem_singleton.mp last]
  within := by
    have within := transfer.within
    rw [wire_whole, List.length_append]
    omega

def deliver (transfer : Transfer α) (room : transfer.delivered < (wire transfer.sent transfer.rounds).length) : Transfer α :=
  { transfer with delivered := transfer.delivered + 1, within := room }

inductive Step : Transfer α → Transfer α → Prop where
  | offer (transfer : Transfer α) (more : List α) : Step transfer (offer transfer more)
  | flush (transfer : Transfer α) : Step transfer (flush transfer)
  | deliver (transfer : Transfer α) (room : transfer.delivered < (wire transfer.sent transfer.rounds).length) :
      Step transfer (deliver transfer room)

theorem inbox_offer (transfer : Transfer α) (more : List α) : inbox (offer transfer more) = inbox transfer := by
  simp only [inbox, offer, wire_extend transfer.sent more transfer.rounds transfer.bounded]

theorem inbox_flush (transfer : Transfer α) : inbox (flush transfer) = inbox transfer := by
  simp only [inbox, flush, wire_whole]
  exact List.take_append_of_le_length transfer.within

theorem steps_deliver (transfer : Transfer α) (count : Nat) (least : transfer.delivered ≤ count)
    (room : count ≤ (wire transfer.sent transfer.rounds).length) :
    ReflTransGen Step transfer { transfer with delivered := count, within := room } := by
  induction count, least using Nat.le_induction with
  | base => exact .refl
  | succ count _ ih =>
      have within : count ≤ (wire transfer.sent transfer.rounds).length := Nat.le_of_succ_le room
      exact (ih within).tail (.deliver { transfer with delivered := count, within := within } room)

-- The whole history has gone out since the last entry was added.
def Flushed (history : List α) (rounds : List Nat) : Prop := history = [] ∨ rounds.getLast? = some history.length

theorem flushed_wire (history : List α) (rounds : List Nat) (flushed : Flushed history rounds) (entry : α)
    (member : entry ∈ history) : entry ∈ wire history rounds := by
  rcases flushed with nothing | last
  · rw [nothing] at member
    cases member
  · obtain ⟨earlier, rfl⟩ := List.getLast?_eq_some_iff.mp last
    rw [wire_whole]
    exact List.mem_append_right _ member

end Resend
