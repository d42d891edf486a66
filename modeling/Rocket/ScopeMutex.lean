import Mathlib.Logic.Function.Basic
import Rocket.Lib.Trace

set_option autoImplicit false

namespace Rocket

open Trace

structure GuardId where
  thread : Nat
  index : Nat
deriving DecidableEq, Repr

inductive GuardPhase where
  | absent
  | alive
  | dead
deriving DecidableEq, Repr

-- ScopeMutex with its flag. holding says whether the last acquisition of this
-- guard is still unreleased and unlocked whether unlock was called on it.
structure ScopeMutex where
  phase : GuardPhase := .absent
  isLock : Bool := false
  holding : Bool := false
  unlocked : Bool := false
deriving DecidableEq, Repr

-- One Mutex and its guards. foreign is set by an unlock that comes from a
-- guard which does not hold the mutex.
structure Locks where
  locked : Bool := false
  guards : GuardId → ScopeMutex := fun _ => {}
  foreign : Bool := false

inductive GuardAction where
  | construct (id : GuardId)
  | lock (id : GuardId)
  | unlock (id : GuardId)
  | destroy (id : GuardId)
deriving DecidableEq, Repr

def setGuard (locks : Locks) (id : GuardId) (guard : ScopeMutex) : Locks :=
  { locks with guards := Function.update locks.guards id guard }

def mutexLock (locks : Locks) (id : GuardId) : Locks :=
  setGuard { locks with locked := true } id { locks.guards id with holding := true }

-- pthread_mutex_unlock frees the mutex, whoever calls it.
def mutexUnlock (locks : Locks) (id : GuardId) : Locks :=
  setGuard { locks with locked := false, foreign := locks.foreign || !(locks.guards id).holding } id
    { locks.guards id with holding := false }

def constructGuard (locks : Locks) (id : GuardId) : Locks :=
  let acquired := mutexLock locks id
  setGuard acquired id { acquired.guards id with phase := .alive, isLock := true }

def destroyGuard (locks : Locks) (id : GuardId) : Locks :=
  let released := mutexUnlock locks id
  setGuard released id { released.guards id with phase := .dead, isLock := false }

def unlockGuard (locks : Locks) (id : GuardId) : Locks :=
  let called := setGuard locks id { locks.guards id with unlocked := true }
  if (locks.guards id).isLock = true then mutexUnlock called id else called

-- A thread that has to wait for the mutex takes its step later.
def lockStep (locks : Locks) : GuardAction → Option Locks
  | .construct id =>
      if (locks.guards id).phase = .absent ∧ locks.locked = false then some (constructGuard locks id) else some locks
  | .lock id =>
      if (locks.guards id).phase = .alive ∧ (locks.guards id).isLock = false ∧ locks.locked = false then
        some (mutexLock locks id)
      else some locks
  | .unlock id => if (locks.guards id).phase = .alive then some (unlockGuard locks id) else some locks
  | .destroy id => if (locks.guards id).phase = .alive then some (destroyGuard locks id) else some locks

structure Exclusive (locks : Locks) : Prop where
  own : locks.foreign = false
  released : ∀ id, (locks.guards id).phase = .dead → (locks.guards id).holding = false
  unique : ∀ first second, (locks.guards first).holding = true → (locks.guards second).holding = true → first = second

-- No guard on which unlock was called runs unlock or its destructor again.
def LockGuard (locks : Locks) : GuardAction → Prop
  | .construct _ => True
  | .lock _ => True
  | .unlock id => (locks.guards id).phase = .alive → (locks.guards id).unlocked = false
  | .destroy id => (locks.guards id).phase = .alive → (locks.guards id).unlocked = false

inductive GuardShape : ScopeMutex → Prop where
  | absent : GuardShape ⟨.absent, false, false, false⟩
  | holding : GuardShape ⟨.alive, true, true, false⟩
  | unlocked : GuardShape ⟨.alive, true, false, true⟩
  | dead : GuardShape ⟨.dead, false, false, false⟩

structure LockInv (locks : Locks) : Prop where
  own : locks.foreign = false
  shape : ∀ id, GuardShape (locks.guards id)
  unique : ∀ first second, (locks.guards first).holding = true → (locks.guards second).holding = true → first = second
  free : locks.locked = false → ∀ id, (locks.guards id).holding = false

theorem lock_inv_exclusive (locks : Locks) (inv : LockInv locks) : Exclusive locks := by
  refine ⟨inv.own, ?_, inv.unique⟩
  intro id dead
  have shape := inv.shape id
  generalize locks.guards id = guard at dead shape
  cases shape with
  | absent => cases dead
  | holding => cases dead
  | unlocked => cases dead
  | dead => rfl

theorem lock_inv_alive (locks : Locks) (id : GuardId) (inv : LockInv locks) (alive : (locks.guards id).phase = .alive) :
    (locks.guards id).isLock = true ∧ (locks.guards id).holding = !(locks.guards id).unlocked := by
  have shape := inv.shape id
  generalize locks.guards id = guard at alive shape
  cases shape with
  | absent => cases alive
  | holding => exact ⟨rfl, rfl⟩
  | unlocked => exact ⟨rfl, rfl⟩
  | dead => cases alive

theorem set_guard_shape (locks : Locks) (id : GuardId) (guard : ScopeMutex) (shape : GuardShape guard)
    (shapes : ∀ other, GuardShape (locks.guards other)) (other : GuardId) :
    GuardShape ((setGuard locks id guard).guards other) := by
  by_cases same : other = id
  · simpa only [setGuard, same, Function.update_self] using shape
  · simpa only [setGuard, Function.update_of_ne same] using shapes other

theorem lock_inv_acquire (locks : Locks) (id : GuardId) (guard : ScopeMutex) (inv : LockInv locks)
    (free : locks.locked = false) (shape : GuardShape guard) :
    LockInv (setGuard { locks with locked := true } id guard) := by
  have nobody := inv.free free
  refine ⟨inv.own, set_guard_shape _ id guard shape inv.shape, ?_, by intro wrong; cases wrong⟩
  · intro first second left right
    by_cases firstSame : first = id
    · by_cases secondSame : second = id
      · rw [firstSame, secondSame]
      · simp only [setGuard, Function.update_of_ne secondSame, nobody second] at right
        cases right
    · simp only [setGuard, Function.update_of_ne firstSame, nobody first] at left
      cases left

theorem lock_inv_release (locks : Locks) (id : GuardId) (guard : ScopeMutex) (inv : LockInv locks)
    (holding : (locks.guards id).holding = true) (shape : GuardShape guard) (done : guard.holding = false) :
    LockInv (setGuard { locks with locked := false } id guard) := by
  have others (other : GuardId) (different : other ≠ id) : (locks.guards other).holding = false := by
    cases also : (locks.guards other).holding with
    | false => rfl
    | true => exact absurd (inv.unique other id also holding) different
  have nobody (other : GuardId) : ((setGuard { locks with locked := false } id guard).guards other).holding = false := by
    by_cases same : other = id
    · simpa only [setGuard, same, Function.update_self] using done
    · simpa only [setGuard, Function.update_of_ne same] using others other same
  refine ⟨inv.own, set_guard_shape _ id guard shape inv.shape, ?_, fun _ => nobody⟩
  · intro first second left _
    rw [nobody first] at left
    cases left

theorem set_guard_twice (locks : Locks) (id : GuardId) (first second : ScopeMutex) :
    setGuard (setGuard locks id first) id second = setGuard locks id second := by
  simp only [setGuard, Function.update_idem]

theorem construct_guard_eq (locks : Locks) (id : GuardId) :
    constructGuard locks id = setGuard { locks with locked := true } id
      ⟨.alive, true, true, (locks.guards id).unlocked⟩ := by
  simp only [constructGuard, mutexLock, set_guard_twice]
  simp only [setGuard, Function.update_self]

theorem unlock_guard_eq (locks : Locks) (id : GuardId) (isLock : (locks.guards id).isLock = true) :
    unlockGuard locks id =
      setGuard { locks with locked := false, foreign := locks.foreign || !(locks.guards id).holding } id
        ⟨(locks.guards id).phase, true, false, true⟩ := by
  simp only [unlockGuard, mutexUnlock, setGuard, Function.update_self, Function.update_idem, isLock, if_true]

theorem destroy_guard_eq (locks : Locks) (id : GuardId) :
    destroyGuard locks id =
      setGuard { locks with locked := false, foreign := locks.foreign || !(locks.guards id).holding } id
        ⟨.dead, false, false, (locks.guards id).unlocked⟩ := by
  simp only [destroyGuard, mutexUnlock, setGuard, Function.update_self, Function.update_idem]

theorem lock_step_keeps (locks : Locks) (action : GuardAction) (inv : LockInv locks) (guard : LockGuard locks action) :
    ∃ later, lockStep locks action = some later ∧ LockInv later := by
  cases action with
  | construct id =>
      by_cases enabled : (locks.guards id).phase = .absent ∧ locks.locked = false
      · refine ⟨constructGuard locks id, if_pos enabled, ?_⟩
        have fresh : (locks.guards id).unlocked = false := by
          have shape := inv.shape id
          generalize locks.guards id = current at enabled shape
          cases shape with
          | absent => rfl
          | holding => rfl
          | unlocked => cases enabled.1
          | dead => rfl
        rw [construct_guard_eq, fresh]
        exact lock_inv_acquire locks id _ inv enabled.2 .holding
      · exact ⟨locks, if_neg enabled, inv⟩
  | lock id =>
      refine ⟨locks, if_neg ?_, inv⟩
      rintro ⟨alive, unset, _⟩
      have set := (lock_inv_alive locks id inv alive).1
      exact absurd (unset.symm.trans set) (by decide)
  | unlock id =>
      by_cases alive : (locks.guards id).phase = .alive
      · obtain ⟨isLock, holding⟩ := lock_inv_alive locks id inv alive
        rw [guard alive, Bool.not_false] at holding
        refine ⟨unlockGuard locks id, if_pos alive, ?_⟩
        rw [unlock_guard_eq locks id isLock, holding, Bool.not_true, Bool.or_false, alive]
        exact lock_inv_release locks id _ inv holding .unlocked rfl
      · exact ⟨locks, if_neg alive, inv⟩
  | destroy id =>
      by_cases alive : (locks.guards id).phase = .alive
      · obtain ⟨_, holding⟩ := lock_inv_alive locks id inv alive
        rw [guard alive, Bool.not_false] at holding
        refine ⟨destroyGuard locks id, if_pos alive, ?_⟩
        rw [destroy_guard_eq, guard alive, holding, Bool.not_true, Bool.or_false]
        exact lock_inv_release locks id _ inv holding .dead rfl
      · exact ⟨locks, if_neg alive, inv⟩

theorem lock_step_forced (locks later : Locks) (action : GuardAction) (inv : LockInv locks)
    (taken : lockStep locks action = some later) (exclusive : Exclusive later) : LockGuard locks action := by
  cases action with
  | construct id => trivial
  | lock id => trivial
  | unlock id =>
      intro alive
      obtain ⟨isLock, holding⟩ := lock_inv_alive locks id inv alive
      cases unlocked : (locks.guards id).unlocked with
      | false => rfl
      | true =>
          rw [unlocked, Bool.not_true] at holding
          rw [lockStep, if_pos alive, unlock_guard_eq locks id isLock, holding, Bool.not_false, Bool.or_true] at taken
          cases taken
          exact absurd exclusive.own (by simp [setGuard])
  | destroy id =>
      intro alive
      obtain ⟨_, holding⟩ := lock_inv_alive locks id inv alive
      cases unlocked : (locks.guards id).unlocked with
      | false => rfl
      | true =>
          rw [unlocked, Bool.not_true] at holding
          rw [lockStep, if_pos alive, destroy_guard_eq, holding, Bool.not_false, Bool.or_true] at taken
          cases taken
          exact absurd exclusive.own (by simp [setGuard])

theorem exclusive_iff (actions : List GuardAction) :
    Always lockStep Exclusive {} actions ↔ Guarded lockStep LockGuard {} actions := by
  refine always_iff_guarded lockStep LockGuard LockInv Exclusive lock_inv_exclusive lock_step_keeps ?_ {} actions
    ⟨rfl, fun _ => .absent, ?_, fun _ _ => rfl⟩
  · intro locks action later inv taken exclusive
    exact lock_step_forced locks later action inv taken exclusive
  · intro first _ wrong
    cases wrong

-- The pattern of addTask in three threads. The destructor of the first guard
-- frees the mutex under the second one, and the third gets in.
def threeThreads : List GuardAction :=
  [.construct ⟨1, 0⟩, .unlock ⟨1, 0⟩, .construct ⟨2, 0⟩, .destroy ⟨1, 0⟩, .construct ⟨3, 0⟩]

theorem three_threads_diverge :
    (run lockStep {} threeThreads).map (fun locks =>
      (locks.foreign, (locks.guards ⟨2, 0⟩).holding, (locks.guards ⟨3, 0⟩).holding)) = some (true, true, true) := by
  decide

end Rocket
