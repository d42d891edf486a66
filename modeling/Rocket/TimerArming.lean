import Rocket.Timer
import Rocket.Lib.Trace

set_option autoImplicit false

namespace Rocket

open MultiMap Trace

-- What a resetArriveTime returns to: its caller is done, or it is onTimer with
-- these entries of tmps still to be looked at.
inductive AfterReset where
  | done
  | renew (rest : List PendingEvent)
deriving DecidableEq, Repr

-- Where a thread is in addTimerEvent or onTimer: before the copy of
-- resetArriveTime, before its timerfd_settime, before the locked part of
-- onTimer, in the loop over tmps, or in that loop before addTimerEvent.
inductive TimerCall where
  | resetting (after : AfterReset)
  | arming (event : Nat) (after : AfterReset)
  | erasing
  | renewing (rest : List PendingEvent)
  | adding (event : Nat) (rest : List PendingEvent)
deriving DecidableEq, Repr

-- calls lists the threads that are in a call.
structure SharedTimer where
  timer : Timer
  calls : List (Nat × TimerCall) := []

def callOf (shared : SharedTimer) (thread : Nat) : Option TimerCall :=
  (shared.calls.find? fun call => decide (call.1 = thread)).map Prod.snd

def otherCalls (shared : SharedTimer) (thread : Nat) : List (Nat × TimerCall) :=
  shared.calls.filter fun call => decide (call.1 ≠ thread)

def setCall (shared : SharedTimer) (thread : Nat) (call : TimerCall) : SharedTimer :=
  { shared with calls := (thread, call) :: otherCalls shared thread }

def endCall (shared : SharedTimer) (thread : Nat) : SharedTimer :=
  { shared with calls := otherCalls shared thread }

def loopThread : Nat := 0

def returnTo (shared : SharedTimer) (thread : Nat) : AfterReset → SharedTimer
  | .done => endCall shared thread
  | .renew rest => setCall shared thread (.renewing rest)

def addSection (shared : SharedTimer) (thread event : Nat) (after : AfterReset) : SharedTimer :=
  let later := { shared with timer := emplaceEvent shared.timer event }
  if isResetTimerfd shared.timer event = true then setCall later thread (.resetting after) else returnTo later thread after

def copySection (shared : SharedTimer) (thread : Nat) (after : AfterReset) : SharedTimer :=
  match shared.timer.pendingEvents with
  | [] => returnTo shared thread after
  | first :: _ => setCall shared thread (.arming first.event after)

-- From here the copy is not looked at again, but the event it begins with is
-- read as it is now.
def settimeCall (shared : SharedTimer) (thread event : Nat) (after : AfterReset) (now : Int) : SharedTimer :=
  returnTo { shared with timer := armTimerfd shared.timer event now } thread after

def renewTurn (shared : SharedTimer) (clock : Int) : List PendingEvent → SharedTimer
  | [] => setCall shared loopThread (.resetting .done)
  | entry :: rest =>
      let event := shared.timer.events entry.event
      if event.isRepeated = true then
        setCall { shared with timer := setEvent shared.timer entry.event (event.resetArriveTime clock) } loopThread
          (.adding entry.event rest)
      else setCall shared loopThread (.renewing rest)

-- expired says whether the read of onTimer found the timerfd expired, which
-- leaves it disarmed. What the callbacks of onTimer add are later actions.
inductive ArmAction where
  | add (thread event : Nat)
  | copy (thread : Nat)
  | settime (thread : Nat) (now : Int)
  | onTimer (expired : Bool)
  | erase (now : Int)
  | renew (clock : Int)
  | readd
deriving DecidableEq, Repr

def armStep (shared : SharedTimer) : ArmAction → Option SharedTimer
  | .add thread event =>
      if callOf shared thread = none then some (addSection shared thread event .done) else some shared
  | .copy thread =>
      match callOf shared thread with
      | some (.resetting after) => some (copySection shared thread after)
      | _ => some shared
  | .settime thread now =>
      match callOf shared thread with
      | some (.arming event after) => some (settimeCall shared thread event after now)
      | _ => some shared
  | .onTimer expired =>
      if callOf shared loopThread = none then
        let timer := if expired = true then { shared.timer with armed := none } else shared.timer
        some (setCall { shared with timer := timer } loopThread .erasing)
      else some shared
  | .erase now =>
      if callOf shared loopThread = some .erasing then
        some (setCall { shared with timer := eraseExpired shared.timer now } loopThread
          (.renewing (expiredEvents shared.timer now)))
      else some shared
  | .renew clock =>
      match callOf shared loopThread with
      | some (.renewing rest) => some (renewTurn shared clock rest)
      | _ => some shared
  | .readd =>
      match callOf shared loopThread with
      | some (.adding event rest) => some (addSection shared loopThread event (.renew rest))
      | _ => some shared

structure ArmedFor (timer : Timer) (arming : Arming) : Prop where
  running : arming.armedAt < arming.expiry
  soon : ∀ entry ∈ timer.pendingEvents,
    arming.expiry ≤ max (timer.events entry.event).arriveTime (arming.armedAt + 100)

def EarliestArmed (shared : SharedTimer) : Prop :=
  shared.calls = [] → shared.timer.pendingEvents ≠ [] →
    ∃ arming, shared.timer.armed = some arming ∧ ArmedFor shared.timer arming

-- The last call in progress does not arm for the first event of a copy when a
-- much earlier one is pending by now.
def ArmGuard (shared : SharedTimer) : ArmAction → Prop
  | .settime thread now =>
      match callOf shared thread with
      | some (.arming event .done) =>
          otherCalls shared thread = [] → ∀ entry ∈ shared.timer.pendingEvents,
            (shared.timer.events event).arriveTime ≤ max (shared.timer.events entry.event).arriveTime (now + 100)
      | _ => True
  | _ => True

instance (shared : SharedTimer) (action : ArmAction) : Decidable (ArmGuard shared action) := by
  unfold ArmGuard
  split
  · split <;> infer_instance
  · infer_instance

theorem set_call_armed (shared : SharedTimer) (thread : Nat) (call : TimerCall) : EarliestArmed (setCall shared thread call) :=
  fun none => nomatch none

theorem return_to_renew (shared : SharedTimer) (thread : Nat) (after : AfterReset)
    (armed : after = .done → EarliestArmed (endCall shared thread)) : EarliestArmed (returnTo shared thread after) := by
  cases after with
  | done => exact armed rfl
  | renew rest => exact set_call_armed shared thread (.renewing rest)

theorem other_calls_idle (shared : SharedTimer) (thread : Nat) (idle : callOf shared thread = none) :
    otherCalls shared thread = shared.calls := by
  rw [callOf, Option.map_eq_none_iff, List.find?_eq_none] at idle
  exact List.filter_eq_self.mpr (fun call member => by simpa using idle call member)

theorem arm_timerfd_for (timer : Timer) (event : Nat) (now : Int) :
    (∃ arming, (armTimerfd timer event now).armed = some arming ∧ ArmedFor (armTimerfd timer event now) arming) ↔
      ∀ entry ∈ timer.pendingEvents,
        (timer.events event).arriveTime ≤ max (timer.events entry.event).arriveTime (now + 100) := by
  by_cases ahead : (timer.events event).arriveTime > now
  · simp only [armTimerfd, if_pos ahead, Option.some.injEq, exists_eq_left']
    exact ⟨fun armed => armed.soon, fun soon => ⟨ahead, soon⟩⟩
  · simp only [armTimerfd, if_neg ahead, Option.some.injEq, exists_eq_left']
    constructor
    · intro _ entry _
      omega
    · intro _
      refine ⟨by simp only; omega, ?_⟩
      intro entry _
      exact le_max_right _ _

-- Without a reset the new event is not earlier than the first pending one, for
-- which the timerfd is armed already.
theorem add_section_keeps (shared : SharedTimer) (thread event : Nat) (inv : EarliestArmed shared)
    (idle : callOf shared thread = none) : EarliestArmed (addSection shared thread event .done) := by
  by_cases first : isResetTimerfd shared.timer event = true
  · simp only [addSection, if_pos first]
    exact set_call_armed _ thread _
  · simp only [addSection, if_neg first]
    intro none _
    have alone : shared.calls = [] := (other_calls_idle shared thread idle).symm.trans none
    cases pending : shared.timer.pendingEvents with
    | nil => simp only [isResetTimerfd, pending, not_true_eq_false] at first
    | cons head tail =>
        simp only [isResetTimerfd, pending, decide_eq_true_eq, not_lt] at first
        obtain ⟨arming, armed, kept⟩ := inv alone (by simp [pending])
        refine ⟨arming, armed, kept.running, ?_⟩
        intro entry member
        rcases (mem_emplace _ _ entry _).mp member with rfl | old
        · have earliest := kept.soon head (by simp [pending])
          exact le_trans earliest (max_le_max_right _ first)
        · exact kept.soon entry old

theorem add_section_renew (shared : SharedTimer) (thread event : Nat) (rest : List PendingEvent) :
    EarliestArmed (addSection shared thread event (.renew rest)) := by
  rw [addSection]
  split
  · exact set_call_armed _ thread _
  · exact set_call_armed _ thread (.renewing rest)

theorem copy_section_keeps (shared : SharedTimer) (thread : Nat) (after : AfterReset) :
    EarliestArmed (copySection shared thread after) := by
  cases pending : shared.timer.pendingEvents with
  | nil =>
      simp only [copySection, pending]
      refine return_to_renew shared thread after ?_
      intro _ _ some
      exact absurd pending some
  | cons first rest =>
      simp only [copySection, pending]
      exact set_call_armed shared thread (.arming first.event after)

theorem renew_turn_keeps (shared : SharedTimer) (clock : Int) (entries : List PendingEvent) :
    EarliestArmed (renewTurn shared clock entries) := by
  cases entries with
  | nil => exact set_call_armed shared loopThread (.resetting .done)
  | cons entry rest =>
      rw [renewTurn]
      split
      · exact set_call_armed _ loopThread (.adding entry.event rest)
      · exact set_call_armed shared loopThread (.renewing rest)

theorem arm_step_keeps (shared : SharedTimer) (action : ArmAction) (inv : EarliestArmed shared)
    (guard : ArmGuard shared action) : ∃ later, armStep shared action = some later ∧ EarliestArmed later := by
  cases action with
  | add thread event =>
      by_cases idle : callOf shared thread = none
      · exact ⟨_, if_pos idle, add_section_keeps shared thread event inv idle⟩
      · exact ⟨shared, if_neg idle, inv⟩
  | copy thread =>
      rw [armStep]
      split
      next after _ => exact ⟨_, rfl, copy_section_keeps shared thread after⟩
      next => exact ⟨shared, rfl, inv⟩
  | settime thread now =>
      rw [armStep]
      split
      next event after found =>
        refine ⟨_, rfl, return_to_renew _ thread after ?_⟩
        rintro rfl alone _
        simp only [ArmGuard, found] at guard
        exact (arm_timerfd_for shared.timer event now).mpr (guard alone)
      next => exact ⟨shared, rfl, inv⟩
  | onTimer expired =>
      by_cases idle : callOf shared loopThread = none
      · exact ⟨_, if_pos idle, set_call_armed _ loopThread .erasing⟩
      · exact ⟨shared, if_neg idle, inv⟩
  | erase now =>
      by_cases erasing : callOf shared loopThread = some .erasing
      · exact ⟨_, if_pos erasing, set_call_armed _ loopThread _⟩
      · exact ⟨shared, if_neg erasing, inv⟩
  | renew clock =>
      rw [armStep]
      split
      next rest _ => exact ⟨_, rfl, renew_turn_keeps shared clock rest⟩
      next => exact ⟨shared, rfl, inv⟩
  | readd =>
      rw [armStep]
      split
      next event rest _ => exact ⟨_, rfl, add_section_renew shared loopThread event rest⟩
      next => exact ⟨shared, rfl, inv⟩

theorem arm_step_forced (shared later : SharedTimer) (action : ArmAction) (taken : armStep shared action = some later)
    (armed : EarliestArmed later) : ArmGuard shared action := by
  cases action with
  | settime thread now =>
      rw [ArmGuard]
      split
      next event found =>
        intro alone entry member
        simp only [armStep, found, Option.some.injEq] at taken
        subst taken
        exact (arm_timerfd_for shared.timer event now).mp (armed alone (List.ne_nil_of_mem member)) entry member
      next => trivial
  | _ => trivial

theorem armed_guarded (shared : SharedTimer) (actions : List ArmAction) (initial : EarliestArmed shared)
    (always : Always armStep EarliestArmed shared actions) : Guarded armStep ArmGuard shared actions :=
  always_guarded armStep ArmGuard EarliestArmed EarliestArmed arm_step_keeps
    (fun shared action later _ taken armed => arm_step_forced shared later action taken armed) shared actions initial always

theorem nothing_pending_armed (events : Nat → TimerEvent) : EarliestArmed { timer := { events := events } } :=
  fun _ pending => absurd rfl pending

theorem earliest_armed_iff (events : Nat → TimerEvent) (actions : List ArmAction) :
    Always armStep EarliestArmed { timer := { events := events } } actions ↔
      Guarded armStep ArmGuard { timer := { events := events } } actions :=
  ⟨armed_guarded _ actions (nothing_pending_armed events),
    guarded_always armStep ArmGuard EarliestArmed arm_step_keeps _ actions (nothing_pending_armed events)⟩

-- The first thread copies while its event is the only one, the second adds and
-- arms for an earlier one, and the first arms last, for the later event.
def twoAdders : List ArmAction :=
  [.add 1 0, .copy 1, .add 2 1, .copy 2, .settime 2 0, .settime 1 0]

def farAndNear (event : Nat) : TimerEvent :=
  if event = 0 then ⟨5000, 5000, false, false, some 1⟩ else ⟨1000, 1000, false, false, some 2⟩

theorem two_adders_diverge : ¬ Always armStep EarliestArmed { timer := { events := farAndNear } } twoAdders :=
  fun always => absurd (armed_guarded _ twoAdders (nothing_pending_armed farAndNear) always) (by decide)

end Rocket
