import Mathlib.Algebra.Order.Group.Int
import Rocket.Lib.MultiMap

set_option autoImplicit false

namespace Rocket

open MultiMap

-- Times are milliseconds in an int64_t, which the clock does not leave.
structure TimerEvent where
  arriveTime : Int
  interval : Int
  isRepeated : Bool
  isCanceled : Bool := false
  task : Option Nat
deriving DecidableEq, Repr

def TimerEvent.resetArriveTime (event : TimerEvent) (now : Int) : TimerEvent :=
  { event with arriveTime := now + event.interval }

-- An entry of m_pending_events; added numbers the insertions.
structure PendingEvent where
  arriveTime : Int
  event : Nat
  added : Nat
deriving DecidableEq, Repr

structure Arming where
  expiry : Int
  armedAt : Int
deriving DecidableEq, Repr

-- additions and invoked are records that the timer never reads.
structure Timer where
  events : Nat → TimerEvent
  pendingEvents : List PendingEvent := []
  armed : Option Arming := none
  additions : List Nat := []
  invoked : List (PendingEvent × Int) := []

def setEvent (timer : Timer) (number : Nat) (event : TimerEvent) : Timer :=
  { timer with events := fun other => if other = number then event else timer.events other }

@[simp] theorem set_event_same (timer : Timer) (number : Nat) (event : TimerEvent) :
    (setEvent timer number event).events number = event :=
  if_pos rfl

theorem set_event_other (timer : Timer) (number other : Nat) (event : TimerEvent) (different : other ≠ number) :
    (setEvent timer number event).events other = timer.events other :=
  if_neg different

def isResetTimerfd (timer : Timer) (event : Nat) : Bool :=
  match timer.pendingEvents with
  | [] => true
  | first :: _ => decide ((timer.events first.event).arriveTime > (timer.events event).arriveTime)

def emplaceEvent (timer : Timer) (event : Nat) : Timer :=
  { timer with
    pendingEvents :=
      emplace PendingEvent.arriveTime ⟨(timer.events event).arriveTime, event, timer.additions.length⟩ timer.pendingEvents
    additions := timer.additions ++ [event] }

def armTimerfd (timer : Timer) (event : Nat) (now : Int) : Timer :=
  let arriveTime := (timer.events event).arriveTime
  { timer with armed := some ⟨if arriveTime > now then arriveTime else now + 100, now⟩ }

def Timer.resetArriveTime (timer : Timer) (now : Int) : Timer :=
  match timer.pendingEvents with
  | [] => timer
  | first :: _ => armTimerfd timer first.event now

def addTimerEvent (timer : Timer) (event : Nat) (now : Int) : Timer :=
  let later := emplaceEvent timer event
  if isResetTimerfd timer event = true then later.resetArriveTime now else later

def deleteTimerEvent (timer : Timer) (event : Nat) : Timer :=
  let canceled := setEvent timer event { timer.events event with isCanceled := true }
  { canceled with
    pendingEvents := canceled.pendingEvents.eraseP fun entry =>
      decide (entry.arriveTime = (canceled.events event).arriveTime ∧ entry.event = event) }

def expiredEvents (timer : Timer) (now : Int) : List PendingEvent :=
  (timer.pendingEvents.takeWhile fun entry => decide (entry.arriveTime ≤ now)).filter
    fun entry => !(timer.events entry.event).isCanceled

def eraseExpired (timer : Timer) (now : Int) : Timer :=
  { timer with pendingEvents := timer.pendingEvents.dropWhile fun entry => decide (entry.arriveTime ≤ now) }

-- The clock readings of one onTimer: now at its start, for each event the ones
-- of its two resetArriveTime calls, and the one of the last resetArriveTime.
structure Readings where
  now : Int
  renewed : Nat → Int
  armed : Nat → Int
  last : Int

def renewEvent (readings : Readings) (timer : Timer) (entry : PendingEvent) : Timer :=
  let event := timer.events entry.event
  if event.isRepeated = true then
    addTimerEvent (setEvent timer entry.event (event.resetArriveTime (readings.renewed entry.event))) entry.event
      (readings.armed entry.event)
  else timer

def hasTask (timer : Timer) (entry : PendingEvent) : Bool := (timer.events entry.event).task.isSome

def invokeTasks (timer : Timer) (tasks : List PendingEvent) (now : Int) : Timer :=
  { timer with invoked := timer.invoked ++ tasks.map fun entry => (entry, now) }

def onTimer (timer : Timer) (readings : Readings) : Timer :=
  let expired := expiredEvents timer readings.now
  let renewed := expired.foldl (renewEvent readings) (eraseExpired timer readings.now)
  invokeTasks (renewed.resetArriveTime readings.last) (expired.filter (hasTask timer)) readings.now

end Rocket
