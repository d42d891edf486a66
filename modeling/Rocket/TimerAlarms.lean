import Mathlib.Data.List.Chain
import Rocket.TimerOrder

set_option autoImplicit false

namespace Rocket

open MultiMap Trace

-- What a timer is for one of its events, were it the only one: the event, the
-- time it waits for, and the times at which its callback has run.
structure Alarm where
  event : TimerEvent
  waiting : Option Int := none
  calls : List Int := []
deriving DecidableEq, Repr

def Alarm.add (alarm : Alarm) : Alarm := { alarm with waiting := some alarm.event.arriveTime }

def Alarm.delete (alarm : Alarm) : Alarm :=
  { alarm with event := { alarm.event with isCanceled := true }, waiting := none }

def Alarm.Due (alarm : Alarm) (now : Int) : Prop := ∃ time, alarm.waiting = some time ∧ time ≤ now

-- A cancelled event goes without a call and is not renewed.
def Alarm.ring (alarm : Alarm) (now renewed : Int) : Alarm :=
  if alarm.event.isCanceled = true then { alarm with waiting := none }
  else
    { event := if alarm.event.isRepeated = true then alarm.event.resetArriveTime renewed else alarm.event
      waiting := if alarm.event.isRepeated = true then some (renewed + alarm.event.interval) else none
      calls := alarm.calls ++ if alarm.event.task.isSome = true then [now] else [] }

instance (alarm : Alarm) (now : Int) : Decidable (alarm.Due now) :=
  match waiting : alarm.waiting with
  | none => isFalse (by simp [Alarm.Due, waiting])
  | some time => decidable_of_iff (time ≤ now) (by simp [Alarm.Due, waiting])

def alarmStep (number : Nat) (alarm : Alarm) : TimerAction → Alarm
  | .add event _ => if event = number then alarm.add else alarm
  | .delete event => if event = number then alarm.delete else alarm
  | .onTimer readings => if alarm.Due readings.now then alarm.ring readings.now (readings.renewed number) else alarm

def isPending (timer : Timer) (event : Nat) : Prop := event ∈ timer.pendingEvents.map PendingEvent.event

instance (timer : Timer) (event : Nat) : Decidable (isPending timer event) :=
  inferInstanceAs (Decidable (event ∈ timer.pendingEvents.map PendingEvent.event))

def calledAt (timer : Timer) (event : Nat) : List Int :=
  (timer.invoked.filter fun call => decide (call.1.event = event)).map Prod.snd

def alarmOf (timer : Timer) (event : Nat) : Alarm where
  event := timer.events event
  waiting := if isPending timer event then some (timer.events event).arriveTime else none
  calls := calledAt timer event

def ranEvents (timer : Timer) (now : Int) : List Nat :=
  ((dueEvents timer now).filter (hasTask timer)).map PendingEvent.event

-- A filter of the map that asks about the event alone is a condition on it.
theorem pending_filter_iff (timer : Timer) (event : Nat) (holds : PendingEvent → Bool) (kind : Prop)
    (same : ∀ entry ∈ timer.pendingEvents, entry.event = event → (holds entry = true ↔ kind)) :
    event ∈ (timer.pendingEvents.filter holds).map PendingEvent.event ↔ isPending timer event ∧ kind := by
  simp only [isPending, List.mem_map, List.mem_filter]
  constructor
  · rintro ⟨entry, ⟨inside, held⟩, rfl⟩
    exact ⟨⟨entry, inside, rfl⟩, (same entry inside rfl).mp held⟩
  · rintro ⟨⟨entry, inside, rfl⟩, held⟩
    exact ⟨entry, ⟨inside, (same entry inside rfl).mpr held⟩, rfl⟩

theorem due_events_iff (timer : Timer) (now : Int) (event : Nat) (kind : TimerEvent → Bool) (inv : TimerInv timer) :
    event ∈ ((dueEvents timer now).filter fun entry => kind (timer.events entry.event)).map PendingEvent.event ↔
      isPending timer event ∧ (timer.events event).arriveTime ≤ now ∧ (timer.events event).isCanceled = false ∧
        kind (timer.events event) = true := by
  rw [dueEvents, List.filter_filter]
  refine pending_filter_iff timer event _ _ ?_
  rintro entry inside rfl
  simp only [Bool.and_eq_true, decide_eq_true_iff, Bool.not_eq_true', inv.sound.keys entry inside]
  rw [and_comm, and_assoc]

theorem ran_events_iff (timer : Timer) (now : Int) (event : Nat) (inv : TimerInv timer) :
    event ∈ ranEvents timer now ↔ isPending timer event ∧ (timer.events event).arriveTime ≤ now ∧
      (timer.events event).isCanceled = false ∧ (timer.events event).task.isSome = true :=
  due_events_iff timer now event (fun object => object.task.isSome) inv

theorem ran_events_once (timer : Timer) (now : Int) (inv : TimerInv timer) : (ranEvents timer now).Nodup :=
  inv.pendingOnce.sublist ((List.filter_sublist.trans List.filter_sublist).map _)

theorem on_timer_invokes (timer : Timer) (readings : Readings) (inv : TimerInv timer) :
    (onTimer timer readings).invoked = timer.invoked ++
      ((dueEvents timer readings.now).filter (hasTask timer)).map fun entry => (entry, readings.now) :=
  (on_timer_spec timer readings inv).2.2.1

theorem called_at_once (entries : List PendingEvent) (event : Nat) (now : Int) (once : (entries.map PendingEvent.event).Nodup) :
    ((entries.map fun entry => (entry, now)).filter fun call => decide (call.1.event = event)).map Prod.snd =
      if event ∈ entries.map PendingEvent.event then [now] else [] := by
  induction entries with
  | nil => rfl
  | cons entry entries ih =>
      obtain ⟨fresh, rest⟩ := List.nodup_cons.mp once
      simp only [List.map_cons, List.filter_cons]
      by_cases same : entry.event = event
      · subst same
        simp only [decide_true, if_true, List.map_cons, ih rest, if_neg fresh, List.mem_cons_self]
      · simp only [same, decide_false, Bool.false_eq_true, if_false, ih rest, List.mem_cons, Ne.symm same, false_or]

theorem on_timer_calls (timer : Timer) (readings : Readings) (event : Nat) (inv : TimerInv timer) :
    calledAt (onTimer timer readings) event =
      calledAt timer event ++ if event ∈ ranEvents timer readings.now then [readings.now] else [] := by
  rw [calledAt, on_timer_invokes timer readings inv, List.filter_append, List.map_append,
    called_at_once _ _ _ (ran_events_once timer readings.now inv)]
  rfl

theorem add_timer_event_pending (timer : Timer) (event other : Nat) (now : Int) :
    isPending (addTimerEvent timer event now) other ↔ other = event ∨ isPending timer other := by
  obtain ⟨armed, same⟩ := add_timer_event_spec timer event now
  have inserted := (emplace_perm PendingEvent.arriveTime ⟨(timer.events event).arriveTime, event, timer.additions.length⟩
    timer.pendingEvents).map PendingEvent.event
  simp only [same, isPending, emplaceEvent, inserted.mem_iff, List.map_cons, List.mem_cons]

theorem deleted_pending (timer : Timer) (event other : Nat) (inv : TimerInv timer) :
    isPending (deleteTimerEvent timer event) other ↔ isPending timer other ∧ other ≠ event := by
  rw [isPending, delete_timer_event_pending timer event inv]
  refine pending_filter_iff timer other _ _ ?_
  rintro entry _ rfl
  exact decide_eq_true_iff

theorem later_events_iff (timer : Timer) (now : Int) (event : Nat) (inv : TimerInv timer) :
    event ∈ (laterEvents timer now).map PendingEvent.event ↔
      isPending timer event ∧ now < (timer.events event).arriveTime := by
  refine pending_filter_iff timer event _ _ ?_
  rintro entry inside rfl
  rw [decide_eq_true_iff, inv.sound.keys entry inside]

theorem renewed_events_iff (timer : Timer) (now : Int) (event : Nat) (inv : TimerInv timer) :
    event ∈ ((dueEvents timer now).filter (isRepeated timer)).map PendingEvent.event ↔
      isPending timer event ∧ (timer.events event).arriveTime ≤ now ∧
        (timer.events event).isCanceled = false ∧ (timer.events event).isRepeated = true :=
  due_events_iff timer now event TimerEvent.isRepeated inv

-- What onTimer leaves of one event: it is renewed, or its object is as before
-- and it stays in the map when its time has not come.
theorem on_timer_leaves (timer : Timer) (readings : Readings) (event : Nat) (inv : TimerInv timer) :
    (event ∈ ((dueEvents timer readings.now).filter (isRepeated timer)).map PendingEvent.event →
        (onTimer timer readings).events event = (timer.events event).resetArriveTime (readings.renewed event) ∧
          isPending (onTimer timer readings) event) ∧
      (event ∉ ((dueEvents timer readings.now).filter (isRepeated timer)).map PendingEvent.event →
        (onTimer timer readings).events event = timer.events event ∧
          (isPending (onTimer timer readings) event ↔
            isPending timer event ∧ readings.now < (timer.events event).arriveTime)) := by
  obtain ⟨_, _, renewed, left, spec⟩ := (on_timer_spec timer readings inv).2
  have pending_iff : isPending (onTimer timer readings) event ↔
      event ∈ (laterEvents timer readings.now).map PendingEvent.event ∨ event ∈ renewed.map PendingEvent.event := by
    rw [isPending, (left.map PendingEvent.event).mem_iff, List.map_append, List.mem_append]
  rw [← spec.events]
  constructor
  · intro again
    obtain ⟨entry, inside, rfl⟩ := List.mem_map.mp again
    exact ⟨spec.reset entry inside, pending_iff.mpr (Or.inr again)⟩
  · intro absent
    refine ⟨spec.untouched event absent, ?_⟩
    rw [pending_iff, or_iff_left absent, later_events_iff timer readings.now event inv]

theorem alarm_due_iff (timer : Timer) (event : Nat) (now : Int) :
    (alarmOf timer event).Due now ↔ isPending timer event ∧ (timer.events event).arriveTime ≤ now := by
  by_cases pending : isPending timer event
  · simp [alarmOf, Alarm.Due, pending]
  · simp [alarmOf, Alarm.Due, pending]

-- Two timers have one alarm for an event when they agree on what it is made of.
theorem alarm_of_same (timer later : Timer) (event : Nat) (object : later.events event = timer.events event)
    (pending : isPending later event ↔ isPending timer event) (calls : calledAt later event = calledAt timer event) :
    alarmOf later event = alarmOf timer event := by
  simp only [alarmOf, object, calls, propext pending]

theorem add_alarm (timer : Timer) (event number : Nat) (now : Int) :
    alarmOf (addTimerEvent timer event now) number = alarmStep number (alarmOf timer number) (.add event now) := by
  have objects : (addTimerEvent timer event now).events = timer.events ∧
      (addTimerEvent timer event now).invoked = timer.invoked := by
    obtain ⟨armed, same⟩ := add_timer_event_spec timer event now
    rw [same]
    exact ⟨rfl, rfl⟩
  have pending := add_timer_event_pending timer event number now
  have calls : calledAt (addTimerEvent timer event now) number = calledAt timer number := by
    rw [calledAt, objects.2, calledAt]
  by_cases same : event = number
  · subst same
    simp only [alarmStep, if_true, Alarm.add, alarmOf, objects.1, calls, pending, true_or]
  · rw [alarmStep, if_neg same]
    exact alarm_of_same timer _ number (congrFun objects.1 number) (by simp [pending, Ne.symm same]) calls

theorem delete_alarm (timer : Timer) (event number : Nat) (inv : TimerInv timer) :
    alarmOf (deleteTimerEvent timer event) number = alarmStep number (alarmOf timer number) (.delete event) := by
  have pending := deleted_pending timer event number inv
  have calls : calledAt (deleteTimerEvent timer event) number = calledAt timer number := rfl
  by_cases same : event = number
  · subst same
    have object : (deleteTimerEvent timer event).events event = { timer.events event with isCanceled := true } :=
      set_event_same timer event _
    simp only [alarmStep, if_true, Alarm.delete, alarmOf, object, calls, pending, ne_eq, not_true_eq_false, and_false,
      if_false]
  · rw [alarmStep, if_neg same]
    exact alarm_of_same timer _ number (delete_timer_event_other timer event number (Ne.symm same))
      (by simp [pending, Ne.symm same]) calls

theorem on_timer_alarm (timer : Timer) (readings : Readings) (number : Nat) (inv : TimerInv timer) :
    alarmOf (onTimer timer readings) number = alarmStep number (alarmOf timer number) (.onTimer readings) := by
  obtain ⟨renews, leaves⟩ := on_timer_leaves timer readings number inv
  rw [renewed_events_iff timer readings.now number inv] at renews leaves
  have calls := on_timer_calls timer readings number inv
  simp only [ran_events_iff timer readings.now number inv] at calls
  have due_iff := alarm_due_iff timer number readings.now
  by_cases due : (alarmOf timer number).Due readings.now
  · obtain ⟨pending, time⟩ := due_iff.mp due
    have passed : ¬ readings.now < (timer.events number).arriveTime := not_lt_of_ge time
    rw [alarmStep, if_pos due, Alarm.ring]
    cases canceled : (timer.events number).isCanceled with
    | true =>
        -- It is neither called nor renewed, and its entry is gone.
        obtain ⟨object, left⟩ := leaves (by simp [canceled])
        simp [alarmOf, object, left, calls, canceled, passed]
    | false =>
        cases repeated : (timer.events number).isRepeated with
        | true =>
            obtain ⟨object, left⟩ := renews ⟨pending, time, canceled, repeated⟩
            simp [alarmOf, object, left, calls, canceled, repeated, pending, time, TimerEvent.resetArriveTime]
        | false =>
            obtain ⟨object, left⟩ := leaves (by simp [repeated])
            simp [alarmOf, object, left, calls, canceled, repeated, pending, time, passed]
  · rw [alarmStep, if_neg due]
    have spared : ¬ (isPending timer number ∧ (timer.events number).arriveTime ≤ readings.now) :=
      fun both => due (due_iff.mpr both)
    obtain ⟨object, left⟩ := leaves (fun both => spared ⟨both.1, both.2.1⟩)
    refine alarm_of_same timer _ number object ?_ ?_
    · rw [left]
      exact ⟨And.left, fun pending => ⟨pending, lt_of_not_ge (fun time => spared ⟨pending, time⟩)⟩⟩
    · rw [calls, if_neg (fun both => spared ⟨both.1, both.2.1⟩), List.append_nil]

theorem timer_step_alarms (timer : Timer) (action : TimerAction) (inv : TimerInv timer) (guard : TimerGuard timer action) :
    ∃ later, timerStep timer action = some later ∧ TimerInv later ∧
      ∀ number, alarmOf later number = alarmStep number (alarmOf timer number) action := by
  obtain ⟨later, taken, kept, _⟩ := timer_step_spec timer action inv guard
  refine ⟨later, taken, kept, fun number => ?_⟩
  cases action with
  | add event now =>
      cases taken
      exact add_alarm timer event number now
  | delete event =>
      cases taken
      exact delete_alarm timer event number inv
  | onTimer readings =>
      cases taken
      exact on_timer_alarm timer readings number inv

-- The alarms of a timer, each one after the actions of the run.
def SameAlarms (timer : Timer) (alarms : Nat → Alarm) : Prop :=
  TimerInv timer ∧ ∀ number, alarmOf timer number = alarms number

theorem alarms_simulate (timer : Timer) (alarms : Nat → Alarm) (action : TimerAction) (same : SameAlarms timer alarms)
    (guard : TimerGuard timer action) :
    ∃ later, timerStep timer action = some later ∧
      SameAlarms later (fun number => alarmStep number (alarms number) action) := by
  obtain ⟨later, taken, kept, moved⟩ := timer_step_alarms timer action same.1 guard
  exact ⟨later, taken, kept, fun number => (moved number).trans (by rw [same.2 number])⟩

theorem fold_alarms (alarms : Nat → Alarm) (actions : List TimerAction) (number : Nat) :
    (actions.foldl (fun alarms action number => alarmStep number (alarms number) action) alarms) number =
      actions.foldl (alarmStep number) (alarms number) := by
  induction actions generalizing alarms with
  | nil => rfl
  | cons action actions ih => exact ih _

theorem run_alarms (events : Nat → TimerEvent) (actions : List TimerAction)
    (guarded : Guarded timerStep TimerGuard { events := events } actions) (done : List TimerAction)
    (isPrefix : done <+: actions) :
    ∃ last, run timerStep { events := events } done = some last ∧
      SameAlarms last fun number => done.foldl (alarmStep number) { event := events number } := by
  have initial : SameAlarms { events := events } (fun number => { event := events number }) :=
    ⟨timer_starts events, fun _ => rfl⟩
  obtain ⟨last, reached, kept, same⟩ := guarded_simulates timerStep _ SameAlarms TimerGuard alarms_simulate _ _ actions
    initial guarded done isPrefix
  exact ⟨last, reached, kept, fun number => (same number).trans (fold_alarms _ done number)⟩

-- A timer is one alarm for each of its events, whatever else is on it: an alarm
-- sees its own additions and deletions, and the clock.
theorem timer_refines_alarms (events : Nat → TimerEvent) (actions : List TimerAction)
    (guarded : Guarded timerStep TimerGuard { events := events } actions) (done : List TimerAction)
    (isPrefix : done <+: actions) :
    ∃ last, run timerStep { events := events } done = some last ∧
      ∀ number, alarmOf last number = done.foldl (alarmStep number) { event := events number } := by
  obtain ⟨last, reached, _, same⟩ := run_alarms events actions guarded done isPrefix
  exact ⟨last, reached, same⟩

theorem two_ticks_alarms :
    ∃ last, run timerStep { events := someEvents } twoTicks = some last ∧
      ∀ number, alarmOf last number = twoTicks.foldl (alarmStep number) { event := someEvents number } :=
  timer_refines_alarms someEvents twoTicks (by decide) twoTicks (List.prefix_refl twoTicks)

-- No action of a timer changes how an event repeats.
theorem alarm_step_event (number : Nat) (alarm : Alarm) (action : TimerAction) :
    (alarmStep number alarm action).event.interval = alarm.event.interval ∧
      (alarmStep number alarm action).event.isRepeated = alarm.event.isRepeated := by
  cases action with
  | add event now =>
      rw [alarmStep]
      split
      · exact ⟨rfl, rfl⟩
      · exact ⟨rfl, rfl⟩
  | delete event =>
      rw [alarmStep]
      split
      · exact ⟨rfl, rfl⟩
      · exact ⟨rfl, rfl⟩
  | onTimer readings =>
      rw [alarmStep, Alarm.ring]
      split
      · split
        · exact ⟨rfl, rfl⟩
        · split
          · exact ⟨rfl, rfl⟩
          · exact ⟨rfl, rfl⟩
      · exact ⟨rfl, rfl⟩

-- The times that an alarm has called at lie an interval apart, and so does the
-- next one, unless the alarm is cancelled.
structure Spaced (alarm : Alarm) : Prop where
  repeated : alarm.event.isRepeated = true
  waiting : ∀ time, alarm.waiting = some time → time = alarm.event.arriveTime
  tasked : alarm.event.task.isSome = false → alarm.calls = []
  apart : alarm.calls.IsChain fun first second => first + alarm.event.interval ≤ second
  next : alarm.event.isCanceled = false →
    ∀ last ∈ alarm.calls.getLast?, last + alarm.event.interval ≤ alarm.event.arriveTime

theorem called_chain (calls : List Int) (interval now : Int)
    (apart : calls.IsChain fun first second => first + interval ≤ second)
    (next : ∀ last ∈ calls.getLast?, last + interval ≤ now) :
    (calls ++ [now]).IsChain fun first second => first + interval ≤ second := by
  refine apart.append (List.isChain_singleton now) ?_
  intro last lastIn first firstIn
  have called : now = first := by simpa using firstIn
  exact called ▸ next last lastIn

theorem ring_spaced (alarm : Alarm) (now renewed : Int) (spaced : Spaced alarm) (due : alarm.Due now)
    (onward : now ≤ renewed) : Spaced (alarm.ring now renewed) := by
  obtain ⟨time, waits, passed⟩ := due
  have reached : alarm.event.arriveTime ≤ now := spaced.waiting time waits ▸ passed
  cases canceled : alarm.event.isCanceled with
  | true =>
      rw [Alarm.ring, if_pos canceled]
      refine ⟨spaced.repeated, by simp, spaced.tasked, spaced.apart, ?_⟩
      intro wrong
      cases canceled.symm.trans wrong
  | false =>
      simp only [Alarm.ring, canceled, Bool.false_eq_true, if_false, spaced.repeated, if_true]
      cases task : alarm.event.task.isSome with
      | true =>
          refine ⟨spaced.repeated, fun other same => (Option.some.inj same).symm, ?_, ?_, ?_⟩
          · intro wrong
            cases task.symm.trans wrong
          · exact called_chain alarm.calls alarm.event.interval now spaced.apart
              (fun last lastIn => le_trans (spaced.next canceled last lastIn) reached)
          · intro _ last lastIn
            have same : now = last := by simpa using lastIn
            exact same ▸ Int.add_le_add_right onward alarm.event.interval
      | false =>
          have none : alarm.calls = [] := spaced.tasked task
          refine ⟨spaced.repeated, fun other same => (Option.some.inj same).symm, by simp [none], by simp [none], ?_⟩
          simp [none]

theorem alarm_step_spaced (number : Nat) (alarm : Alarm) (action : TimerAction) (spaced : Spaced alarm)
    (onward : ∀ readings, action = .onTimer readings → readings.now ≤ readings.renewed number) :
    Spaced (alarmStep number alarm action) := by
  cases action with
  | add event now =>
      by_cases same : event = number
      · rw [alarmStep, if_pos same]
        exact ⟨spaced.repeated, fun time waits => (Option.some.inj waits).symm, spaced.tasked, spaced.apart, spaced.next⟩
      · rw [alarmStep, if_neg same]
        exact spaced
  | delete event =>
      by_cases same : event = number
      · rw [alarmStep, if_pos same]
        refine ⟨spaced.repeated, by simp [Alarm.delete], spaced.tasked, spaced.apart, ?_⟩
        intro wrong
        cases wrong
      · rw [alarmStep, if_neg same]
        exact spaced
  | onTimer readings =>
      by_cases due : alarm.Due readings.now
      · rw [alarmStep, if_pos due]
        exact ring_spaced alarm readings.now _ spaced due (onward readings rfl)
      · rw [alarmStep, if_neg due]
        exact spaced

theorem alarm_run_spaced (number : Nat) (alarm : Alarm) (actions : List TimerAction) (spaced : Spaced alarm)
    (onward : ∀ readings, TimerAction.onTimer readings ∈ actions → readings.now ≤ readings.renewed number) :
    Spaced (actions.foldl (alarmStep number) alarm) := by
  induction actions generalizing alarm with
  | nil => exact spaced
  | cons action actions ih =>
      refine ih _ (alarm_step_spaced number alarm action spaced ?_) ?_
      · intro readings same
        exact onward readings (same ▸ List.mem_cons_self)
      · intro readings member
        exact onward readings (List.mem_cons_of_mem action member)

theorem alarm_run_event (number : Nat) (alarm : Alarm) (actions : List TimerAction) :
    (actions.foldl (alarmStep number) alarm).event.interval = alarm.event.interval := by
  induction actions generalizing alarm with
  | nil => rfl
  | cons action actions ih => exact (ih _).trans (alarm_step_event number alarm action).1

def addsEvent (number : Nat) : TimerAction → Bool
  | .add event _ => decide (event = number)
  | _ => false

-- A call of an event that is not repeated uses up an addition.
theorem alarm_step_single (number : Nat) (alarm : Alarm) (action : TimerAction) (single : alarm.event.isRepeated = false) :
    (alarmStep number alarm action).calls.length + (alarmStep number alarm action).waiting.toList.length ≤
      alarm.calls.length + alarm.waiting.toList.length + [action].countP (addsEvent number) := by
  cases action with
  | add event now =>
      by_cases same : event = number
      · simp [alarmStep, Alarm.add, addsEvent, same]
      · simp [alarmStep, addsEvent, same]
  | delete event =>
      by_cases same : event = number
      · simp [alarmStep, Alarm.delete, addsEvent, same]
      · simp [alarmStep, addsEvent, same]
  | onTimer readings =>
      by_cases due : alarm.Due readings.now
      · obtain ⟨time, waits, _⟩ := id due
        have none : [TimerAction.onTimer readings].countP (addsEvent number) = 0 := rfl
        rw [alarmStep, if_pos due, Alarm.ring, none, waits]
        split
        · simp
        · simp only [single, Bool.false_eq_true, if_false]
          split
          · simp
          · simp
      · rw [alarmStep, if_neg due]
        exact Nat.le_add_right _ _

theorem alarm_run_single (number : Nat) (alarm : Alarm) (actions : List TimerAction) (single : alarm.event.isRepeated = false) :
    (actions.foldl (alarmStep number) alarm).calls.length ≤
      alarm.calls.length + alarm.waiting.toList.length + actions.countP (addsEvent number) := by
  induction actions generalizing alarm with
  | nil => exact Nat.le_add_right _ _
  | cons action actions ih =>
      have here := alarm_step_single number alarm action single
      have rest := ih _ ((alarm_step_event number alarm action).2.trans single)
      have counted : ([action] ++ actions).countP (addsEvent number) =
          [action].countP (addsEvent number) + actions.countP (addsEvent number) := List.countP_append
      rw [List.singleton_append] at counted
      rw [List.foldl_cons, counted]
      omega

-- The clock reading of the renewal comes after the one at the start of onTimer.
theorem timer_calls_paced (events : Nat → TimerEvent) (actions : List TimerAction) (number : Nat)
    (guarded : Guarded timerStep TimerGuard { events := events } actions)
    (onward : ∀ readings, TimerAction.onTimer readings ∈ actions → readings.now ≤ readings.renewed number) :
    ∃ last, run timerStep { events := events } actions = some last ∧
      ((events number).isRepeated = true →
        (calledAt last number).IsChain fun first second => first + (events number).interval ≤ second) ∧
      ((events number).isRepeated = false → (calledAt last number).length ≤ actions.countP (addsEvent number)) := by
  obtain ⟨last, reached, _, alarms⟩ := run_alarms events actions guarded actions (List.prefix_refl actions)
  have calls : calledAt last number = (actions.foldl (alarmStep number) { event := events number }).calls :=
    congrArg Alarm.calls (alarms number)
  refine ⟨last, reached, fun repeated => ?_, fun single => ?_⟩
  · have start : Spaced { event := events number } := ⟨repeated, by simp, fun _ => rfl, List.isChain_nil, by simp⟩
    have apart := (alarm_run_spaced number _ actions start onward).apart
    rw [alarm_run_event number] at apart
    rw [calls]
    exact apart
  · have bounded := alarm_run_single number { event := events number } actions single
    rw [calls]
    simpa using bounded

theorem two_ticks_paced :
    ∃ last, run timerStep { events := someEvents } twoTicks = some last ∧
      ((someEvents 0).isRepeated = true →
        (calledAt last 0).IsChain fun first second => first + (someEvents 0).interval ≤ second) ∧
      ((someEvents 0).isRepeated = false → (calledAt last 0).length ≤ twoTicks.countP (addsEvent 0)) := by
  refine timer_calls_paced someEvents twoTicks 0 (by decide) ?_
  intro readings member
  simp only [twoTicks, List.mem_cons, TimerAction.onTimer.injEq, reduceCtorEq, List.not_mem_nil, false_or, or_false] at member
  rcases member with rfl | rfl
  · decide
  · decide

example : (run timerStep { events := someEvents } twoTicks).map (fun timer => [0, 1, 2].map (calledAt timer)) =
    some [[1000, 2001], [2001], []] := by
  decide

end Rocket
