import Rocket.Timer
import Rocket.Lib.Trace

set_option autoImplicit false

namespace Rocket

open MultiMap Trace

inductive TimerAction where
  | add (event : Nat) (now : Int)
  | delete (event : Nat)
  | onTimer (readings : Readings)

def timerStep (timer : Timer) : TimerAction → Option Timer
  | .add event now => some (addTimerEvent timer event now)
  | .delete event => some (deleteTimerEvent timer event)
  | .onTimer readings => some (onTimer timer readings)

-- An event object is pending at most once.
def TimerGuard (timer : Timer) : TimerAction → Prop
  | .add event _ => event ∉ timer.pendingEvents.map PendingEvent.event
  | _ => True

instance (timer : Timer) (action : TimerAction) : Decidable (TimerGuard timer action) := by
  unfold TimerGuard
  split <;> infer_instance

def InOrder (left right : PendingEvent) : Prop :=
  Earlier PendingEvent.arriveTime (fun left right => left.added < right.added) left right

structure TimerSound (timer : Timer) : Prop where
  keys : ∀ entry ∈ timer.pendingEvents, entry.arriveTime = (timer.events entry.event).arriveTime
  ordered : timer.pendingEvents.Pairwise InOrder
  once : (timer.invoked.map fun call => call.1.added).Nodup
  added : ∀ call ∈ timer.invoked, timer.additions[call.1.added]? = some call.1.event
  notEarly : ∀ call ∈ timer.invoked, call.1.arriveTime ≤ call.2

def dueEvents (timer : Timer) (now : Int) : List PendingEvent :=
  timer.pendingEvents.filter fun entry => decide (entry.arriveTime ≤ now) && !(timer.events entry.event).isCanceled

def laterEvents (timer : Timer) (now : Int) : List PendingEvent :=
  timer.pendingEvents.filter fun entry => decide (now < entry.arriveTime)

def isRepeated (timer : Timer) (entry : PendingEvent) : Bool := (timer.events entry.event).isRepeated

-- What onTimer leaves in the map beside the later entries: the repeated ones,
-- under their new times.
structure Renewed (timer : Timer) (readings : Readings) (expired renewed : List PendingEvent) (later : Timer) : Prop where
  events : renewed.map PendingEvent.event = (expired.filter (isRepeated timer)).map PendingEvent.event
  arriveTime : ∀ entry ∈ renewed,
    entry.arriveTime = readings.renewed entry.event + (timer.events entry.event).interval
  reset : ∀ entry ∈ renewed,
    later.events entry.event = (timer.events entry.event).resetArriveTime (readings.renewed entry.event)
  untouched : ∀ event, event ∉ renewed.map PendingEvent.event → later.events event = timer.events event

def TimerDoes (timer : Timer) (action : TimerAction) (later : Timer) : Prop :=
  match action with
  | .add event _ =>
      later.pendingEvents.Perm (⟨(timer.events event).arriveTime, event, timer.additions.length⟩ :: timer.pendingEvents) ∧
        later.invoked = timer.invoked ∧ later.events = timer.events
  | .delete event =>
      later.pendingEvents = timer.pendingEvents.filter (fun entry => decide (entry.event ≠ event)) ∧
        later.invoked = timer.invoked ∧ ∀ other, other ≠ event → later.events other = timer.events other
  | .onTimer readings =>
      (dueEvents timer readings.now).Pairwise InOrder ∧
        later.invoked = timer.invoked ++
          ((dueEvents timer readings.now).filter (hasTask timer)).map (fun entry => (entry, readings.now)) ∧
        ∃ renewed, later.pendingEvents.Perm (laterEvents timer readings.now ++ renewed) ∧
          Renewed timer readings (dueEvents timer readings.now) renewed later

-- The number of an insertion names its event, and no pending entry has fired.
structure TimerInv (timer : Timer) : Prop where
  sound : TimerSound timer
  pendingOnce : (timer.pendingEvents.map PendingEvent.event).Nodup
  pendingAdded : ∀ entry ∈ timer.pendingEvents, timer.additions[entry.added]? = some entry.event
  waiting : ∀ entry ∈ timer.pendingEvents, ∀ call ∈ timer.invoked, call.1.added ≠ entry.added

theorem timer_inv_armed (timer : Timer) (armed : Option Arming) (inv : TimerInv timer) :
    TimerInv { timer with armed := armed } :=
  ⟨⟨inv.sound.keys, inv.sound.ordered, inv.sound.once, inv.sound.added, inv.sound.notEarly⟩, inv.pendingOnce,
    inv.pendingAdded, inv.waiting⟩

theorem reset_arrive_time_spec (timer : Timer) (now : Int) :
    ∃ armed, timer.resetArriveTime now = { timer with armed := armed } := by
  rw [Timer.resetArriveTime]
  split
  · exact ⟨timer.armed, rfl⟩
  · exact ⟨_, rfl⟩

theorem add_timer_event_spec (timer : Timer) (event : Nat) (now : Int) :
    ∃ armed, addTimerEvent timer event now = { emplaceEvent timer event with armed := armed } := by
  by_cases first : isResetTimerfd timer event = true
  · rw [addTimerEvent, if_pos first]
    exact reset_arrive_time_spec (emplaceEvent timer event) now
  · rw [addTimerEvent, if_neg first]
    exact ⟨timer.armed, rfl⟩

theorem pending_added_inside (timer : Timer) (entry : PendingEvent) (inv : TimerInv timer)
    (member : entry ∈ timer.pendingEvents) : entry.added < timer.additions.length :=
  (List.getElem?_eq_some_iff.mp (inv.pendingAdded entry member)).1

theorem pending_added_nodup (timer : Timer) (inv : TimerInv timer) :
    (timer.pendingEvents.map PendingEvent.added).Nodup := by
  refine List.Nodup.map_on ?_ (List.Nodup.of_map _ inv.pendingOnce)
  intro left leftIn right rightIn same
  have named := inv.pendingAdded left leftIn
  rw [same, inv.pendingAdded right rightIn] at named
  exact List.inj_on_of_nodup_map inv.pendingOnce leftIn rightIn (Option.some.inj named).symm

theorem additions_extended (additions : List Nat) (event number known : Nat) (found : additions[number]? = some known) :
    (additions ++ [event])[number]? = some known := by
  rw [List.getElem?_append_left (List.getElem?_eq_some_iff.mp found).1]
  exact found

theorem emplace_event_keeps (timer : Timer) (event : Nat) (inv : TimerInv timer)
    (absent : event ∉ timer.pendingEvents.map PendingEvent.event) : TimerInv (emplaceEvent timer event) := by
  have member : ∀ entry, entry ∈ (emplaceEvent timer event).pendingEvents →
      entry = ⟨(timer.events event).arriveTime, event, timer.additions.length⟩ ∨ entry ∈ timer.pendingEvents :=
    fun entry => (mem_emplace _ _ entry _).mp
  have events := (emplace_perm PendingEvent.arriveTime
    ⟨(timer.events event).arriveTime, event, timer.additions.length⟩ timer.pendingEvents).map PendingEvent.event
  refine ⟨⟨?_, ?_, inv.sound.once, ?_, inv.sound.notEarly⟩, ?_, ?_, ?_⟩
  · intro entry inside
    rcases member entry inside with rfl | old
    · rfl
    · exact inv.sound.keys entry old
  · exact emplace_ordered _ _ _ _ inv.sound.ordered (fun other old => pending_added_inside timer other inv old)
  · intro call ran
    exact additions_extended _ event _ _ (inv.sound.added call ran)
  · exact events.nodup_iff.mpr (List.nodup_cons.mpr ⟨absent, inv.pendingOnce⟩)
  · intro entry inside
    rcases member entry inside with rfl | old
    · simp only [emplaceEvent, List.getElem?_concat_length]
    · exact additions_extended _ event _ _ (inv.pendingAdded entry old)
  · intro entry inside call ran
    rcases member entry inside with rfl | old
    · have early := (List.getElem?_eq_some_iff.mp (inv.sound.added call ran)).1
      exact Nat.ne_of_lt early
    · exact inv.waiting entry old call ran

theorem add_timer_event_keeps (timer : Timer) (event : Nat) (now : Int) (inv : TimerInv timer)
    (absent : event ∉ timer.pendingEvents.map PendingEvent.event) : TimerInv (addTimerEvent timer event now) := by
  obtain ⟨armed, same⟩ := add_timer_event_spec timer event now
  rw [same]
  exact timer_inv_armed _ armed (emplace_event_keeps timer event inv absent)

theorem erase_event (entries : List PendingEvent) (event : Nat) (arriveTime : Int)
    (once : (entries.map PendingEvent.event).Nodup)
    (keys : ∀ entry ∈ entries, entry.event = event → entry.arriveTime = arriveTime) :
    (entries.eraseP fun entry => decide (entry.arriveTime = arriveTime ∧ entry.event = event)) =
      entries.filter fun entry => decide (entry.event ≠ event) := by
  induction entries with
  | nil => rfl
  | cons head tail ih =>
      obtain ⟨fresh, rest⟩ := List.nodup_cons.mp once
      have here := keys head List.mem_cons_self
      by_cases same : head.event = event
      · -- The rest holds no second entry of the event.
        have all : tail.filter (fun entry => decide (entry.event ≠ event)) = tail := by
          refine List.filter_eq_self.mpr (fun entry member => decide_eq_true ?_)
          intro again
          exact fresh (List.mem_map.mpr ⟨entry, member, again.trans same.symm⟩)
        rw [List.eraseP_cons_of_pos (by simp [here same, same]), List.filter_cons_of_neg (by simpa using same), all]
      · rw [List.eraseP_cons_of_neg (by simp [same]), List.filter_cons_of_pos (by simpa using same),
          ih rest (fun entry member => keys entry (List.mem_cons_of_mem head member))]

theorem delete_timer_event_pending (timer : Timer) (event : Nat) (inv : TimerInv timer) :
    (deleteTimerEvent timer event).pendingEvents =
      timer.pendingEvents.filter fun entry => decide (entry.event ≠ event) := by
  refine erase_event timer.pendingEvents event _ inv.pendingOnce ?_
  intro entry member same
  rw [inv.sound.keys entry member, same, set_event_same]

theorem delete_timer_event_other (timer : Timer) (event other : Nat) (different : other ≠ event) :
    (deleteTimerEvent timer event).events other = timer.events other :=
  set_event_other timer event other _ different

-- An invariant state keeps its invariant when entries are dropped and events
-- that are not pending any more change.
theorem timer_inv_sublist (timer later : Timer) (inv : TimerInv timer)
    (fewer : later.pendingEvents.Sublist timer.pendingEvents) (additions : later.additions = timer.additions)
    (invoked : later.invoked = timer.invoked)
    (events : ∀ entry ∈ later.pendingEvents, (later.events entry.event).arriveTime = (timer.events entry.event).arriveTime) :
    TimerInv later := by
  have older : ∀ entry ∈ later.pendingEvents, entry ∈ timer.pendingEvents := fun entry member => fewer.subset member
  refine ⟨⟨?_, inv.sound.ordered.sublist fewer, ?_, ?_, ?_⟩, inv.pendingOnce.sublist (fewer.map _), ?_, ?_⟩
  · intro entry member
    rw [events entry member]
    exact inv.sound.keys entry (older entry member)
  · rw [invoked]
    exact inv.sound.once
  · rw [invoked, additions]
    exact inv.sound.added
  · rw [invoked]
    exact inv.sound.notEarly
  · rw [additions]
    exact fun entry member => inv.pendingAdded entry (older entry member)
  · rw [invoked]
    exact fun entry member => inv.waiting entry (older entry member)

theorem delete_timer_event_keeps (timer : Timer) (event : Nat) (inv : TimerInv timer) :
    TimerInv (deleteTimerEvent timer event) := by
  have left := delete_timer_event_pending timer event inv
  refine timer_inv_sublist timer _ inv (left ▸ List.filter_sublist) rfl rfl ?_
  intro entry member
  rw [left] at member
  rw [delete_timer_event_other timer event entry.event (by simpa using (List.mem_filter.mp member).2)]

theorem pending_sorted (timer : Timer) (inv : TimerInv timer) :
    timer.pendingEvents.Pairwise fun left right => left.arriveTime ≤ right.arriveTime :=
  inv.sound.ordered.imp (fun earlier => earlier_le PendingEvent.arriveTime _ _ _ earlier)

theorem expired_events_due (timer : Timer) (now : Int) (inv : TimerInv timer) :
    expiredEvents timer now = dueEvents timer now := by
  rw [expiredEvents, (take_bounded PendingEvent.arriveTime now _ (pending_sorted timer inv)).1, List.filter_filter, dueEvents]
  exact List.filter_congr (fun entry _ => Bool.and_comm _ _)

theorem erase_expired_later (timer : Timer) (now : Int) (inv : TimerInv timer) :
    (eraseExpired timer now).pendingEvents = laterEvents timer now :=
  (take_bounded PendingEvent.arriveTime now _ (pending_sorted timer inv)).2

theorem due_events_spec (timer : Timer) (now : Int) (entry : PendingEvent) (member : entry ∈ dueEvents timer now) :
    entry ∈ timer.pendingEvents ∧ entry.arriveTime ≤ now := by
  obtain ⟨inside, due⟩ := List.mem_filter.mp member
  rw [Bool.and_eq_true, decide_eq_true_iff] at due
  exact ⟨inside, due.1⟩

theorem due_not_later (timer : Timer) (now : Int) (entry : PendingEvent) (inv : TimerInv timer)
    (member : entry ∈ dueEvents timer now) : entry.event ∉ (laterEvents timer now).map PendingEvent.event := by
  intro again
  obtain ⟨other, kept, same⟩ := List.mem_map.mp again
  obtain ⟨inside, due⟩ := due_events_spec timer now entry member
  obtain ⟨otherIn, above⟩ := List.mem_filter.mp kept
  have equal := List.inj_on_of_nodup_map inv.pendingOnce otherIn inside same
  rw [equal, decide_eq_true_iff] at above
  exact absurd due (not_le_of_gt above)

theorem expire_keeps (timer : Timer) (now : Int) (tasks : List PendingEvent) (inv : TimerInv timer)
    (due : tasks.Sublist (dueEvents timer now)) : TimerInv (invokeTasks (eraseExpired timer now) tasks now) := by
  have erased : TimerInv (eraseExpired timer now) :=
    timer_inv_sublist timer _ inv (List.dropWhile_sublist _) rfl rfl (fun _ _ => rfl)
  have fired : ∀ entry ∈ tasks, entry ∈ timer.pendingEvents ∧ entry.arriveTime ≤ now :=
    fun entry member => due_events_spec timer now entry (due.subset member)
  have member : ∀ call, call ∈ timer.invoked ++ tasks.map (fun entry => (entry, now)) →
      call ∈ timer.invoked ∨ call.1 ∈ tasks ∧ call.2 = now := by
    intro call ran
    rcases List.mem_append.mp ran with old | new
    · exact Or.inl old
    · obtain ⟨entry, inTasks, rfl⟩ := List.mem_map.mp new
      exact Or.inr ⟨inTasks, rfl⟩
  refine ⟨⟨erased.sound.keys, erased.sound.ordered, ?_, ?_, ?_⟩, erased.pendingOnce, erased.pendingAdded, ?_⟩
  · have numbers : (tasks.map PendingEvent.added).Nodup :=
      (pending_added_nodup timer inv).sublist ((due.trans List.filter_sublist).map _)
    simp only [invokeTasks, eraseExpired, List.map_append, List.map_map]
    refine List.nodup_append.mpr ⟨inv.sound.once, numbers, ?_⟩
    intro number old other new
    obtain ⟨call, ran, rfl⟩ := List.mem_map.mp old
    obtain ⟨entry, inTasks, rfl⟩ := List.mem_map.mp new
    exact inv.waiting entry (fired entry inTasks).1 call ran
  · intro call ran
    rcases member call ran with old | ⟨new, _⟩
    · exact inv.sound.added call old
    · exact inv.pendingAdded call.1 (fired call.1 new).1
  · intro call ran
    rcases member call ran with old | ⟨new, time⟩
    · exact inv.sound.notEarly call old
    · exact time ▸ (fired call.1 new).2
  · intro entry inside call ran same
    have kept : entry ∈ laterEvents timer now := erase_expired_later timer now inv ▸ inside
    have pending : entry ∈ timer.pendingEvents := (List.mem_filter.mp kept).1
    rcases member call ran with old | ⟨new, _⟩
    · exact inv.waiting entry pending call old same
    · have equal := List.inj_on_of_nodup_map (pending_added_nodup timer inv) (fired call.1 new).1 pending same
      exact due_not_later timer now call.1 inv (due.subset new) (List.mem_map.mpr ⟨entry, kept, equal ▸ rfl⟩)

theorem renew_event_once (readings : Readings) (timer : Timer) (entry : PendingEvent) (single : isRepeated timer entry = false) :
    renewEvent readings timer entry = timer := by
  rw [isRepeated] at single
  simp only [renewEvent, single, Bool.false_eq_true, if_false]

theorem renew_event_repeated (readings : Readings) (timer : Timer) (entry : PendingEvent)
    (repeated : isRepeated timer entry = true) :
    (renewEvent readings timer entry).invoked = timer.invoked ∧
      (renewEvent readings timer entry).pendingEvents.Perm
        (⟨readings.renewed entry.event + (timer.events entry.event).interval, entry.event, timer.additions.length⟩ ::
          timer.pendingEvents) ∧
      (renewEvent readings timer entry).events entry.event =
        (timer.events entry.event).resetArriveTime (readings.renewed entry.event) ∧
      ∀ other, other ≠ entry.event → (renewEvent readings timer entry).events other = timer.events other := by
  rw [isRepeated] at repeated
  obtain ⟨armed, added⟩ := add_timer_event_spec
    (setEvent timer entry.event ((timer.events entry.event).resetArriveTime (readings.renewed entry.event))) entry.event
    (readings.armed entry.event)
  simp only [renewEvent, repeated, if_true, added]
  refine ⟨rfl, ?_, set_event_same timer entry.event _, fun other different => set_event_other timer _ other _ different⟩
  have inserted := emplace_perm PendingEvent.arriveTime
    ⟨readings.renewed entry.event + (timer.events entry.event).interval, entry.event, timer.additions.length⟩
    timer.pendingEvents
  simp only [emplaceEvent, set_event_same]
  exact inserted

theorem renew_event_keeps (readings : Readings) (timer : Timer) (entry : PendingEvent) (inv : TimerInv timer)
    (absent : entry.event ∉ timer.pendingEvents.map PendingEvent.event) : TimerInv (renewEvent readings timer entry) := by
  cases repeated : isRepeated timer entry with
  | false => exact (renew_event_once readings timer entry repeated).symm ▸ inv
  | true =>
      rw [isRepeated] at repeated
      simp only [renewEvent, repeated, if_true]
      refine add_timer_event_keeps _ entry.event _ (timer_inv_sublist timer _ inv (List.Sublist.refl _) rfl rfl ?_) absent
      intro other member
      rw [set_event_other]
      intro same
      exact absent (same ▸ List.mem_map_of_mem member)

theorem renewed_skip (timer later : Timer) (readings : Readings) (entry : PendingEvent) (expired renewed : List PendingEvent)
    (single : isRepeated timer entry = false) (spec : Renewed timer readings expired renewed later) :
    Renewed timer readings (entry :: expired) renewed later := by
  refine ⟨?_, spec.arriveTime, spec.reset, spec.untouched⟩
  rw [List.filter_cons_of_neg (by simp [single])]
  exact spec.events

theorem renewed_among (timer later : Timer) (readings : Readings) (expired renewed : List PendingEvent) (entry : PendingEvent)
    (spec : Renewed timer readings expired renewed later) (member : entry ∈ renewed) :
    entry.event ∈ expired.map PendingEvent.event := by
  have named : entry.event ∈ renewed.map PendingEvent.event := List.mem_map_of_mem member
  rw [spec.events] at named
  obtain ⟨other, inside, same⟩ := List.mem_map.mp named
  exact List.mem_map.mpr ⟨other, (List.mem_filter.mp inside).1, same⟩

theorem renewed_cons (timer later : Timer) (readings : Readings) (entry : PendingEvent) (expired renewed : List PendingEvent)
    (once : ((entry :: expired).map PendingEvent.event).Nodup) (repeated : isRepeated timer entry = true)
    (spec : Renewed (renewEvent readings timer entry) readings expired renewed later) :
    Renewed timer readings (entry :: expired)
      (⟨readings.renewed entry.event + (timer.events entry.event).interval, entry.event, timer.additions.length⟩ :: renewed)
      later := by
  obtain ⟨_, _, here, others⟩ := renew_event_repeated readings timer entry repeated
  obtain ⟨fresh, _⟩ := List.nodup_cons.mp once
  have different : ∀ other, other ∈ expired.map PendingEvent.event → other ≠ entry.event :=
    fun other member same => fresh (same ▸ member)
  have absent : entry.event ∉ renewed.map PendingEvent.event := by
    intro again
    obtain ⟨other, member, same⟩ := List.mem_map.mp again
    exact different _ (renewed_among _ _ _ _ _ other spec member) same
  refine ⟨?_, ?_, ?_, ?_⟩
  · have same : expired.filter (isRepeated (renewEvent readings timer entry)) = expired.filter (isRepeated timer) := by
      refine List.filter_congr (fun other member => ?_)
      rw [isRepeated, isRepeated, others _ (different _ (List.mem_map_of_mem member))]
    rw [List.filter_cons_of_pos repeated, List.map_cons, List.map_cons, spec.events, same]
  · intro other member
    rcases List.mem_cons.mp member with rfl | old
    · rfl
    · rw [spec.arriveTime other old, others _ (different _ (renewed_among _ _ _ _ _ other spec old))]
  · intro other member
    rcases List.mem_cons.mp member with rfl | old
    · exact (spec.untouched entry.event absent).trans here
    · rw [spec.reset other old, others _ (different _ (renewed_among _ _ _ _ _ other spec old))]
  · intro other outside
    rw [List.map_cons, List.mem_cons, not_or] at outside
    exact (spec.untouched other outside.2).trans (others other outside.1)

theorem renew_events_spec (readings : Readings) (expired : List PendingEvent) (timer : Timer) (inv : TimerInv timer)
    (once : (expired.map PendingEvent.event).Nodup)
    (absent : ∀ entry ∈ expired, entry.event ∉ timer.pendingEvents.map PendingEvent.event) :
    TimerInv (expired.foldl (renewEvent readings) timer) ∧
      (expired.foldl (renewEvent readings) timer).invoked = timer.invoked ∧
      ∃ renewed, (expired.foldl (renewEvent readings) timer).pendingEvents.Perm (timer.pendingEvents ++ renewed) ∧
        Renewed timer readings expired renewed (expired.foldl (renewEvent readings) timer) := by
  induction expired generalizing timer with
  | nil =>
      refine ⟨inv, rfl, [], by simp, rfl, ?_, ?_, fun _ _ => rfl⟩
      · intro entry member
        cases member
      · intro entry member
        cases member
  | cons entry expired ih =>
      obtain ⟨fresh, rest⟩ := List.nodup_cons.mp once
      have nextInv := renew_event_keeps readings timer entry inv (absent entry List.mem_cons_self)
      rw [List.foldl_cons]
      cases repeated : isRepeated timer entry with
      | false =>
          rw [renew_event_once readings timer entry repeated]
          obtain ⟨kept, same, renewed, perm, spec⟩ := ih timer inv rest
            (fun other member => absent other (List.mem_cons_of_mem entry member))
          exact ⟨kept, same, renewed, perm, renewed_skip timer _ readings entry expired renewed repeated spec⟩
      | true =>
          obtain ⟨silent, inserted, _, _⟩ := renew_event_repeated readings timer entry repeated
          obtain ⟨kept, same, renewed, perm, spec⟩ := ih (renewEvent readings timer entry) nextInv rest (by
            intro other member again
            rcases List.mem_cons.mp ((inserted.map PendingEvent.event).subset again) with equal | old
            · have equal : other.event = entry.event := equal
              exact fresh (equal ▸ List.mem_map_of_mem member)
            · exact absent other (List.mem_cons_of_mem entry member) old)
          -- The entry just inserted joins the ones of the later turns.
          have moved := (inserted.append_right renewed).trans List.perm_middle.symm
          exact ⟨kept, same.trans silent, _, perm.trans moved,
            renewed_cons timer _ readings entry expired renewed once repeated spec⟩

theorem reset_arrive_time_invokes (timer : Timer) (tasks : List PendingEvent) (now armed : Int) :
    (invokeTasks timer tasks now).resetArriveTime armed = invokeTasks (timer.resetArriveTime armed) tasks now := by
  obtain ⟨events, pendingEvents, armedNow, additions, invoked⟩ := timer
  cases pendingEvents with
  | nil => rfl
  | cons first rest => rfl

theorem add_timer_event_invokes (timer : Timer) (event : Nat) (tasks : List PendingEvent) (now armed : Int) :
    addTimerEvent (invokeTasks timer tasks now) event armed = invokeTasks (addTimerEvent timer event armed) tasks now := by
  have same : isResetTimerfd (invokeTasks timer tasks now) event = isResetTimerfd timer event := rfl
  by_cases first : isResetTimerfd timer event = true
  · simp only [addTimerEvent, same, if_pos first]
    exact reset_arrive_time_invokes (emplaceEvent timer event) tasks now armed
  · simp only [addTimerEvent, same, if_neg first]
    rfl

theorem renew_event_invokes (readings : Readings) (timer : Timer) (entry : PendingEvent) (tasks : List PendingEvent) (now : Int) :
    renewEvent readings (invokeTasks timer tasks now) entry = invokeTasks (renewEvent readings timer entry) tasks now := by
  have same : isRepeated (invokeTasks timer tasks now) entry = isRepeated timer entry := rfl
  cases repeated : isRepeated timer entry with
  | false =>
      rw [renew_event_once readings timer entry repeated]
      exact renew_event_once readings _ entry (same.trans repeated)
  | true =>
      have again := same.trans repeated
      rw [isRepeated] at repeated again
      simp only [renewEvent, repeated, again, if_true]
      exact add_timer_event_invokes
        (setEvent timer entry.event ((timer.events entry.event).resetArriveTime (readings.renewed entry.event)))
        entry.event tasks now (readings.armed entry.event)

-- The callbacks run after everything else and touch nothing of it, so they may
-- as well be recorded first.
theorem renew_events_invokes (readings : Readings) (expired tasks : List PendingEvent) (timer : Timer) (now : Int) :
    expired.foldl (renewEvent readings) (invokeTasks timer tasks now) =
      invokeTasks (expired.foldl (renewEvent readings) timer) tasks now := by
  induction expired generalizing timer with
  | nil => rfl
  | cons entry expired ih => rw [List.foldl_cons, List.foldl_cons, renew_event_invokes, ih]

theorem on_timer_spec (timer : Timer) (readings : Readings) (inv : TimerInv timer) :
    TimerInv (onTimer timer readings) ∧ TimerDoes timer (.onTimer readings) (onTimer timer readings) := by
  have due := expired_events_due timer readings.now inv
  have kept : ∀ tasks, (invokeTasks (eraseExpired timer readings.now) tasks readings.now).pendingEvents =
      laterEvents timer readings.now := fun _ => erase_expired_later timer readings.now inv
  have erased := expire_keeps timer readings.now ((dueEvents timer readings.now).filter (hasTask timer)) inv
    List.filter_sublist
  have once : ((dueEvents timer readings.now).map PendingEvent.event).Nodup :=
    inv.pendingOnce.sublist (List.filter_sublist.map _)
  obtain ⟨later, invoked, renewed, perm, spec⟩ := renew_events_spec readings (dueEvents timer readings.now) _ erased once (by
    intro entry member
    rw [kept]
    exact due_not_later timer readings.now entry inv member)
  have whole : ∃ armed, onTimer timer readings =
      { (dueEvents timer readings.now).foldl (renewEvent readings)
          (invokeTasks (eraseExpired timer readings.now) ((dueEvents timer readings.now).filter (hasTask timer)) readings.now)
        with armed := armed } := by
    rw [onTimer, due, ← reset_arrive_time_invokes, ← renew_events_invokes]
    exact reset_arrive_time_spec _ readings.last
  obtain ⟨armed, whole⟩ := whole
  rw [whole]
  refine ⟨timer_inv_armed _ armed later, inv.sound.ordered.sublist List.filter_sublist, invoked, renewed, ?_,
    spec.events, spec.arriveTime, spec.reset, spec.untouched⟩
  rw [kept] at perm
  exact perm

theorem timer_step_spec (timer : Timer) (action : TimerAction) (inv : TimerInv timer) (guard : TimerGuard timer action) :
    ∃ later, timerStep timer action = some later ∧ TimerInv later ∧ TimerDoes timer action later := by
  cases action with
  | add event now =>
      refine ⟨_, rfl, add_timer_event_keeps timer event now inv guard, ?_⟩
      obtain ⟨armed, same⟩ := add_timer_event_spec timer event now
      rw [same]
      exact ⟨emplace_perm _ _ _, rfl, rfl⟩
  | delete event =>
      exact ⟨_, rfl, delete_timer_event_keeps timer event inv, delete_timer_event_pending timer event inv, rfl,
        fun other different => delete_timer_event_other timer event other different⟩
  | onTimer readings => exact ⟨_, rfl, on_timer_spec timer readings inv⟩

theorem timer_starts (events : Nat → TimerEvent) : TimerInv { events := events } := by
  refine ⟨⟨?_, List.Pairwise.nil, List.nodup_nil, ?_, ?_⟩, List.nodup_nil, ?_, ?_⟩
  all_goals
    intro entry member
    cases member

theorem timers_fire (events : Nat → TimerEvent) (actions : List TimerAction)
    (guarded : Guarded timerStep TimerGuard { events := events } actions) :
    Always timerStep TimerSound { events := events } actions ∧ Throughout timerStep TimerDoes { events := events } actions := by
  exact guarded_sound timerStep TimerGuard TimerInv TimerSound TimerDoes (fun _ inv => inv.sound) timer_step_spec _ actions
    (timer_starts events) guarded

-- A repeated event, a later one-shot event, and one that is deleted in time.
def someEvents (event : Nat) : TimerEvent :=
  if event = 0 then ⟨1000, 1000, true, false, some 7⟩
  else if event = 1 then ⟨1500, 1500, false, false, some 8⟩
  else ⟨1500, 1500, false, false, none⟩

def twoTicks : List TimerAction :=
  [.add 1 0, .add 0 0, .add 2 0, .onTimer ⟨1000, fun _ => 1001, fun _ => 1001, 1002⟩, .delete 2,
    .onTimer ⟨2001, fun _ => 2001, fun _ => 2002, 2002⟩]

theorem two_ticks_fire :
    Always timerStep TimerSound { events := someEvents } twoTicks ∧
      Throughout timerStep TimerDoes { events := someEvents } twoTicks :=
  timers_fire someEvents twoTicks (by decide)

end Rocket
