import Rocket.TimerOrder

set_option autoImplicit false

namespace Rocket

open MultiMap

-- Where onTimer is between two of its steps: in the loop over tmps, in that loop
-- before addTimerEvent, or in the loop over tasks.
inductive BatchPhase where
  | idle
  | renewing (tmps tasks : List PendingEvent)
  | adding (event : Nat) (tmps tasks : List PendingEvent)
  | calling (tasks : List PendingEvent)
deriving DecidableEq, Repr

-- now is the time that onTimer has read, renewals records what it has inserted
-- again.
structure TimerBatch where
  timer : Timer
  phase : BatchPhase := .idle
  now : Int := 0
  renewals : List Nat := []

-- The last four are the steps of onTimer. The first three are made by a callback
-- between two of these, or by another thread.
inductive BatchAction where
  | add (event : Nat) (now : Int)
  | delete (event : Nat)
  | setCanceled (event : Nat) (value : Bool)
  | onTimer (now : Int)
  | renew (clock : Int)
  | readd (clock : Int)
  | call
deriving DecidableEq, Repr

def setCanceled (timer : Timer) (event : Nat) (value : Bool) : Timer :=
  setEvent timer event { timer.events event with isCanceled := value }

def renewStep (batch : TimerBatch) (clock : Int) : TimerBatch :=
  match batch.phase with
  | .renewing (entry :: tmps) tasks =>
      let event := batch.timer.events entry.event
      if event.isRepeated = true then
        { batch with
          timer := setEvent batch.timer entry.event (event.resetArriveTime clock)
          phase := .adding entry.event tmps tasks }
      else { batch with phase := .renewing tmps tasks }
  | .renewing [] tasks => { batch with timer := batch.timer.resetArriveTime clock, phase := .calling tasks }
  | _ => batch

def callTaskStep (batch : TimerBatch) : TimerBatch :=
  match batch.phase with
  | .calling (entry :: tasks) =>
      let called := if hasTask batch.timer entry = true then [entry] else []
      { batch with timer := invokeTasks batch.timer called batch.now, phase := .calling tasks }
  | .calling [] => { batch with phase := .idle }
  | _ => batch

-- A step of onTimer whose turn has not come leaves the state alone.
def batchStep (batch : TimerBatch) : BatchAction → TimerBatch
  | .add event now => { batch with timer := addTimerEvent batch.timer event now }
  | .delete event => { batch with timer := deleteTimerEvent batch.timer event }
  | .setCanceled event value => { batch with timer := setCanceled batch.timer event value }
  | .onTimer now =>
      if batch.phase = .idle then
        let expired := expiredEvents batch.timer now
        { batch with timer := eraseExpired batch.timer now, phase := .renewing expired expired, now := now }
      else batch
  | .renew clock => renewStep batch clock
  | .readd clock =>
      match batch.phase with
      | .adding event tmps tasks =>
          { batch with
            timer := addTimerEvent batch.timer event clock
            phase := .renewing tmps tasks
            renewals := batch.renewals ++ [event] }
      | _ => batch
  | .call => callTaskStep batch

def runBatch (batch : TimerBatch) (actions : List BatchAction) : TimerBatch := actions.foldl batchStep batch

theorem run_batch_cons (batch : TimerBatch) (action : BatchAction) (actions : List BatchAction) :
    runBatch batch (action :: actions) = runBatch (batchStep batch action) actions :=
  rfl

theorem run_batch_append (batch : TimerBatch) (first second : List BatchAction) :
    runBatch batch (first ++ second) = runBatch (runBatch batch first) second :=
  List.foldl_append

def newBatch (events : Nat → TimerEvent) : TimerBatch := { timer := { events := events } }

def called (batch : TimerBatch) : List Nat := batch.timer.invoked.map fun call => call.1.event

-- Whatever happens from here on, short of a clearing of the flag.
def Final (batch : TimerBatch) (event : Nat) : Prop :=
  ∀ actions, BatchAction.setCanceled event false ∉ actions →
    (called (runBatch batch actions)).count event = (called batch).count event ∧
      (runBatch batch actions).renewals.count event = batch.renewals.count event

def repeatedOf (timer : Timer) (tmps : List PendingEvent) : List Nat :=
  (tmps.filter (isRepeated timer)).map PendingEvent.event

def tasksOf (timer : Timer) (tasks : List PendingEvent) : List Nat :=
  (tasks.filter (hasTask timer)).map PendingEvent.event

-- What the batch has collected and not yet inserted again or called.
def toRenew (batch : TimerBatch) : List Nat :=
  match batch.phase with
  | .renewing tmps _ => repeatedOf batch.timer tmps
  | .adding event tmps _ => event :: repeatedOf batch.timer tmps
  | _ => []

def toCall (batch : TimerBatch) : List Nat :=
  match batch.phase with
  | .idle => []
  | .renewing _ tasks => tasksOf batch.timer tasks
  | .adding _ _ tasks => tasksOf batch.timer tasks
  | .calling tasks => tasksOf batch.timer tasks

def Outstanding (batch : TimerBatch) (event : Nat) : Prop := event ∈ toRenew batch ∨ event ∈ toCall batch

-- Flags and times of an event change, the rest of it does not.
def SameKind (timer later : Timer) : Prop :=
  ∀ number, (later.events number).isRepeated = (timer.events number).isRepeated ∧
    (later.events number).task = (timer.events number).task

theorem same_kind_repeated (timer later : Timer) (same : SameKind timer later) (tmps : List PendingEvent) :
    repeatedOf later tmps = repeatedOf timer tmps := by
  have equal : isRepeated later = isRepeated timer := funext fun entry => (same entry.event).1
  rw [repeatedOf, repeatedOf, equal]

theorem same_kind_tasks (timer later : Timer) (same : SameKind timer later) (tasks : List PendingEvent) :
    tasksOf later tasks = tasksOf timer tasks := by
  have equal : hasTask later = hasTask timer := funext fun entry => congrArg Option.isSome (same entry.event).2
  rw [tasksOf, tasksOf, equal]

theorem repeated_of_cons (timer : Timer) (entry : PendingEvent) (tmps : List PendingEvent) :
    repeatedOf timer (entry :: tmps) =
      (if (timer.events entry.event).isRepeated = true then [entry.event] else []) ++ repeatedOf timer tmps := by
  rw [repeatedOf, List.filter_cons, isRepeated]
  split <;> rfl

theorem tasks_of_cons (timer : Timer) (entry : PendingEvent) (tasks : List PendingEvent) :
    tasksOf timer (entry :: tasks) = (if hasTask timer entry = true then [entry.event] else []) ++ tasksOf timer tasks := by
  rw [tasksOf, List.filter_cons]
  split <;> rfl

theorem set_event_kind (timer : Timer) (number : Nat) (event : TimerEvent)
    (sameRepeated : event.isRepeated = (timer.events number).isRepeated) (sameTask : event.task = (timer.events number).task) :
    SameKind timer (setEvent timer number event) := by
  intro other
  by_cases same : other = number
  · rw [same, set_event_same]
    exact ⟨sameRepeated, sameTask⟩
  · rw [set_event_other timer number other event same]
    exact ⟨rfl, rfl⟩

theorem add_timer_event_events (timer : Timer) (event : Nat) (now : Int) :
    (addTimerEvent timer event now).events = timer.events ∧ (addTimerEvent timer event now).invoked = timer.invoked := by
  obtain ⟨armed, added⟩ := add_timer_event_spec timer event now
  rw [added]
  exact ⟨rfl, rfl⟩

theorem reset_timerfd_events (timer : Timer) (now : Int) :
    (timer.resetArriveTime now).events = timer.events ∧ (timer.resetArriveTime now).invoked = timer.invoked := by
  obtain ⟨armed, same⟩ := reset_arrive_time_spec timer now
  rw [same]
  exact ⟨rfl, rfl⟩

theorem same_events_kind (timer later : Timer) (same : later.events = timer.events) : SameKind timer later := by
  intro number
  rw [same]
  exact ⟨rfl, rfl⟩

theorem set_canceled_kind (timer : Timer) (event : Nat) (value : Bool) : SameKind timer (setCanceled timer event value) :=
  set_event_kind timer event _ rfl rfl

-- deleteTimerEvent is setCanceled(true) and an erasure.
theorem delete_kind (timer : Timer) (event : Nat) : SameKind timer (deleteTimerEvent timer event) :=
  set_canceled_kind timer event true

-- Nothing of a batch is lost or added on the way from collected to done.
structure Conserves (batch later : TimerBatch) : Prop where
  kind : SameKind batch.timer later.timer
  renewed : later.renewals ++ toRenew later = batch.renewals ++ toRenew batch
  calledBack : called later ++ toCall later = called batch ++ toCall batch
  renewalsGrow : batch.renewals <+: later.renewals
  calledGrow : called batch <+: called later

theorem conserves_refl (batch : TimerBatch) : Conserves batch batch :=
  ⟨fun _ => ⟨rfl, rfl⟩, rfl, rfl, List.prefix_refl _, List.prefix_refl _⟩

theorem conserves_trans (batch middle later : TimerBatch) (first : Conserves batch middle) (second : Conserves middle later) :
    Conserves batch later := by
  refine ⟨?_, second.renewed.trans first.renewed, second.calledBack.trans first.calledBack,
    first.renewalsGrow.trans second.renewalsGrow, first.calledGrow.trans second.calledGrow⟩
  intro number
  obtain ⟨sameRepeated, sameTask⟩ := first.kind number
  obtain ⟨againRepeated, againTask⟩ := second.kind number
  exact ⟨againRepeated.trans sameRepeated, againTask.trans sameTask⟩

theorem same_kind_todo (batch : TimerBatch) (timer : Timer) (same : SameKind batch.timer timer) :
    toRenew { batch with timer := timer } = toRenew batch ∧ toCall { batch with timer := timer } = toCall batch := by
  have sameRepeated := same_kind_repeated batch.timer timer same
  have sameTasks := same_kind_tasks batch.timer timer same
  cases phase : batch.phase <;> simp only [toRenew, toCall, phase, sameRepeated, sameTasks, and_self]

theorem timer_conserves (batch : TimerBatch) (timer : Timer) (same : SameKind batch.timer timer)
    (silent : timer.invoked = batch.timer.invoked) : Conserves batch { batch with timer := timer } := by
  obtain ⟨sameRenew, sameCall⟩ := same_kind_todo batch timer same
  have sameCalled : called { batch with timer := timer } = called batch := by
    rw [called, silent, called]
  refine ⟨same, by rw [sameRenew], by rw [sameCalled, sameCall], List.prefix_refl _, ?_⟩
  rw [sameCalled]

theorem renew_step_conserves (batch : TimerBatch) (clock : Int) : Conserves batch (renewStep batch clock) := by
  obtain ⟨timer, phase, now, renewals⟩ := batch
  cases phase with
  | idle => exact conserves_refl _
  | calling tasks => exact conserves_refl _
  | adding event tmps tasks => exact conserves_refl _
  | renewing tmps tasks =>
      cases tmps with
      | nil =>
          obtain ⟨sameEvents, silent⟩ := reset_timerfd_events timer clock
          have kind := same_events_kind timer (timer.resetArriveTime clock) sameEvents
          refine ⟨kind, rfl, ?_, List.prefix_refl _, ?_⟩
          · simp only [renewStep, called, toCall, silent, same_kind_tasks _ _ kind]
          · simp only [renewStep, called, silent, List.prefix_refl]
      | cons entry tmps =>
          cases repeated : (timer.events entry.event).isRepeated with
          | true =>
              have kind := set_event_kind timer entry.event ((timer.events entry.event).resetArriveTime clock) rfl rfl
              have first := repeated_of_cons timer entry tmps
              rw [if_pos repeated] at first
              simp only [renewStep, repeated, if_true]
              refine ⟨kind, ?_, ?_, List.prefix_refl _, List.prefix_refl _⟩
              · simp only [toRenew, first, same_kind_repeated _ _ kind, List.cons_append, List.nil_append]
              · simp only [toCall, called, same_kind_tasks _ _ kind]
                rfl
          | false =>
              have first := repeated_of_cons timer entry tmps
              rw [if_neg (by rw [repeated]; exact Bool.false_ne_true), List.nil_append] at first
              simp only [renewStep, repeated, Bool.false_eq_true, if_false]
              refine ⟨fun _ => ⟨rfl, rfl⟩, ?_, rfl, List.prefix_refl _, List.prefix_refl _⟩
              simp only [toRenew, first]

theorem readd_step_conserves (batch : TimerBatch) (clock : Int) : Conserves batch (batchStep batch (.readd clock)) := by
  obtain ⟨timer, phase, now, renewals⟩ := batch
  cases phase with
  | idle => exact conserves_refl _
  | calling tasks => exact conserves_refl _
  | renewing tmps tasks => exact conserves_refl _
  | adding event tmps tasks =>
      obtain ⟨sameEvents, silent⟩ := add_timer_event_events timer event clock
      have kind := same_events_kind timer (addTimerEvent timer event clock) sameEvents
      refine ⟨kind, ?_, ?_, List.prefix_append _ _, ?_⟩
      · simp only [batchStep, toRenew, same_kind_repeated _ _ kind, List.append_assoc, List.cons_append, List.nil_append]
      · simp only [batchStep, called, toCall, silent, same_kind_tasks _ _ kind]
      · simp only [batchStep, called, silent, List.prefix_refl]

theorem call_step_conserves (batch : TimerBatch) : Conserves batch (callTaskStep batch) := by
  obtain ⟨timer, phase, now, renewals⟩ := batch
  cases phase with
  | idle => exact conserves_refl _
  | renewing tmps tasks => exact conserves_refl _
  | adding event tmps tasks => exact conserves_refl _
  | calling tasks =>
      cases tasks with
      | nil => exact ⟨fun _ => ⟨rfl, rfl⟩, rfl, rfl, List.prefix_refl _, List.prefix_refl _⟩
      | cons entry tasks =>
          have grown (ran : List PendingEvent) : (timer.invoked ++ ran.map fun entry => (entry, now)).map (fun call => call.1.event) =
              timer.invoked.map (fun call => call.1.event) ++ ran.map PendingEvent.event := by
            rw [List.map_append, List.map_map]
            rfl
          refine ⟨fun _ => ⟨rfl, rfl⟩, rfl, ?_, List.prefix_refl _, ?_⟩
          · simp only [callTaskStep, called, toCall, invokeTasks, grown, List.append_assoc]
            rw [tasks_of_cons]
            split <;> rfl
          · simp only [callTaskStep, called, invokeTasks, grown]
            exact List.prefix_append _ _

theorem step_conserves (batch : TimerBatch) (action : BatchAction)
    (collects : ∀ now, action = .onTimer now → batch.phase ≠ .idle) : Conserves batch (batchStep batch action) := by
  cases action with
  | add event now =>
      obtain ⟨sameEvents, silent⟩ := add_timer_event_events batch.timer event now
      exact timer_conserves batch _ (same_events_kind batch.timer _ sameEvents) silent
  | delete event => exact timer_conserves batch _ (delete_kind batch.timer event) rfl
  | setCanceled event value => exact timer_conserves batch _ (set_canceled_kind batch.timer event value) rfl
  | onTimer now =>
      rw [batchStep, if_neg (collects now rfl)]
      exact conserves_refl batch
  | renew clock => exact renew_step_conserves batch clock
  | readd clock => exact readd_step_conserves batch clock
  | call => exact call_step_conserves batch

theorem set_event_keeps_canceled (timer : Timer) (number event : Nat) (value : TimerEvent)
    (canceled : (timer.events event).isCanceled = true) (kept : number = event → value.isCanceled = true) :
    ((setEvent timer number value).events event).isCanceled = true := by
  by_cases same : event = number
  · rw [same, set_event_same]
    exact kept same.symm
  · rw [set_event_other timer number event value same]
    exact canceled

theorem step_keeps_canceled (batch : TimerBatch) (action : BatchAction) (event : Nat)
    (canceled : (batch.timer.events event).isCanceled = true) (notCleared : action ≠ .setCanceled event false) :
    ((batchStep batch action).timer.events event).isCanceled = true := by
  obtain ⟨timer, phase, now, renewals⟩ := batch
  cases action with
  | add other clock => simpa only [batchStep, (add_timer_event_events timer other clock).1] using canceled
  | delete other => exact set_event_keeps_canceled timer other event _ canceled fun _ => rfl
  | setCanceled other value =>
      refine set_event_keeps_canceled timer other event _ canceled ?_
      intro same
      cases value with
      | true => rfl
      | false => exact absurd (congrArg (BatchAction.setCanceled · false) same) notCleared
  | onTimer clock =>
      simp only [batchStep]
      split <;> exact canceled
  | renew clock =>
      simp only [batchStep, renewStep]
      split
      · split
        · exact set_event_keeps_canceled timer _ event _ canceled fun same => same ▸ canceled
        · exact canceled
      · simpa only [(reset_timerfd_events timer clock).1] using canceled
      · exact canceled
  | readd clock =>
      simp only [batchStep]
      split
      · simpa only [(add_timer_event_events timer _ clock).1] using canceled
      · exact canceled
  | call =>
      simp only [batchStep, callTaskStep]
      split <;> exact canceled

theorem count_settled (event : Nat) (before after todo left : List Nat) (kept : after ++ left = before ++ todo)
    (grown : before <+: after) (absent : event ∉ todo) : after.count event = before.count event ∧ event ∉ left := by
  have total := congrArg (List.count event) kept
  have more := grown.sublist.count_le event
  rw [List.count_append, List.count_append, List.count_eq_zero.mpr absent] at total
  exact ⟨by omega, List.count_eq_zero.mp (by omega)⟩

def SilentFrom (batch later : TimerBatch) (event : Nat) : Prop :=
  (called later).count event = (called batch).count event ∧ later.renewals.count event = batch.renewals.count event

theorem conserves_settled (batch later : TimerBatch) (event : Nat) (conserves : Conserves batch later)
    (settled : ¬ Outstanding batch event) : ¬ Outstanding later event ∧ SilentFrom batch later event := by
  obtain ⟨notRenewed, notCalled⟩ := not_or.mp settled
  obtain ⟨sameRenewals, noRenewal⟩ := count_settled event _ _ _ _ conserves.renewed conserves.renewalsGrow notRenewed
  obtain ⟨sameCalls, noCall⟩ := count_settled event _ _ _ _ conserves.calledBack conserves.calledGrow notCalled
  exact ⟨not_or.mpr ⟨noRenewal, noCall⟩, sameCalls, sameRenewals⟩

theorem expired_not_canceled (timer : Timer) (now : Int) (event : Nat) (canceled : (timer.events event).isCanceled = true)
    (kept : PendingEvent → Bool) : event ∉ ((expiredEvents timer now).filter kept).map PendingEvent.event := by
  intro member
  obtain ⟨entry, inside, rfl⟩ := List.mem_map.mp member
  have active := (List.mem_filter.mp (List.mem_filter.mp inside).1).2
  rw [canceled] at active
  cases active

-- A collection looks at the flag, and everything else only hands on what has
-- been collected.
theorem step_settled (batch : TimerBatch) (action : BatchAction) (event : Nat)
    (canceled : (batch.timer.events event).isCanceled = true) (settled : ¬ Outstanding batch event) :
    ¬ Outstanding (batchStep batch action) event ∧ SilentFrom batch (batchStep batch action) event := by
  by_cases collects : ∀ now, action = .onTimer now → batch.phase ≠ .idle
  · exact conserves_settled batch _ event (step_conserves batch action collects) settled
  · simp only [not_forall, not_not] at collects
    obtain ⟨now, rfl, idle⟩ := collects
    rw [batchStep, if_pos idle]
    refine ⟨not_or.mpr ⟨?_, ?_⟩, rfl, rfl⟩
    · exact expired_not_canceled batch.timer now event canceled (isRepeated (eraseExpired batch.timer now))
    · exact expired_not_canceled batch.timer now event canceled (hasTask (eraseExpired batch.timer now))

theorem settled_final (batch : TimerBatch) (event : Nat) (canceled : (batch.timer.events event).isCanceled = true)
    (settled : ¬ Outstanding batch event) : Final batch event := by
  intro actions
  induction actions generalizing batch with
  | nil => exact fun _ => ⟨rfl, rfl⟩
  | cons action actions ih =>
      intro notCleared
      obtain ⟨notThis, notLater⟩ := not_or.mp (fun either => notCleared (List.mem_cons.mpr either))
      obtain ⟨stillSettled, sameCalls, sameRenewals⟩ := step_settled batch action event canceled settled
      have stillCanceled := step_keeps_canceled batch action event canceled fun same => notThis same.symm
      obtain ⟨restCalls, restRenewals⟩ := ih (batchStep batch action) stillCanceled stillSettled notLater
      exact ⟨restCalls.trans sameCalls, restRenewals.trans sameRenewals⟩

def FinishesBatch : BatchAction → Prop
  | .renew _ => True
  | .readd _ => True
  | .call => True
  | _ => False

-- An event that is not repeated has left the loop turn by the time of its readd.
def renewActions (readings : Readings) (tmps : List PendingEvent) : List BatchAction :=
  tmps.flatMap fun entry => [.renew (readings.renewed entry.event), .readd (readings.armed entry.event)]

def callActions (tasks : List PendingEvent) : List BatchAction := List.replicate (tasks.length + 1) .call

theorem renew_turn_run (readings : Readings) (timer : Timer) (entry : PendingEvent) (tmps tasks : List PendingEvent)
    (now : Int) (renewals : List Nat) :
    ∃ later, runBatch ⟨timer, .renewing (entry :: tmps) tasks, now, renewals⟩
      [.renew (readings.renewed entry.event), .readd (readings.armed entry.event)] =
        ⟨renewEvent readings timer entry, .renewing tmps tasks, now, later⟩ := by
  cases repeated : (timer.events entry.event).isRepeated with
  | true =>
      refine ⟨renewals ++ [entry.event], ?_⟩
      simp only [runBatch, List.foldl_cons, List.foldl_nil, batchStep, renewStep, renewEvent, repeated, if_true]
  | false =>
      refine ⟨renewals, ?_⟩
      simp only [runBatch, List.foldl_cons, List.foldl_nil, batchStep, renewStep, renewEvent, repeated, Bool.false_eq_true,
        if_false]

theorem renew_run (readings : Readings) (timer : Timer) (tmps tasks : List PendingEvent) (now : Int) (renewals : List Nat) :
    ∃ later, runBatch ⟨timer, .renewing tmps tasks, now, renewals⟩ (renewActions readings tmps) =
      ⟨tmps.foldl (renewEvent readings) timer, .renewing [] tasks, now, later⟩ := by
  induction tmps generalizing timer renewals with
  | nil => exact ⟨renewals, rfl⟩
  | cons entry tmps ih =>
      obtain ⟨middle, turned⟩ := renew_turn_run readings timer entry tmps tasks now renewals
      obtain ⟨later, rest⟩ := ih (renewEvent readings timer entry) middle
      refine ⟨later, ?_⟩
      rw [renewActions, List.flatMap_cons, run_batch_append, turned]
      exact rest

theorem invoke_none (timer : Timer) (now : Int) : invokeTasks timer [] now = timer := by
  rw [invokeTasks, List.map_nil, List.append_nil]

theorem call_run (timer : Timer) (tasks : List PendingEvent) (now : Int) (renewals : List Nat) :
    runBatch ⟨timer, .calling tasks, now, renewals⟩ (callActions tasks) =
      ⟨invokeTasks timer (tasks.filter (hasTask timer)) now, .idle, now, renewals⟩ := by
  induction tasks generalizing timer with
  | nil =>
      rw [List.filter_nil, invoke_none]
      rfl
  | cons entry tasks ih =>
      rw [callActions, List.length_cons, List.replicate_succ, run_batch_cons]
      refine (ih _).trans ?_
      have kept (ran : List PendingEvent) : hasTask (invokeTasks timer ran now) = hasTask timer := rfl
      rw [kept, List.filter_cons]
      split <;> simp only [invokeTasks, List.map_cons, List.map_nil, List.append_nil, List.append_assoc, List.cons_append,
        List.nil_append]

def onTimerActions (readings : Readings) (expired : List PendingEvent) : List BatchAction :=
  .onTimer readings.now :: (renewActions readings expired ++ .renew readings.last :: callActions expired)

theorem renew_event_kind (readings : Readings) (timer : Timer) (entry : PendingEvent) :
    SameKind timer (renewEvent readings timer entry) := by
  rw [renewEvent]
  split
  · intro number
    rw [(add_timer_event_events _ _ _).1]
    exact set_event_kind timer entry.event ((timer.events entry.event).resetArriveTime (readings.renewed entry.event)) rfl rfl
      number
  · exact fun _ => ⟨rfl, rfl⟩

theorem renew_events_task (readings : Readings) (expired : List PendingEvent) (timer : Timer) :
    hasTask (expired.foldl (renewEvent readings) timer) = hasTask timer := by
  induction expired generalizing timer with
  | nil => rfl
  | cons entry expired ih =>
      rw [List.foldl_cons, ih]
      exact funext fun other => congrArg Option.isSome (renew_event_kind readings timer entry other.event).2

-- The steps in a row, with nothing between them, are onTimer.
theorem on_timer_run (batch : TimerBatch) (readings : Readings) (idle : batch.phase = .idle) :
    (runBatch batch (onTimerActions readings (expiredEvents batch.timer readings.now))).timer =
      onTimer batch.timer readings := by
  obtain ⟨timer, phase, now, renewals⟩ := batch
  simp only at idle
  subst idle
  obtain ⟨later, renewed⟩ := renew_run readings (eraseExpired timer readings.now) (expiredEvents timer readings.now)
    (expiredEvents timer readings.now) readings.now renewals
  have called := call_run
    (((expiredEvents timer readings.now).foldl (renewEvent readings) (eraseExpired timer readings.now)).resetArriveTime
      readings.last) (expiredEvents timer readings.now) readings.now later
  have sameTask : hasTask (((expiredEvents timer readings.now).foldl (renewEvent readings)
      (eraseExpired timer readings.now)).resetArriveTime readings.last) = hasTask timer := by
    refine Eq.trans ?_ (renew_events_task readings (expiredEvents timer readings.now) (eraseExpired timer readings.now))
    exact funext fun entry => by rw [hasTask, (reset_timerfd_events _ _).1, ← hasTask]
  have collected : batchStep ⟨timer, .idle, now, renewals⟩ (.onTimer readings.now) =
      ⟨eraseExpired timer readings.now, .renewing (expiredEvents timer readings.now) (expiredEvents timer readings.now),
        readings.now, renewals⟩ := by
    simp only [batchStep, if_true]
  rw [onTimerActions, run_batch_cons, collected, run_batch_append, renewed, run_batch_cons]
  simp only [batchStep, renewStep, called, sameTask]
  rfl

theorem finishing_conserves (batch : TimerBatch) (actions : List BatchAction) (finishing : ∀ action ∈ actions, FinishesBatch action) :
    Conserves batch (runBatch batch actions) := by
  induction actions generalizing batch with
  | nil => exact conserves_refl batch
  | cons action actions ih =>
      refine conserves_trans batch (batchStep batch action) _ (step_conserves batch action ?_)
        (ih _ fun other member => finishing other (List.mem_cons_of_mem action member))
      rintro now rfl
      exact absurd (finishing _ List.mem_cons_self) id

theorem call_actions_finish (tasks : List PendingEvent) : ∀ action ∈ callActions tasks, FinishesBatch action := by
  intro action member
  rw [List.eq_of_mem_replicate member]
  trivial

theorem renew_actions_finish (readings : Readings) (tmps : List PendingEvent) :
    ∀ action ∈ renewActions readings tmps, FinishesBatch action := by
  intro action member
  obtain ⟨entry, _, inside⟩ := List.mem_flatMap.mp member
  obtain rfl | inside := List.mem_cons.mp inside
  · trivial
  · rw [List.mem_singleton.mp inside]
    trivial

def zeroReadings : Readings := ⟨0, fun _ => 0, fun _ => 0, 0⟩

-- A batch can be brought to its end.
theorem renewing_ends (timer : Timer) (tmps tasks : List PendingEvent) (now : Int) (renewals : List Nat) :
    ∃ actions, (∀ action ∈ actions, FinishesBatch action) ∧
      (runBatch ⟨timer, .renewing tmps tasks, now, renewals⟩ actions).phase = .idle := by
  obtain ⟨later, renewed⟩ := renew_run zeroReadings timer tmps tasks now renewals
  refine ⟨renewActions zeroReadings tmps ++ .renew 0 :: callActions tasks, ?_, ?_⟩
  · intro action member
    obtain first | last := List.mem_append.mp member
    · exact renew_actions_finish zeroReadings tmps action first
    · obtain rfl | last := List.mem_cons.mp last
      · trivial
      · exact call_actions_finish tasks action last
  · rw [run_batch_append, renewed, run_batch_cons]
    simp only [batchStep, renewStep, call_run]

theorem batch_ends (batch : TimerBatch) :
    ∃ actions, (∀ action ∈ actions, FinishesBatch action) ∧ (runBatch batch actions).phase = .idle := by
  obtain ⟨timer, phase, now, renewals⟩ := batch
  cases phase with
  | idle => exact ⟨[], fun action member => absurd member List.not_mem_nil, rfl⟩
  | renewing tmps tasks => exact renewing_ends timer tmps tasks now renewals
  | adding event tmps tasks =>
      obtain ⟨actions, finishing, ended⟩ :=
        renewing_ends (addTimerEvent timer event 0) tmps tasks now (renewals ++ [event])
      refine ⟨.readd 0 :: actions, ?_, ended⟩
      intro action member
      obtain rfl | member := List.mem_cons.mp member
      · trivial
      · exact finishing action member
  | calling tasks =>
      refine ⟨callActions tasks, call_actions_finish tasks, ?_⟩
      rw [call_run]

theorem outstanding_not_final (batch : TimerBatch) (event : Nat) (outstanding : Outstanding batch event) :
    ¬ Final batch event := by
  intro isFinal
  obtain ⟨actions, finishing, ended⟩ := batch_ends batch
  have conserves := finishing_conserves batch actions finishing
  obtain ⟨sameCalls, sameRenewals⟩ := isFinal actions fun member => finishing _ member
  have nothing : toRenew (runBatch batch actions) = [] ∧ toCall (runBatch batch actions) = [] := by
    simp only [toRenew, toCall, ended, and_self]
  have renewals := congrArg (List.count event) conserves.renewed
  have calls := congrArg (List.count event) conserves.calledBack
  rw [nothing.1, List.append_nil, List.count_append, sameRenewals] at renewals
  rw [nothing.2, List.append_nil, List.count_append, sameCalls] at calls
  rcases outstanding with renewed | wasCalled
  · have positive := List.count_pos_iff.mpr renewed
    omega
  · have positive := List.count_pos_iff.mpr wasCalled
    omega

-- A cancellation takes nothing out of the batch that is under way.
theorem cancel_keeps_outstanding (batch : TimerBatch) (timer : Timer) (event : Nat) (same : SameKind batch.timer timer) :
    Outstanding { batch with timer := timer } event ↔ Outstanding batch event := by
  obtain ⟨sameRenew, sameCall⟩ := same_kind_todo batch timer same
  rw [Outstanding, sameRenew, sameCall, Outstanding]

theorem final_iff_settled (batch : TimerBatch) (timer : Timer) (event : Nat) (same : SameKind batch.timer timer)
    (canceled : (timer.events event).isCanceled = true) :
    Final { batch with timer := timer } event ↔ ¬ Outstanding batch event := by
  rw [← cancel_keeps_outstanding batch timer event same]
  constructor
  · intro isFinal outstanding
    exact outstanding_not_final _ event outstanding isFinal
  · exact settled_final { batch with timer := timer } event canceled

theorem set_canceled_flag (timer : Timer) (event : Nat) : ((setCanceled timer event true).events event).isCanceled = true := by
  rw [setCanceled, set_event_same]

theorem cancellation_final_iff (events : Nat → TimerEvent) (before : List BatchAction) (event : Nat) :
    (Final (batchStep (runBatch (newBatch events) before) (.delete event)) event ↔
        ¬ Outstanding (runBatch (newBatch events) before) event) ∧
      (Final (batchStep (runBatch (newBatch events) before) (.setCanceled event true)) event ↔
        ¬ Outstanding (runBatch (newBatch events) before) event) :=
  ⟨final_iff_settled _ _ event (delete_kind _ event) (set_canceled_flag _ event),
    final_iff_settled _ _ event (set_canceled_kind _ event true) (set_canceled_flag _ event)⟩

-- Two one-shot events fall due together.
def twoEvents : Nat → TimerEvent := fun number => ⟨5, 5, false, false, some number⟩

-- The callback of the first deletes the second, which is called all the same.
theorem deleted_event_called :
    ¬ Final (runBatch (newBatch twoEvents)
      [.add 0 0, .add 1 0, .onTimer 9, .renew 9, .renew 9, .renew 9, .call, .delete 1]) 1 := by
  intro isFinal
  exact absurd (isFinal [.call] (by decide)).1 (by decide)

end Rocket
