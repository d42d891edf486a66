import Rocket.RpcChannel
import Rocket.TimerAlarms
import Rocket.TimerArming
import Rocket.Lib.Family

set_option autoImplicit false

namespace Rocket

open Word32 MultiMap Trace Family

variable {ρ : Type}

-- The usual call, in which Init and CallMethod get one controller. Its closure
-- and a cancellation both need it unfinished, and both finish it.
structure OwnCall (asked : RpcController) (ch : Channel ρ) : Prop where
  init : ch.isInit = true
  closure : ch.closure = true
  same : ch.argument = ch.own
  once : ch.closureRuns ≤ 1
  unfinished : (ch.controllers ch.own).isFinished = false →
    ch.closureRuns = 0 ∧ (ch.controllers ch.own).isCanceled = asked.isCanceled
  answered : ch.closureRuns = 1 → (ch.controllers ch.own).isCanceled = asked.isCanceled
  timeout : (ch.controllers ch.own).timeout = asked.timeout

def CallFinished (ch : Channel ρ) : Prop := (ch.controllers ch.own).isFinished = true

-- What the code of a call does short of a timeout.
structure CallGoesOn (asked : RpcController) (ch later : Channel ρ) : Prop where
  call : OwnCall asked later
  armed : later.timerArmed = ch.timerArmed
  finished : CallFinished ch → CallFinished later
  canceled : (later.controllers later.own).isCanceled = (ch.controllers ch.own).isCanceled

theorem goes_on_trans (asked : RpcController) (ch middle later : Channel ρ) (goes : CallGoesOn asked middle later)
    (armed : middle.timerArmed = ch.timerArmed) (finished : CallFinished ch → CallFinished middle)
    (canceled : (middle.controllers middle.own).isCanceled = (ch.controllers ch.own).isCanceled) :
    CallGoesOn asked ch later :=
  ⟨goes.call, goes.armed.trans armed, fun done => goes.finished (finished done), goes.canceled.trans canceled⟩

theorem call_back_finished (ch : Channel ρ) (init : ch.isInit = true) (finished : CallFinished ch) : callBack ch = some ch := by
  have started : ¬ ch.isInit = false := by simp [init]
  have done : (ch.controllers ch.own).isFinished = true := finished
  rw [callBack, if_neg started, if_pos done]

theorem call_back_goes_on (asked : RpcController) (ch : Channel ρ) (inv : OwnCall asked ch) :
    ∃ later, callBack ch = some later ∧ CallGoesOn asked ch later ∧ CallFinished later ∧ later.stage = ch.stage := by
  have started : ¬ ch.isInit = false := by simp [inv.init]
  by_cases finished : (ch.controllers ch.own).isFinished = true
  · exact ⟨ch, call_back_finished ch inv.init finished, ⟨inv, rfl, fun done => done, rfl⟩, finished, rfl⟩
  · obtain ⟨runs, canceled⟩ := inv.unfinished (by simpa using finished)
    have now : (modifyController { ch with closureRuns := ch.closureRuns + 1 } ch.own (setFinished true)).controllers ch.own =
        setFinished true (ch.controllers ch.own) := Function.update_self _ _ _
    have sameFlag := congrArg RpcController.isCanceled now
    refine ⟨modifyController { ch with closureRuns := ch.closureRuns + 1 } ch.own (setFinished true), ?_,
      ⟨⟨inv.init, inv.closure, inv.same, ?_, ?_, ?_, ?_⟩, rfl, ?_, sameFlag⟩, ?_, rfl⟩
    · rw [callBack, if_neg started, if_neg finished, if_pos inv.closure]
    · simp only [modifyController, runs, le_refl]
    · intro wrong
      cases (congrArg RpcController.isFinished now).symm.trans wrong
    · intro _
      exact sameFlag.trans canceled
    · exact (congrArg RpcController.timeout now).trans inv.timeout
    · intro _
      exact congrArg RpcController.isFinished now
    · exact congrArg RpcController.isFinished now

-- A change of the controller that leaves the cancel flag and the timeout alone.
theorem modify_own_call (asked : RpcController) (ch : Channel ρ) (ref : Nat) (change : RpcController → RpcController)
    (inv : OwnCall asked ch) (own : ref = ch.own)
    (finished : ∀ controller, controller.isFinished = true → (change controller).isFinished = true)
    (canceled : ∀ controller, (change controller).isCanceled = controller.isCanceled)
    (timeout : ∀ controller, (change controller).timeout = controller.timeout) :
    CallGoesOn asked ch (modifyController ch ref change) := by
  subst own
  have now : (modifyController ch ch.own change).controllers ch.own = change (ch.controllers ch.own) :=
    Function.update_self _ _ _
  have sameFlag := (congrArg RpcController.isCanceled now).trans (canceled _)
  refine ⟨⟨inv.init, inv.closure, inv.same, inv.once, ?_, ?_, ?_⟩, rfl, ?_, sameFlag⟩
  · intro unfinished
    have before : (ch.controllers ch.own).isFinished = false := by
      by_contra wrong
      have done := finished _ (by simpa using wrong)
      cases ((congrArg RpcController.isFinished now).trans done).symm.trans unfinished
    exact ⟨(inv.unfinished before).1, sameFlag.trans (inv.unfinished before).2⟩
  · exact fun ran => sameFlag.trans (inv.answered ran)
  · exact (congrArg RpcController.timeout now).trans ((timeout _).trans inv.timeout)
  · exact fun done => (congrArg RpcController.isFinished now).trans (finished _ done)

theorem fail_call_goes_on (asked : RpcController) (ch : Channel ρ) (ref : Nat) (errorCode : Int) (errorInfo : Bytes)
    (inv : OwnCall asked ch) (own : ref = ch.own) :
    ∃ later, failCall ch ref errorCode errorInfo = some later ∧ CallGoesOn asked ch later ∧ CallFinished later ∧
      later.stage = ch.stage := by
  have failed := modify_own_call asked ch ref (setError errorCode errorInfo) inv own (fun _ _ => rfl) (fun _ => rfl)
    (fun _ => rfl)
  obtain ⟨later, called, goes, finished, stage⟩ := call_back_goes_on asked
    { modifyController ch ref (setError errorCode errorInfo) with outcome := true } { failed.call with }
  exact ⟨later, called, goes_on_trans asked ch _ later goes rfl failed.finished failed.canceled, finished, stage⟩

theorem connect_done_goes_on (asked : RpcController) (ch : Channel ρ) (inv : OwnCall asked ch) :
    ∃ later, connectDone ch = some later ∧ CallGoesOn asked ch later ∧ later.stage ≠ .idle := by
  by_cases success : ch.connectErrorCode = 0
  · refine ⟨{ ch with stage := .writing }, by rw [connectDone, if_neg (not_not_intro success)],
      ⟨{ inv with }, rfl, ?_, rfl⟩, ?_⟩
    · exact fun done => done
    · simp
  · obtain ⟨later, failed, goes, _, stage⟩ := fail_call_goes_on asked { ch with stage := .ended } ch.own
      ch.connectErrorCode ch.connectErrorMsg { inv with } rfl
    refine ⟨later, by rw [connectDone, if_pos success, failed], ⟨goes.call, goes.armed, goes.finished, goes.canceled⟩, ?_⟩
    simp [stage]

theorem connect_failed_goes_on (asked : RpcController) (ch : Channel ρ) (errorCode : Int) (errorMsg : Bytes)
    (inv : OwnCall asked ch) :
    ∃ later, connectDone { ch with connectErrorCode := errorCode, connectErrorMsg := errorMsg } = some later ∧
      CallGoesOn asked ch later ∧ later.stage ≠ .idle := by
  obtain ⟨later, done, goes, stage⟩ := connect_done_goes_on asked
    { ch with connectErrorCode := errorCode, connectErrorMsg := errorMsg } { inv with }
  exact ⟨later, done, ⟨goes.call, goes.armed, goes.finished, goes.canceled⟩, stage⟩

theorem connect_goes_on (asked : RpcController) (ch : Channel ρ) (result : ConnectResult) (inv : OwnCall asked ch) :
    ∃ later, connect ch result = some later ∧ CallGoesOn asked ch later ∧ later.stage ≠ .idle := by
  cases result with
  | success => exact connect_done_goes_on asked ch inv
  | inProgress => exact ⟨{ ch with stage := .connecting }, rfl, ⟨{ inv with }, rfl, fun done => done, rfl⟩, by simp⟩
  | failed sysError => exact connect_failed_goes_on asked ch _ _ inv

theorem connect_ready_goes_on (asked : RpcController) (ch : Channel ρ) (result : ReadyResult) (inv : OwnCall asked ch) :
    ∃ later, connectReady ch result = some later ∧ CallGoesOn asked ch later ∧ later.stage ≠ .idle := by
  cases result with
  | success => exact connect_done_goes_on asked ch inv
  | failed inProgress sysError =>
      cases inProgress with
      | true => exact connect_failed_goes_on asked ch _ _ inv
      | false => exact connect_failed_goes_on asked ch _ _ inv

-- CallMethod either has its timer event pending or is refused at once.
structure CallBegins (asked : RpcController) (ch later : Channel ρ) : Prop where
  call : OwnCall asked later
  begun : later.stage ≠ .idle
  finished : CallFinished ch → CallFinished later
  canceled : (later.controllers later.own).isCanceled = (ch.controllers ch.own).isCanceled
  armed : later.timerArmed = true ∨ later.timerArmed = ch.timerArmed ∧ CallFinished later

theorem refuse_call_begins (asked : RpcController) (ch : Channel ρ) (errorCode : Int) (errorInfo : Bytes)
    (inv : OwnCall asked ch) :
    ∃ later, failCall { ch with stage := .ended } ch.argument errorCode errorInfo = some later ∧
      CallBegins asked ch later := by
  obtain ⟨later, failed, goes, finished, stage⟩ := fail_call_goes_on asked { ch with stage := .ended } ch.argument
    errorCode errorInfo { inv with } inv.same
  exact ⟨later, failed, goes.call, by simp [stage], goes.finished, goes.canceled, Or.inr ⟨goes.armed, finished⟩⟩

theorem call_method_begins (asked : RpcController) (ch : Channel ρ) (arguments : CallArguments) (inv : OwnCall asked ch) :
    ∃ later, callMethod ch arguments = some later ∧ CallBegins asked ch later := by
  by_cases absent : arguments.present = false
  · rw [callMethod, if_pos absent]
    exact refuse_call_begins asked ch _ _ inv
  · by_cases unknown : ch.remoteAddr = false
    · rw [callMethod, if_neg absent, if_pos unknown]
      exact refuse_call_begins asked ch _ _ inv
    · have fresh : OwnCall asked { ch with connectErrorCode := 0, connectErrorMsg := [] } := { inv with }
      obtain ⟨named, naming, goes⟩ : ∃ named : Channel ρ,
          (if (ch.controllers ch.argument).msgId = [] then
              modifyController { ch with connectErrorCode := 0, connectErrorMsg := [] } ch.argument
                (setMsgId arguments.freshMsgId)
            else { ch with connectErrorCode := 0, connectErrorMsg := [] }) = named ∧
          CallGoesOn asked { ch with connectErrorCode := 0, connectErrorMsg := [] } named := by
        by_cases unnamed : (ch.controllers ch.argument).msgId = []
        · exact ⟨_, if_pos unnamed, modify_own_call asked _ _ _ fresh inv.same (fun _ done => done) (fun _ => rfl)
            (fun _ => rfl)⟩
        · exact ⟨_, if_neg unnamed, fresh, rfl, fun done => done, rfl⟩
      have started : ¬ named.isInit = false := by simp [goes.call.init]
      simp only [callMethod, if_neg absent, if_neg unknown, naming, if_neg started]
      by_cases unserialized : arguments.serialized = false
      · rw [if_pos unserialized]
        obtain ⟨later, failed, begins⟩ := refuse_call_begins asked named ERROR_FAILED_SERIALIZE
          (text "failed to serialize request") goes.call
        exact ⟨later, failed, begins.call, begins.begun, fun done => begins.finished (goes.finished done),
          begins.canceled.trans goes.canceled,
          begins.armed.imp_right (fun refused => ⟨refused.1.trans goes.armed, refused.2⟩)⟩
      · rw [if_neg unserialized]
        obtain ⟨later, connected, onward, stage⟩ := connect_goes_on asked { named with
            reqProtocol := { setMethodName { msgId := (named.controllers named.argument).msgId } arguments.methodName with
              pbBody := arguments.pbBody }
            timerArmed := true } arguments.connected { goes.call with }
        exact ⟨later, connected, onward.call, stage, fun done => onward.finished (goes.finished done),
          onward.canceled.trans goes.canceled, Or.inl onward.armed⟩

-- A call that is still open when its timer event runs ends with the timeout.
structure TimesOut (ch later : Channel ρ) : Prop where
  own : later.own = ch.own
  outcome : CallFinished ch → later = { ch with timerArmed := false, outcome := true }
  failed : ¬ CallFinished ch → later.controllers ch.own =
    setError ERROR_RPC_CALL_TIMEOUT (timeoutText (ch.controllers ch.own)) (startCancel (ch.controllers ch.own))

theorem timeout_ends (asked : RpcController) (ch : Channel ρ) (inv : OwnCall asked ch) :
    ∃ later, timeoutCallback { ch with timerArmed := false } = some later ∧ OwnCall asked later ∧ CallFinished later ∧
      later.timerArmed = false ∧ later.stage = ch.stage ∧ TimesOut ch later := by
  by_cases finished : (ch.controllers ch.own).isFinished = true
  · refine ⟨{ ch with timerArmed := false, outcome := true }, ?_, { inv with }, finished, rfl, rfl, rfl, fun _ => rfl,
      fun wrong => absurd finished wrong⟩
    rw [timeoutCallback, if_pos (inv.same ▸ finished)]
  · obtain ⟨runs, _⟩ := inv.unfinished (by simpa using finished)
    let failing : Channel ρ := { modifyController (modifyController { ch with timerArmed := false } ch.own startCancel) ch.own
      (setError ERROR_RPC_CALL_TIMEOUT (timeoutText (ch.controllers ch.own))) with outcome := true }
    have now : failing.controllers ch.own =
        setError ERROR_RPC_CALL_TIMEOUT (timeoutText (ch.controllers ch.own)) (startCancel (ch.controllers ch.own)) := by
      simp only [failing, modifyController, Function.update_self]
    have done : (failing.controllers ch.own).isFinished = true := congrArg RpcController.isFinished now
    have called : callBack failing = some failing := call_back_finished failing inv.init done
    refine ⟨failing, ?_, ⟨inv.init, inv.closure, inv.same, inv.once, ?_, ?_, ?_⟩, done, rfl, rfl, rfl, ?_, fun _ => now⟩
    · have sameText : timeoutText (startCancel (ch.controllers ch.own)) = timeoutText (ch.controllers ch.own) := rfl
      simp only [failing, modifyController, inv.same, Function.update_self] at called
      simp only [failing, timeoutCallback, inv.same, if_neg finished, failCall, modifyController, Function.update_self, sameText]
      exact called
    · intro wrong
      cases done.symm.trans wrong
    · intro ran
      exact absurd (runs.symm.trans ran) Nat.zero_ne_one
    · exact (congrArg RpcController.timeout now).trans inv.timeout
    · exact fun wrong => absurd wrong finished

section Response

variable (parseFromString : Bytes → Bool × ρ)

theorem response_goes_on (asked : RpcController) (ch : Channel ρ) (rspProtocol : TinyPBProtocol) (inv : OwnCall asked ch) :
    ∃ later, responseCallback parseFromString ch rspProtocol = some later ∧ CallGoesOn asked ch later ∧
      later.stage = ch.stage := by
  have handled : OwnCall asked { ch with response := (parseFromString rspProtocol.pbBody).2, outcome := true } := { inv with }
  have failed (errorCode : Int) (errorInfo : Bytes) :
      ∃ later, failCall { ch with response := (parseFromString rspProtocol.pbBody).2, outcome := true } ch.own errorCode
        errorInfo = some later ∧ CallGoesOn asked ch later ∧ later.stage = ch.stage := by
    obtain ⟨later, called, goes, _, stage⟩ := fail_call_goes_on asked _ ch.own errorCode errorInfo handled rfl
    exact ⟨later, called, ⟨goes.call, goes.armed, goes.finished, goes.canceled⟩, stage⟩
  simp only [responseCallback]
  by_cases unparsed : (parseFromString rspProtocol.pbBody).1 = false
  · rw [if_pos unparsed]
    exact failed _ _
  · rw [if_neg unparsed]
    by_cases failure : rspProtocol.errCode ≠ 0
    · rw [if_pos failure]
      exact failed _ _
    · rw [if_neg failure]
      obtain ⟨later, called, goes, _, stage⟩ := call_back_goes_on asked _ handled
      exact ⟨later, called, ⟨goes.call, goes.armed, goes.finished, goes.canceled⟩, stage⟩

-- The events that the connection of a call reports.
inductive SocketEvent where
  | connectReady (result : ReadyResult)
  | written
  | response (rspProtocol : TinyPBProtocol)
deriving DecidableEq, Repr

def SocketEvent.toCall : SocketEvent → CallEvent
  | .connectReady result => .connectReady result
  | .written => .written
  | .response rspProtocol => .response rspProtocol

theorem socket_event_goes_on (asked : RpcController) (ch : Channel ρ) (event : SocketEvent) (inv : OwnCall asked ch) :
    ∃ later, callStep parseFromString ch event.toCall = some later ∧ CallGoesOn asked ch later ∧
      (later.stage = .idle ↔ ch.stage = .idle) := by
  have still : CallGoesOn asked ch ch := ⟨inv, rfl, fun done => done, rfl⟩
  cases event with
  | connectReady result =>
      by_cases connecting : ch.stage = .connecting
      · obtain ⟨later, connected, goes, begun⟩ := connect_ready_goes_on asked ch result inv
        exact ⟨later, (if_pos connecting).trans connected, goes, by simp [begun, connecting]⟩
      · exact ⟨ch, if_neg connecting, still, Iff.rfl⟩
  | written =>
      by_cases writing : ch.stage = .writing
      · exact ⟨{ ch with stage := .reading }, if_pos writing, ⟨{ inv with }, rfl, fun done => done, rfl⟩,
          by simp [writing]⟩
      · exact ⟨ch, if_neg writing, still, Iff.rfl⟩
  | response rspProtocol =>
      by_cases awaited : ch.stage = .reading ∧ rspProtocol.msgId = ch.reqProtocol.msgId
      · obtain ⟨later, called, goes, stage⟩ := response_goes_on parseFromString asked { ch with stage := .ended } rspProtocol
          { inv with }
        exact ⟨later, (if_pos awaited).trans called, ⟨goes.call, goes.armed, goes.finished, goes.canceled⟩,
          by simp [stage, awaited.1]⟩
      · exact ⟨ch, if_neg awaited, still, Iff.rfl⟩

end Response

-- The timer event of a call is an object of its own, which nobody but the timer
-- keeps. Every other event of the loop has an odd number.
def timeoutEvent (call : Nat) : Nat := 2 * call

def otherEvent (number : Nat) : Nat := 2 * number + 1

def timeoutOf (event : Nat) : Option Nat := if event % 2 = 0 then some (event / 2) else none

-- ticks are the times that the onTimer calls since CallMethod have read.
structure MadeCall where
  deadline : Int
  ticks : List Int := []

def MadeCall.tick (made : MadeCall) (now : Int) : MadeCall := { made with ticks := made.ticks ++ [now] }

def MadeCall.expired (made : MadeCall) : Option Int := made.ticks.find? fun tick => decide (made.deadline ≤ tick)

-- Calls whose clients belong to one event loop, and the timer of that loop. made
-- records the calls that have a deadline and is never read.
structure CallLoop (ρ : Type) where
  timer : Timer
  calls : Nat → Channel ρ
  made : Nat → Option MadeCall := fun _ => none

-- created is the clock reading of the TimerEvent constructor, armed the one of
-- resetArriveTime.
inductive CallLoopAction where
  | call (number : Nat) (arguments : CallArguments) (created armed : Int)
  | socket (number : Nat) (event : SocketEvent)
  | add (number : Nat) (now : Int)
  | delete (number : Nat)
  | onTimer (readings : Readings)

def addTimeout (loop : CallLoop ρ) (number : Nat) (timeout created armed : Int) : CallLoop ρ :=
  let event : TimerEvent := ⟨created + timeout, timeout, false, false, some number⟩
  { loop with
    timer := addTimerEvent (setEvent loop.timer (timeoutEvent number) event) (timeoutEvent number) armed
    made := Function.update loop.made number (some { deadline := created + timeout }) }

-- The calls whose lambda an onTimer has run, in the order of its tasks.
def timeoutsRun (timer later : Timer) : List Nat :=
  (later.invoked.drop timer.invoked.length).filterMap fun call => timeoutOf call.1.event

section Loop

variable (parseFromString : Bytes → Bool × ρ)

def callMethodTurn (loop : CallLoop ρ) (number : Nat) (arguments : CallArguments) (created armed : Int) :
    Option (CallLoop ρ) := do
  let channel := loop.calls number
  let calls ← each (callStep parseFromString) loop.calls (number, .call arguments)
  let later := { loop with calls := calls }
  if channel.timerArmed = false ∧ (calls number).timerArmed = true then
    some (addTimeout later number (channel.controllers channel.argument).timeout created armed)
  else some later

def onTimerTurn (loop : CallLoop ρ) (readings : Readings) : Option (CallLoop ρ) := do
  let timer := onTimer loop.timer readings
  let calls ← run (each (callStep parseFromString)) loop.calls
    ((timeoutsRun loop.timer timer).map fun number => (number, .timeout))
  some ⟨timer, calls, fun number => (loop.made number).map fun made => made.tick readings.now⟩

def callLoopStep (loop : CallLoop ρ) : CallLoopAction → Option (CallLoop ρ)
  | .call number arguments created armed => callMethodTurn parseFromString loop number arguments created armed
  | .socket number event =>
      (each (callStep parseFromString) loop.calls (number, event.toCall)).map fun calls => { loop with calls := calls }
  | .add number now => some { loop with timer := addTimerEvent loop.timer (otherEvent number) now }
  | .delete number => some { loop with timer := deleteTimerEvent loop.timer (otherEvent number) }
  | .onTimer readings => onTimerTurn parseFromString loop readings

end Loop

def ranAt (timer : Timer) (number : Nat) : List Int :=
  (timer.invoked.filter fun call => decide (call.1.event = timeoutEvent number)).map Prod.snd

def expiredAt (made : Option MadeCall) : Option Int := made.bind MadeCall.expired

-- What is asked of a call on the loop: it is finished at once, or it waits for a
-- deadline for which the timer is set and at which it is finished, no sooner and
-- no later.
structure DeadlineKept (loop : CallLoop ρ) (asked : RpcController) (number : Nat) : Prop where
  begun : (loop.calls number).stage ≠ .idle → CallFinished (loop.calls number) ∨ (loop.calls number).timerArmed = true
  waiting : (loop.calls number).timerArmed = true ↔ ∃ made, loop.made number = some made ∧ made.expired = none
  wakes : (loop.calls number).timerArmed = true → ∃ arming, loop.timer.armed = some arming ∧
    ∀ made, loop.made number = some made → arming.expiry ≤ max made.deadline (arming.armedAt + 100)
  ran : ranAt loop.timer number = (expiredAt (loop.made number)).toList
  finished : expiredAt (loop.made number) ≠ none → CallFinished (loop.calls number)
  notEarly : expiredAt (loop.made number) = none →
    ((loop.calls number).controllers (loop.calls number).own).isCanceled = asked.isCanceled
  once : (loop.calls number).closureRuns ≤ 1
  answered : (loop.calls number).closureRuns = 1 →
    ((loop.calls number).controllers (loop.calls number).own).isCanceled = asked.isCanceled

-- The state of one call as far as the timer knows of it.
structure CallHeld (timer : Timer) (asked : RpcController) (ch : Channel ρ) (made : Option MadeCall) (number : Nat) : Prop where
  call : OwnCall asked ch
  idle : ch.stage = .idle → made = none
  unmade : made = none → ch.timerArmed = false ∧ (ch.stage = .idle ∨ CallFinished ch)
  object : ∀ known, made = some known →
    timer.events (timeoutEvent number) = ⟨known.deadline, asked.timeout, false, false, some number⟩
  pending : isPending timer (timeoutEvent number) ↔ ch.timerArmed = true
  waiting : ∀ known, made = some known → (ch.timerArmed = true ↔ known.expired = none)
  ran : ranAt timer number = (expiredAt made).toList
  ended : expiredAt made ≠ none → CallFinished ch
  uncanceled : expiredAt made = none → (ch.controllers ch.own).isCanceled = asked.isCanceled

def TimerArmed (timer : Timer) : Prop := EarliestArmed { timer := timer }

structure CallLoopInv (asked : Nat → RpcController) (loop : CallLoop ρ) : Prop where
  timer : TimerInv loop.timer
  armed : TimerArmed loop.timer
  calls : ∀ number, CallHeld loop.timer (asked number) (loop.calls number) (loop.made number) number

theorem call_loop_sound (asked : Nat → RpcController) (loop : CallLoop ρ) (inv : CallLoopInv asked loop) (number : Nat) :
    DeadlineKept loop (asked number) number := by
  have held := inv.calls number
  refine ⟨?_, ?_, ?_, held.ran, held.ended, held.uncanceled, held.call.once, held.call.answered⟩
  · intro begun
    cases made : loop.made number with
    | none => exact Or.inl ((held.unmade made).2.resolve_left begun)
    | some known =>
        by_cases expired : known.expired = none
        · exact Or.inr ((held.waiting known made).mpr expired)
        · exact Or.inl (held.ended (by simpa [expiredAt, made] using expired))
  · constructor
    · intro armed
      cases made : loop.made number with
      | none => exact absurd armed (by simp [(held.unmade made).1])
      | some known => exact ⟨known, rfl, (held.waiting known made).mp armed⟩
    · rintro ⟨known, made, expired⟩
      exact (held.waiting known made).mpr expired
  · intro armed
    obtain ⟨entry, inside, named⟩ := List.mem_map.mp (held.pending.mpr armed)
    obtain ⟨arming, set, good⟩ := inv.armed rfl (List.ne_nil_of_mem inside)
    refine ⟨arming, set, fun known made => ?_⟩
    have soon := good.soon entry inside
    rw [named, held.object known made] at soon
    exact soon

-- What a call sees of the timer.
structure SameFor (timer later : Timer) (number : Nat) : Prop where
  object : later.events (timeoutEvent number) = timer.events (timeoutEvent number)
  pending : isPending later (timeoutEvent number) ↔ isPending timer (timeoutEvent number)
  ran : ranAt later number = ranAt timer number

theorem held_same (timer later : Timer) (asked : RpcController) (ch : Channel ρ) (made : Option MadeCall) (number : Nat)
    (same : SameFor timer later number) (held : CallHeld timer asked ch made number) :
    CallHeld later asked ch made number :=
  { held with
    object := fun known found => same.object.trans (held.object known found)
    pending := same.pending.trans held.pending
    ran := same.ran.trans held.ran }

theorem held_goes_on (timer : Timer) (asked : RpcController) (ch later : Channel ρ) (made : Option MadeCall) (number : Nat)
    (held : CallHeld timer asked ch made number) (goes : CallGoesOn asked ch later)
    (stage : later.stage = .idle ↔ ch.stage = .idle) : CallHeld timer asked later made number where
  call := goes.call
  idle := fun idle => held.idle (stage.mp idle)
  unmade := fun none => ⟨goes.armed.trans (held.unmade none).1, (held.unmade none).2.imp stage.mpr goes.finished⟩
  object := held.object
  pending := goes.armed.symm ▸ held.pending
  waiting := goes.armed.symm ▸ held.waiting
  ran := held.ran
  ended := fun expired => goes.finished (held.ended expired)
  uncanceled := fun expired => goes.canceled.trans (held.uncanceled expired)

theorem timeout_not_other (call number : Nat) : timeoutEvent call ≠ otherEvent number := by
  rw [timeoutEvent, otherEvent]
  omega

theorem timeout_event_inj (call other : Nat) (same : timeoutEvent call = timeoutEvent other) : call = other := by
  rw [timeoutEvent, timeoutEvent] at same
  omega

theorem reset_timer_armed (timer : Timer) (now : Int) (inv : TimerInv timer) : TimerArmed (timer.resetArriveTime now) := by
  cases pending : timer.pendingEvents with
  | nil =>
      simp only [Timer.resetArriveTime, pending]
      exact fun _ some => absurd pending some
  | cons first rest =>
      simp only [Timer.resetArriveTime, pending]
      intro _ _
      refine (arm_timerfd_for timer first.event now).mpr (fun entry member => ?_)
      have sorted := pending_sorted timer inv
      rw [pending, List.pairwise_cons] at sorted
      rw [← inv.sound.keys entry member, ← inv.sound.keys first (by simp [pending])]
      rw [pending] at member
      rcases List.mem_cons.mp member with rfl | later
      · exact le_max_left _ _
      · exact le_trans (sorted.1 entry later) (le_max_left _ _)

theorem add_timer_armed (timer : Timer) (event : Nat) (now : Int) (inv : TimerInv timer) (armed : TimerArmed timer)
    (absent : ¬ isPending timer event) : TimerArmed (addTimerEvent timer event now) := by
  by_cases first : isResetTimerfd timer event = true
  · rw [addTimerEvent, if_pos first]
    exact reset_timer_armed _ now (emplace_event_keeps timer event inv absent)
  · have kept := add_section_keeps { timer := timer } loopThread event armed rfl
    simp only [addSection, if_neg first] at kept
    rw [addTimerEvent, if_neg first]
    exact kept

theorem fewer_timer_armed (timer later : Timer) (armed : TimerArmed timer) (same : later.armed = timer.armed)
    (fewer : ∀ entry ∈ later.pendingEvents, entry ∈ timer.pendingEvents)
    (events : ∀ entry ∈ later.pendingEvents, later.events entry.event = timer.events entry.event) : TimerArmed later := by
  intro _ some
  obtain ⟨entry, member⟩ := List.exists_mem_of_ne_nil _ some
  obtain ⟨arming, set, good⟩ := armed rfl (List.ne_nil_of_mem (fewer entry member))
  refine ⟨arming, same.trans set, good.running, fun other inside => ?_⟩
  rw [events other inside]
  exact good.soon other (fewer other inside)

theorem on_timer_armed (timer : Timer) (readings : Readings) (inv : TimerInv timer) :
    TimerArmed (onTimer timer readings) := by
  have kept := (on_timer_spec timer readings inv).1
  rw [onTimer, ← reset_arrive_time_invokes] at kept ⊢
  obtain ⟨armed, same⟩ := reset_arrive_time_spec (invokeTasks ((expiredEvents timer readings.now).foldl (renewEvent readings)
    (eraseExpired timer readings.now)) ((expiredEvents timer readings.now).filter (hasTask timer)) readings.now) readings.last
  rw [same] at kept
  exact reset_timer_armed _ readings.last (timer_inv_armed _ _ kept)

theorem add_same_for (timer : Timer) (event number : Nat) (now : Int) (other : timeoutEvent number ≠ event) :
    SameFor timer (addTimerEvent timer event now) number := by
  have pending := add_timer_event_pending timer event (timeoutEvent number) now
  obtain ⟨armed, same⟩ := add_timer_event_spec timer event now
  rw [or_iff_right other] at pending
  rw [same] at pending ⊢
  exact ⟨rfl, pending, rfl⟩

theorem delete_same_for (timer : Timer) (event number : Nat) (inv : TimerInv timer) (other : timeoutEvent number ≠ event) :
    SameFor timer (deleteTimerEvent timer event) number := by
  refine ⟨delete_timer_event_other timer event _ other, ?_, rfl⟩
  rw [deleted_pending timer event _ inv, and_iff_left other]

theorem delete_timer_armed (timer : Timer) (event : Nat) (inv : TimerInv timer) (armed : TimerArmed timer) :
    TimerArmed (deleteTimerEvent timer event) := by
  have left := delete_timer_event_pending timer event inv
  refine fewer_timer_armed timer _ armed rfl (fun entry member => ?_) (fun entry member => ?_)
  · rw [left] at member
    exact List.mem_of_mem_filter member
  · rw [left] at member
    exact delete_timer_event_other timer event entry.event (of_decide_eq_true (List.mem_filter.mp member).2)

-- The event object of a call is set while nothing in the map points to it.
theorem set_event_inv (timer : Timer) (number : Nat) (event : TimerEvent) (inv : TimerInv timer) (armed : TimerArmed timer)
    (absent : ¬ isPending timer number) :
    TimerInv (setEvent timer number event) ∧ TimerArmed (setEvent timer number event) := by
  have untouched : ∀ entry ∈ timer.pendingEvents,
      (setEvent timer number event).events entry.event = timer.events entry.event := by
    intro entry member
    refine set_event_other timer number entry.event event (fun same => absent ?_)
    exact List.mem_map.mpr ⟨entry, member, same⟩
  refine ⟨timer_inv_sublist timer _ inv (List.Sublist.refl _) rfl rfl ?_,
    fewer_timer_armed timer _ armed rfl (fun _ member => member) untouched⟩
  exact fun entry member => congrArg TimerEvent.arriveTime (untouched entry member)

theorem timeout_of_event (event call : Nat) : timeoutOf event = some call ↔ event = timeoutEvent call := by
  rw [timeoutOf, timeoutEvent]
  split
  · simp only [Option.some.injEq]
    omega
  · simp only [reduceCtorEq, false_iff]
    omega

theorem timeouts_run_events (timer : Timer) (readings : Readings) (inv : TimerInv timer) :
    timeoutsRun timer (onTimer timer readings) = (ranEvents timer readings.now).filterMap timeoutOf := by
  rw [timeoutsRun, on_timer_invokes timer readings inv, List.drop_left, ranEvents, List.filterMap_map, List.filterMap_map]
  rfl

theorem timeouts_run_iff (timer : Timer) (readings : Readings) (call : Nat) (inv : TimerInv timer) :
    call ∈ timeoutsRun timer (onTimer timer readings) ↔ timeoutEvent call ∈ ranEvents timer readings.now := by
  simp only [timeouts_run_events timer readings inv, List.mem_filterMap, timeout_of_event, exists_eq_right]

theorem timeouts_run_once (timer : Timer) (readings : Readings) (inv : TimerInv timer) :
    (timeoutsRun timer (onTimer timer readings)).Nodup := by
  rw [timeouts_run_events timer readings inv]
  refine (ran_events_once timer readings.now inv).filterMap ?_
  intro event other call named otherNamed
  exact ((timeout_of_event event call).mp named).trans ((timeout_of_event other call).mp otherNamed).symm

-- The call still waits, and the clock has reached its deadline.
def DueCall (made : Option MadeCall) (now : Int) : Prop :=
  ∃ known, made = some known ∧ known.expired = none ∧ known.deadline ≤ now

theorem expired_tick (known : MadeCall) (now : Int) :
    (known.tick now).expired = known.expired.or (if known.deadline ≤ now then some now else none) := by
  have last : [now].find? (fun tick => decide (known.deadline ≤ tick)) = if known.deadline ≤ now then some now else none := by
    by_cases due : known.deadline ≤ now
    · simp [due]
    · simp [due]
  exact List.find?_append.trans (congrArg (Option.or known.expired) last)

theorem expired_at_tick (made : Option MadeCall) (now : Int) :
    (DueCall made now → expiredAt (made.map fun known => known.tick now) = some now) ∧
      (¬ DueCall made now → expiredAt (made.map fun known => known.tick now) = expiredAt made) := by
  cases made with
  | none => exact ⟨fun ⟨_, wrong, _⟩ => absurd wrong (by simp), fun _ => rfl⟩
  | some known =>
      simp only [expiredAt, Option.map_some, Option.bind_some, expired_tick]
      constructor
      · rintro ⟨_, same, waits, due⟩
        cases same
        rw [waits, if_pos due, Option.none_or]
      · intro spared
        cases expired : known.expired with
        | some tick => rfl
        | none =>
            rw [if_neg (fun due => spared ⟨known, rfl, expired, due⟩)]
            rfl

theorem due_call_iff (timer : Timer) (asked : RpcController) (ch : Channel ρ) (made : Option MadeCall) (number : Nat)
    (now : Int) (inv : TimerInv timer) (held : CallHeld timer asked ch made number) :
    timeoutEvent number ∈ ranEvents timer now ↔ DueCall made now := by
  rw [ran_events_iff timer now _ inv, held.pending]
  constructor
  · rintro ⟨armed, due, _⟩
    cases made with
    | none => exact absurd armed (by simp [(held.unmade rfl).1])
    | some known =>
        rw [held.object known rfl] at due
        exact ⟨known, rfl, (held.waiting known rfl).mp armed, due⟩
  · rintro ⟨known, rfl, waits, due⟩
    rw [held.object known rfl]
    exact ⟨(held.waiting known rfl).mpr waits, due, rfl, rfl⟩

-- What an onTimer leaves of the channel of one call.
structure CallTicks (asked : RpcController) (ch later : Channel ρ) (due : Prop) : Prop where
  call : OwnCall asked later
  stage : later.stage = ch.stage
  ends : due → CallFinished later ∧ later.timerArmed = false
  spared : ¬ due → later = ch

theorem ticks_armed_iff (asked : RpcController) (ch later : Channel ρ) (due : Prop) (ticks : CallTicks asked ch later due) :
    later.timerArmed = true ↔ ch.timerArmed = true ∧ ¬ due := by
  by_cases ends : due
  · simp [ends, (ticks.ends ends).2]
  · simp [ends, ticks.spared ends]

-- The event of a call is never renewed.
theorem held_leaves (timer : Timer) (readings : Readings) (asked : RpcController) (ch : Channel ρ) (made : Option MadeCall)
    (number : Nat) (inv : TimerInv timer) (held : CallHeld timer asked ch made number) :
    (onTimer timer readings).events (timeoutEvent number) = timer.events (timeoutEvent number) ∧
      (isPending (onTimer timer readings) (timeoutEvent number) ↔
        ch.timerArmed = true ∧ ¬ DueCall made readings.now) := by
  obtain ⟨sameObject, leaves⟩ := (on_timer_leaves timer readings (timeoutEvent number) inv).2 (by
    intro again
    obtain ⟨pending, _, _, repeated⟩ := (renewed_events_iff timer readings.now _ inv).mp again
    cases made with
    | none => exact absurd (held.pending.mp pending) (by simp [(held.unmade rfl).1])
    | some known =>
        rw [held.object known rfl] at repeated
        cases repeated)
  refine ⟨sameObject, ?_⟩
  rw [leaves, held.pending]
  refine and_congr_right (fun armed => ?_)
  cases made with
  | none => exact absurd armed (by simp [(held.unmade rfl).1])
  | some known =>
      have waits := (held.waiting known rfl).mp armed
      simp [DueCall, held.object known rfl, waits]

theorem ticked_waiting (known : MadeCall) (now : Int) :
    (known.tick now).expired = none ↔ known.expired = none ∧ ¬ DueCall (some known) now := by
  obtain ⟨expires, spares⟩ := expired_at_tick (some known) now
  by_cases due : DueCall (some known) now
  · have ended : (known.tick now).expired = some now := expires due
    simp [due, ended]
  · have same : (known.tick now).expired = known.expired := spares due
    simp [due, same]

theorem held_ran (timer : Timer) (readings : Readings) (asked : RpcController) (ch : Channel ρ) (made : Option MadeCall)
    (number : Nat) (inv : TimerInv timer) (held : CallHeld timer asked ch made number) :
    ranAt (onTimer timer readings) number = (expiredAt (made.map fun known => known.tick readings.now)).toList := by
  have due_iff := due_call_iff timer asked ch made number readings.now inv held
  obtain ⟨expires, spares⟩ := expired_at_tick made readings.now
  have ticked : ranAt (onTimer timer readings) number = ranAt timer number ++
      if timeoutEvent number ∈ ranEvents timer readings.now then [readings.now] else [] :=
    on_timer_calls timer readings (timeoutEvent number) inv
  rw [ticked, held.ran]
  by_cases due : DueCall made readings.now
  · have waits : expiredAt made = none := by
      obtain ⟨known, rfl, waits, _⟩ := due
      exact waits
    rw [if_pos (due_iff.mpr due), expires due, waits]
    rfl
  · rw [if_neg (fun ran => due (due_iff.mp ran)), spares due, List.append_nil]

theorem held_ticks (timer : Timer) (readings : Readings) (asked : RpcController) (ch later : Channel ρ)
    (made : Option MadeCall) (number : Nat) (inv : TimerInv timer) (held : CallHeld timer asked ch made number)
    (ticks : CallTicks asked ch later (DueCall made readings.now)) :
    CallHeld (onTimer timer readings) asked later (made.map fun known => known.tick readings.now) number := by
  obtain ⟨expires, spares⟩ := expired_at_tick made readings.now
  obtain ⟨sameObject, leaves⟩ := held_leaves timer readings asked ch made number inv held
  have armed_iff := ticks_armed_iff asked ch later _ ticks
  refine ⟨ticks.call, ?_, ?_, ?_, leaves.trans armed_iff.symm, ?_, held_ran timer readings asked ch made number inv held, ?_,
    ?_⟩
  · intro idle
    rw [held.idle (ticks.stage.symm.trans idle), Option.map_none]
  · intro none
    rw [Option.map_eq_none_iff] at none
    have spared : ¬ DueCall made readings.now := by simp [DueCall, none]
    rw [ticks.spared spared]
    exact held.unmade none
  · intro known found
    obtain ⟨before, rfl, rfl⟩ := Option.map_eq_some_iff.mp found
    exact sameObject.trans (held.object before rfl)
  · intro known found
    obtain ⟨before, rfl, rfl⟩ := Option.map_eq_some_iff.mp found
    rw [armed_iff, held.waiting before rfl, ticked_waiting]
  · intro expired
    by_cases due : DueCall made readings.now
    · exact (ticks.ends due).1
    · rw [spares due] at expired
      rw [ticks.spared due]
      exact held.ended expired
  · intro waits
    by_cases due : DueCall made readings.now
    · exact absurd waits (by simp [expires due])
    · rw [spares due] at waits
      rw [ticks.spared due]
      exact held.uncanceled waits

-- What is known of a call after an action: a CallMethod that adds the timer
-- event sets the deadline, and every later onTimer leaves the time it has read.
def knownAfter (asked : Nat → RpcController) (loop later : CallLoop ρ) (number : Nat) : CallLoopAction → Option MadeCall
  | .call called _ created _ =>
      if called = number ∧ (loop.calls number).timerArmed = false ∧ (later.calls number).timerArmed = true then
        some { deadline := created + (asked number).timeout }
      else loop.made number
  | .onTimer readings => (loop.made number).map fun made => made.tick readings.now
  | _ => loop.made number

-- The channels that no action of the step names are left alone, and an onTimer
-- ends the calls that are due, each as if it were alone.
def CallLoopDoes (asked : Nat → RpcController) (loop : CallLoop ρ) (action : CallLoopAction) (later : CallLoop ρ) : Prop :=
  (∀ number, later.made number = knownAfter asked loop later number action) ∧
  match action with
  | .call number _ _ _ => ∀ other, other ≠ number → later.calls other = loop.calls other
  | .socket number _ => ∀ other, other ≠ number → later.calls other = loop.calls other
  | .add _ _ => later.calls = loop.calls
  | .delete _ => later.calls = loop.calls
  | .onTimer readings => ∀ number,
      (DueCall (loop.made number) readings.now → TimesOut (loop.calls number) (later.calls number)) ∧
        (¬ DueCall (loop.made number) readings.now → later.calls number = loop.calls number)

-- An event object is pending at most once.
def CallLoopGuard (loop : CallLoop ρ) : CallLoopAction → Prop
  | .add number _ => ¬ isPending loop.timer (otherEvent number)
  | _ => True

instance (loop : CallLoop ρ) (action : CallLoopAction) : Decidable (CallLoopGuard loop action) :=
  match action with
  | .add number _ => inferInstanceAs (Decidable (¬ isPending loop.timer (otherEvent number)))
  | .call _ _ _ _ => isTrue trivial
  | .socket _ _ => isTrue trivial
  | .delete _ => isTrue trivial
  | .onTimer _ => isTrue trivial

section Steps

variable (parseFromString : Bytes → Bool × ρ) (asked : Nat → RpcController)

theorem socket_turn_keeps (loop : CallLoop ρ) (number : Nat) (event : SocketEvent) (inv : CallLoopInv asked loop) :
    ∃ later, callLoopStep parseFromString loop (.socket number event) = some later ∧ CallLoopInv asked later ∧
      CallLoopDoes asked loop (.socket number event) later := by
  obtain ⟨channel, taken, goes, stage⟩ := socket_event_goes_on parseFromString (asked number) (loop.calls number) event
    (inv.calls number).call
  refine ⟨{ loop with calls := Function.update loop.calls number channel }, ?_, ⟨inv.timer, inv.armed, ?_⟩, ?_⟩
  · simp only [callLoopStep, each, taken, Option.map_some]
  · intro other
    by_cases same : other = number
    · subst same
      simp only [Function.update_self]
      exact held_goes_on _ _ _ channel _ _ (inv.calls other) goes stage
    · simp only [Function.update_of_ne same]
      exact inv.calls other
  · exact ⟨fun _ => rfl, fun other different => Function.update_of_ne different _ _⟩

theorem on_timer_turn_keeps (loop : CallLoop ρ) (readings : Readings) (inv : CallLoopInv asked loop) :
    ∃ later, callLoopStep parseFromString loop (.onTimer readings) = some later ∧ CallLoopInv asked later ∧
      CallLoopDoes asked loop (.onTimer readings) later := by
  have due_iff (number : Nat) : number ∈ timeoutsRun loop.timer (onTimer loop.timer readings) ↔
      DueCall (loop.made number) readings.now :=
    (timeouts_run_iff loop.timer readings number inv.timer).trans
      (due_call_iff loop.timer _ _ _ number readings.now inv.timer (inv.calls number))
  choose ended called ends using fun number =>
    timeout_ends (asked number) (loop.calls number) (inv.calls number).call
  obtain ⟨calls, reached, moved, others⟩ := each_run_once (callStep parseFromString) .timeout ended
    (timeoutsRun loop.timer (onTimer loop.timer readings)) (timeouts_run_once loop.timer readings inv.timer) loop.calls (by
      intro number member
      obtain ⟨known, made, waits, _⟩ := (due_iff number).mp member
      have armed := ((inv.calls number).waiting known made).mpr waits
      rw [callStep, if_pos armed]
      exact called number)
  have due_moved (number : Nat) (due : DueCall (loop.made number) readings.now) : calls number = ended number :=
    moved number ((due_iff number).mpr due)
  have spared (number : Nat) (due : ¬ DueCall (loop.made number) readings.now) : calls number = loop.calls number :=
    others number (fun member => due ((due_iff number).mp member))
  refine ⟨⟨onTimer loop.timer readings, calls, fun number => (loop.made number).map fun made => made.tick readings.now⟩, ?_,
    ⟨(on_timer_spec loop.timer readings inv.timer).1, on_timer_armed loop.timer readings inv.timer, ?_⟩, ?_⟩
  · simp only [callLoopStep, onTimerTurn, reached, Option.bind_eq_bind, Option.bind_some]
  · intro number
    refine held_ticks loop.timer readings (asked number) (loop.calls number) (calls number) _ number inv.timer
      (inv.calls number) ?_
    by_cases due : DueCall (loop.made number) readings.now
    · obtain ⟨call, finished, unarmed, stage, _⟩ := ends number
      rw [due_moved number due]
      exact ⟨call, stage, fun _ => ⟨finished, unarmed⟩, fun wrong => absurd due wrong⟩
    · rw [spared number due]
      exact ⟨(inv.calls number).call, rfl, fun wrong => absurd wrong due, fun _ => rfl⟩
  · refine ⟨fun _ => rfl, fun number => ⟨fun due => ?_, spared number⟩⟩
    obtain ⟨_, _, _, _, timesOut⟩ := ends number
    change TimesOut (loop.calls number) (calls number)
    rw [due_moved number due]
    exact timesOut

theorem refused_held (timer : Timer) (controller : RpcController) (ch later : Channel ρ) (number : Nat)
    (held : CallHeld timer controller ch none number) (begins : CallBegins controller ch later)
    (unarmed : later.timerArmed = false) : CallHeld timer controller later none number := by
  have before := (held.unmade rfl).1
  have finished : CallFinished later := (begins.armed.resolve_left (by simp [unarmed])).2
  refine ⟨begins.call, fun idle => absurd idle begins.begun, fun _ => ⟨unarmed, Or.inr finished⟩, ?_, ?_, ?_, held.ran,
    ?_, ?_⟩
  · intro known wrong
    cases wrong
  · rw [held.pending, before, unarmed]
  · intro known wrong
    cases wrong
  · exact fun wrong => absurd rfl wrong
  · exact fun _ => begins.canceled.trans (held.uncanceled rfl)

theorem made_held (timer : Timer) (controller : RpcController) (ch later : Channel ρ) (number : Nat) (created armed : Int)
    (held : CallHeld timer controller ch none number) (begins : CallBegins controller ch later)
    (waits : later.timerArmed = true) :
    CallHeld (addTimerEvent (setEvent timer (timeoutEvent number)
        ⟨created + controller.timeout, controller.timeout, false, false, some number⟩) (timeoutEvent number) armed) controller
      later (some { deadline := created + controller.timeout }) number := by
  obtain ⟨arming, same⟩ := add_timer_event_spec (setEvent timer (timeoutEvent number)
    ⟨created + controller.timeout, controller.timeout, false, false, some number⟩) (timeoutEvent number) armed
  rw [same]
  refine ⟨begins.call, fun idle => absurd idle begins.begun, ?_, ?_, ?_, ?_, held.ran, ?_, ?_⟩
  · intro wrong
    cases wrong
  · intro known made
    cases made
    exact set_event_same timer (timeoutEvent number) _
  · refine iff_of_true ?_ waits
    simp only [isPending, emplaceEvent, List.mem_map, mem_emplace]
    exact ⟨_, Or.inl rfl, rfl⟩
  · intro known made
    cases made
    exact iff_of_true waits rfl
  · exact fun wrong => absurd rfl wrong
  · exact fun _ => begins.canceled.trans (held.uncanceled rfl)

theorem begun_call_keeps (loop : CallLoop ρ) (number : Nat) (arguments : CallArguments) (created armed : Int)
    (inv : CallLoopInv asked loop) (idle : (loop.calls number).stage = .idle) :
    ∃ later, callMethodTurn parseFromString loop number arguments created armed = some later ∧ CallLoopInv asked later ∧
      CallLoopDoes asked loop (.call number arguments created armed) later := by
  have held := inv.calls number
  have unmade := held.idle idle
  have before := (held.unmade unmade).1
  have absent : ¬ isPending loop.timer (timeoutEvent number) := by
    rw [held.pending, before]
    exact Bool.false_ne_true
  have sameTimeout : ((loop.calls number).controllers (loop.calls number).argument).timeout = (asked number).timeout := by
    rw [held.call.same]
    exact held.call.timeout
  obtain ⟨channel, called, begins⟩ := call_method_begins (asked number) (loop.calls number) arguments held.call
  have others (other : Nat) (different : other ≠ number) : Function.update loop.calls number channel other = loop.calls other :=
    Function.update_of_ne different _ _
  rw [unmade] at held
  simp only [callMethodTurn, each, callStep, if_pos idle, called, Option.map_some, Option.bind_eq_bind, Option.bind_some,
    Function.update_self, before, true_and, sameTimeout]
  cases waits : channel.timerArmed with
  | true =>
      rw [if_pos rfl]
      let event : TimerEvent :=
        ⟨created + (asked number).timeout, (asked number).timeout, false, false, some number⟩
      obtain ⟨setInv, setArmed⟩ := set_event_inv loop.timer (timeoutEvent number) event inv.timer inv.armed absent
      refine ⟨_, rfl, ⟨add_timer_event_keeps _ _ _ setInv absent, add_timer_armed _ _ _ setInv setArmed absent,
        fun other => ?_⟩, fun other => ?_, others⟩
      · by_cases same : other = number
        · subst same
          simp only [addTimeout, Function.update_self]
          exact made_held loop.timer (asked other) (loop.calls other) channel other created armed held begins waits
        · have different : timeoutEvent other ≠ timeoutEvent number :=
            fun equal => same (timeout_event_inj other number equal)
          simp only [addTimeout, Function.update_of_ne same]
          refine held_same _ _ _ _ _ other (add_same_for _ _ other armed different) (held_same loop.timer _ _ _ _ other ?_
            (inv.calls other))
          exact ⟨set_event_other loop.timer _ _ event different, Iff.rfl, rfl⟩
      · by_cases same : other = number
        · subst same
          simp only [addTimeout, knownAfter, Function.update_self, before, waits, and_self, if_true]
        · simp only [addTimeout, knownAfter, Function.update_of_ne same, Ne.symm same, false_and, if_false]
  | false =>
      rw [if_neg Bool.false_ne_true]
      refine ⟨_, rfl, ⟨inv.timer, inv.armed, fun other => ?_⟩, fun other => (if_neg ?_).symm, others⟩
      · by_cases same : other = number
        · subst same
          simp only [Function.update_self, unmade]
          exact refused_held loop.timer (asked other) (loop.calls other) channel other held begins waits
        · simp only [Function.update_of_ne same]
          exact inv.calls other
      · rintro ⟨rfl, _, armed⟩
        simp [waits] at armed

theorem call_turn_does (loop : CallLoop ρ) (number : Nat) (arguments : CallArguments) (created armed : Int)
    (inv : CallLoopInv asked loop) :
    ∃ later, callMethodTurn parseFromString loop number arguments created armed = some later ∧ CallLoopInv asked later ∧
      CallLoopDoes asked loop (.call number arguments created armed) later := by
  by_cases idle : (loop.calls number).stage = .idle
  · exact begun_call_keeps parseFromString asked loop number arguments created armed inv idle
  · -- A channel is called once.
    have still : ¬ ((loop.calls number).timerArmed = false ∧ (loop.calls number).timerArmed = true) := by simp
    refine ⟨loop, ?_, inv, fun other => (if_neg ?_).symm, fun _ _ => rfl⟩
    · simp only [callMethodTurn, each, callStep, if_neg idle, Option.map_some, Option.bind_eq_bind, Option.bind_some,
        Function.update_eq_self, if_neg still]
    · rintro ⟨_, unarmed, armed⟩
      simp [unarmed] at armed

theorem call_loop_step_spec (loop : CallLoop ρ) (action : CallLoopAction) (inv : CallLoopInv asked loop)
    (guard : CallLoopGuard loop action) :
    ∃ later, callLoopStep parseFromString loop action = some later ∧ CallLoopInv asked later ∧
      CallLoopDoes asked loop action later := by
  cases action with
  | call number arguments created armed => exact call_turn_does parseFromString asked loop number arguments created armed inv
  | socket number event => exact socket_turn_keeps parseFromString asked loop number event inv
  | add number now =>
      refine ⟨_, rfl,
        ⟨add_timer_event_keeps _ _ now inv.timer guard, add_timer_armed _ _ now inv.timer inv.armed guard, ?_⟩,
        fun _ => rfl, rfl⟩
      intro call
      exact held_same _ _ _ _ _ call (add_same_for _ _ call now (timeout_not_other call number)) (inv.calls call)
  | delete number =>
      refine ⟨_, rfl, ⟨delete_timer_event_keeps _ _ inv.timer, delete_timer_armed _ _ inv.timer inv.armed, ?_⟩, fun _ => rfl, rfl⟩
      intro call
      exact held_same _ _ _ _ _ call (delete_same_for _ _ call inv.timer (timeout_not_other call number)) (inv.calls call)
  | onTimer readings => exact on_timer_turn_keeps parseFromString asked loop readings inv

def newCallLoop (remoteAddr : Nat → Bool) (response : Nat → ρ) (events : Nat → TimerEvent) : CallLoop ρ where
  timer := { events := events }
  calls := fun number => initialised (remoteAddr number) (fun _ => asked number) 0 0 (response number)

theorem new_call_loop (remoteAddr : Nat → Bool) (response : Nat → ρ) (events : Nat → TimerEvent) :
    CallLoopInv asked (newCallLoop asked remoteAddr response events) := by
  refine ⟨timer_starts events, nothing_pending_armed events, fun number => ?_⟩
  refine ⟨⟨rfl, rfl, rfl, Nat.zero_le 1, fun _ => ⟨rfl, rfl⟩, fun _ => rfl, rfl⟩, fun _ => rfl,
    fun _ => ⟨rfl, Or.inl rfl⟩, ?_, ?_, ?_, rfl, fun wrong => absurd rfl wrong, fun _ => rfl⟩
  · intro known wrong
    cases wrong
  · exact iff_of_false List.not_mem_nil Bool.false_ne_true
  · intro known wrong
    cases wrong

theorem calls_meet_deadlines (remoteAddr : Nat → Bool) (response : Nat → ρ) (events : Nat → TimerEvent)
    (actions : List CallLoopAction)
    (guarded : Guarded (callLoopStep parseFromString) CallLoopGuard (newCallLoop asked remoteAddr response events) actions) :
    Always (callLoopStep parseFromString) (fun loop => ∀ number, DeadlineKept loop (asked number) number)
        (newCallLoop asked remoteAddr response events) actions ∧
      Throughout (callLoopStep parseFromString) (CallLoopDoes asked) (newCallLoop asked remoteAddr response events) actions :=
  guarded_sound (callLoopStep parseFromString) CallLoopGuard (CallLoopInv asked)
    (fun loop => ∀ number, DeadlineKept loop (asked number) number) (CallLoopDoes asked)
    (fun loop inv => call_loop_sound asked loop inv) (call_loop_step_spec parseFromString asked) _ actions
    (new_call_loop asked remoteAddr response events) guarded

end Steps

-- The first call is answered in time, the second one waits for 500 ms in vain,
-- beside a timer of the program that repeats every 200 ms.
def twoControllers (number : Nat) : RpcController := { timeout := if number = 1 then 500 else 1000 }

def repeatedTimer (event : Nat) : TimerEvent := ⟨200, 200, decide (event = otherEvent 0), false, some 7⟩

def twoDeadlines : List CallLoopAction :=
  [.add 0 0, .call 0 ⟨true, [0x31], [0x70], true, [], .success⟩ 10 10, .socket 0 .written,
    .call 1 ⟨true, [0x32], [0x70], true, [], .inProgress⟩ 20 21,
    .onTimer ⟨200, fun _ => 200, fun _ => 201, 201⟩,
    .socket 0 (.response { msgId := [0x31], pbBody := [0x61] }),
    .onTimer ⟨520, fun _ => 520, fun _ => 521, 521⟩, .delete 0,
    .onTimer ⟨1100, fun _ => 1100, fun _ => 1100, 1100⟩]

theorem two_deadlines_met :
    Always (callLoopStep fun body => (true, body))
        (fun loop => ∀ number, DeadlineKept loop (twoControllers number) number)
        (newCallLoop twoControllers (fun _ => true) (fun _ => []) repeatedTimer) twoDeadlines ∧
      Throughout (callLoopStep fun body => (true, body)) (CallLoopDoes twoControllers)
        (newCallLoop twoControllers (fun _ => true) (fun _ => []) repeatedTimer) twoDeadlines :=
  calls_meet_deadlines (fun body => (true, body)) twoControllers (fun _ => true) (fun _ => []) repeatedTimer twoDeadlines
    (by decide +kernel)

example : (run (callLoopStep fun body => (true, body))
      (newCallLoop twoControllers (fun _ => true) (fun _ => []) repeatedTimer) twoDeadlines).map
    (fun loop => [0, 1].map fun number => (ranAt loop.timer number, (loop.calls number).closureRuns,
      ((loop.calls number).controllers 0).errorCode)) = some [([1100], 1, 0), ([520], 0, ERROR_RPC_CALL_TIMEOUT)] := by
  decide +kernel

end Rocket
