import Rocket.RpcChannel

set_option autoImplicit false

namespace Rocket

open Word32 Trace

variable {ρ : Type}

def ClosureOnce (ch : Channel ρ) : Prop := ch.closureRuns ≤ 1 ∧ (ch.outcome = true → ch.closureRuns = 1)

structure CallBase (ch : Channel ρ) : Prop where
  init : ch.isInit = true
  closure : ch.closure = true
  once : ch.closureRuns ≤ 1
  frozen : ch.closureRuns = 1 → (ch.controllers ch.own).isFinished = true
  clean : ch.stage = .connecting → ch.connectErrorCode = 0

structure CallInv (ch : Channel ρ) : Prop extends CallBase ch where
  answered : ch.outcome = true → ch.closureRuns = 1

def Unfinished (ch : Channel ρ) (ref : Nat) : Prop := (ch.controllers ref).isFinished = false

-- An error leaves the closure runnable only on a controller that is not the
-- one callBack looks at.
def MayFail (ch : Channel ρ) (ref : Nat) : Prop := ref ≠ ch.own ∧ Unfinished ch ch.own

def CallReaches (ch : Channel ρ) (arguments : CallArguments) : Prop :=
  arguments.present = true ∧ ch.remoteAddr = true ∧ arguments.serialized = true

section Guard

variable (parseFromString : Bytes → Bool × ρ)

def OutcomeAllowed (ch : Channel ρ) : CallEvent → Prop
  | .call arguments =>
      ch.stage = .idle →
        (CallReaches ch arguments → ∀ sysError, arguments.connected ≠ .failed sysError) ∧
        (¬ CallReaches ch arguments → MayFail ch ch.argument)
  | .connectReady result => ch.stage = .connecting → result = .success
  | .written => True
  | .response rspProtocol =>
      ch.stage = .reading → rspProtocol.msgId = ch.reqProtocol.msgId →
        Unfinished ch ch.own ∧ (parseFromString rspProtocol.pbBody).1 = true ∧ rspProtocol.errCode = 0
  | .timeout => ch.timerArmed = true → Unfinished ch ch.argument ∧ MayFail ch ch.argument

def CallGuard (ch : Channel ρ) (event : CallEvent) : Prop :=
  ch.closureRuns = 0 → OutcomeAllowed parseFromString ch event

end Guard

def Settles (result : Option (Channel ρ)) (condition : Prop) : Prop :=
  ∃ later, result = some later ∧ CallBase later ∧ (ClosureOnce later ↔ condition)

theorem settles_unanswered (ch : Channel ρ) (condition : Prop) (inv : CallInv ch) (holds : condition) :
    Settles (some ch) condition :=
  ⟨ch, rfl, inv.toCallBase, fun _ => holds, fun _ => ⟨inv.once, inv.answered⟩⟩

theorem settles_when (result : Option (Channel ρ)) (unanswered first second : Prop)
    (settles : Settles result (unanswered → first)) (same : first ↔ second) : Settles result (unanswered → second) := by
  obtain ⟨later, taken, base, good⟩ := settles
  exact ⟨later, taken, base, good.trans (forall_congr' fun _ => same)⟩

theorem call_back_spec (ch : Channel ρ) (base : CallBase ch) (outcome : ch.outcome = true) :
    Settles (callBack ch) (ch.closureRuns = 0 → Unfinished ch ch.own) := by
  have once := base.once
  have started : ¬ ch.isInit = false := by simp [base.init]
  by_cases finished : (ch.controllers ch.own).isFinished = true
  · refine ⟨ch, ?_, base, ?_, ?_⟩
    · rw [callBack, if_neg started, if_pos finished]
    · rintro ⟨_, answered⟩ none
      exact absurd (answered outcome) (by omega)
    · intro allowed
      refine ⟨once, fun _ => ?_⟩
      by_contra other
      have unfinished : (ch.controllers ch.own).isFinished = false := allowed (by omega)
      exact absurd (finished.symm.trans unfinished) (by decide)
  · have zero : ch.closureRuns = 0 := by
      by_contra other
      exact finished (base.frozen (by omega))
    refine ⟨modifyController { ch with closureRuns := ch.closureRuns + 1 } ch.own (setFinished true), ?_,
      ⟨base.init, base.closure, by simp only [modifyController]; omega, ?_, base.clean⟩, ?_, ?_⟩
    · rw [callBack, if_neg started, if_neg finished, if_pos base.closure]
    · intro _
      simp only [modifyController, Function.update_self, setFinished]
    · intro _ _
      simpa [Unfinished] using finished
    · intro _
      exact ⟨by simp only [modifyController]; omega, fun _ => by simp only [modifyController]; omega⟩

theorem modify_controller_base (ch : Channel ρ) (ref : Nat) (change : RpcController → RpcController) (base : CallBase ch)
    (monotone : ∀ controller, controller.isFinished = true → (change controller).isFinished = true) :
    CallBase (modifyController ch ref change) := by
  refine ⟨base.init, base.closure, base.once, ?_, base.clean⟩
  intro ran
  have finished := base.frozen ran
  by_cases same : ch.own = ref
  · simp only [modifyController, ← same, Function.update_self]
    exact monotone _ finished
  · simp only [modifyController, Function.update_of_ne same]
    exact finished

theorem fail_call_spec (ch : Channel ρ) (ref : Nat) (errorCode : Int) (errorInfo : Bytes) (base : CallBase ch) :
    Settles (failCall ch ref errorCode errorInfo) (ch.closureRuns = 0 → MayFail ch ref) := by
  have failed := modify_controller_base ch ref (setError errorCode errorInfo) base (fun _ _ => rfl)
  apply settles_when _ _ _ _ (call_back_spec { modifyController ch ref (setError errorCode errorInfo) with outcome := true }
    ⟨failed.init, failed.closure, failed.once, failed.frozen, failed.clean⟩ rfl)
  by_cases same : ref = ch.own
  · simp only [Unfinished, MayFail, modifyController, same, Function.update_self, setError]
    simp
  · simp only [Unfinished, MayFail, modifyController, Function.update_of_ne (Ne.symm same)]
    exact ⟨fun unfinished => ⟨same, unfinished⟩, fun allowed => allowed.2⟩

theorem call_base_with (ch other : Channel ρ) (base : CallBase ch) (init : other.isInit = ch.isInit)
    (closure : other.closure = ch.closure) (runs : other.closureRuns = ch.closureRuns)
    (own : other.controllers other.own = ch.controllers ch.own)
    (clean : other.stage = .connecting → other.connectErrorCode = 0) : CallBase other :=
  ⟨init.trans base.init, closure.trans base.closure, runs.symm ▸ base.once,
    fun ran => own.symm ▸ base.frozen (runs.symm.trans ran), clean⟩

theorem connect_done_spec (ch : Channel ρ) (errorCode : Int) (errorMsg : Bytes) (inv : CallInv ch) :
    Settles (connectDone { ch with connectErrorCode := errorCode, connectErrorMsg := errorMsg })
      (ch.closureRuns = 0 → errorCode = 0) := by
  by_cases success : errorCode = 0
  · rw [connectDone, if_neg (by simpa using success)]
    exact settles_unanswered _ _
      ⟨call_base_with ch _ inv.toCallBase rfl rfl rfl rfl (by intro wrong; cases wrong), inv.answered⟩ (fun _ => success)
  · rw [connectDone, if_pos success]
    apply settles_when _ _ _ _ (fail_call_spec
      { ch with connectErrorCode := errorCode, connectErrorMsg := errorMsg, stage := .ended } ch.own errorCode errorMsg
      (call_base_with ch _ inv.toCallBase rfl rfl rfl rfl (by intro wrong; cases wrong)))
    exact ⟨fun allowed => absurd rfl allowed.1, fun zero => absurd zero success⟩

theorem connect_spec (ch : Channel ρ) (result : ConnectResult) (inv : CallInv ch) (clean : ch.connectErrorCode = 0) :
    Settles (connect ch result) (ch.closureRuns = 0 → ∀ sysError, result ≠ .failed sysError) := by
  cases result with
  | success =>
      apply settles_when _ _ _ _ (connect_done_spec ch ch.connectErrorCode ch.connectErrorMsg inv)
      simp [clean]
  | inProgress =>
      refine settles_unanswered { ch with stage := .connecting } _ ⟨?_, inv.answered⟩ (by intro _ _ wrong; cases wrong)
      exact call_base_with ch _ inv.toCallBase rfl rfl rfl rfl (fun _ => clean)
  | failed sysError =>
      apply settles_when _ _ _ _ (connect_done_spec ch ERROR_FAILED_CONNECT _ inv)
      simp [ERROR_FAILED_CONNECT]

theorem connect_ready_spec (ch : Channel ρ) (result : ReadyResult) (inv : CallInv ch) (clean : ch.connectErrorCode = 0) :
    Settles (connectReady ch result) (ch.closureRuns = 0 → result = .success) := by
  cases result with
  | success =>
      apply settles_when _ _ _ _ (connect_done_spec ch ch.connectErrorCode ch.connectErrorMsg inv)
      simp [clean]
  | failed inProgress sysError =>
      cases inProgress with
      | true =>
          apply settles_when _ _ _ _ (connect_done_spec ch ERROR_PEER_CLOSED _ inv)
          simp [ERROR_PEER_CLOSED]
      | false =>
          apply settles_when _ _ _ _ (connect_done_spec ch ERROR_FAILED_CONNECT _ inv)
          simp [ERROR_FAILED_CONNECT]

theorem refuse_call_spec (ch : Channel ρ) (errorCode : Int) (errorInfo : Bytes) (inv : CallInv ch) :
    Settles (failCall { ch with stage := .ended } ch.argument errorCode errorInfo)
      (ch.closureRuns = 0 → MayFail ch ch.argument) :=
  fail_call_spec { ch with stage := .ended } ch.argument errorCode errorInfo
    (call_base_with ch _ inv.toCallBase rfl rfl rfl rfl (by intro wrong; cases wrong))

theorem modify_controller_inv (ch : Channel ρ) (ref : Nat) (change : RpcController → RpcController) (inv : CallInv ch)
    (monotone : ∀ controller, controller.isFinished = true → (change controller).isFinished = true) :
    CallInv (modifyController ch ref change) :=
  ⟨modify_controller_base ch ref change inv.toCallBase monotone, inv.answered⟩

theorem may_fail_named (ch : Channel ρ) (ref named : Nat) (msgId : Bytes) :
    MayFail (modifyController ch named (setMsgId msgId)) ref ↔ MayFail ch ref := by
  by_cases same : ch.own = named
  · simp only [MayFail, Unfinished, modifyController, same, Function.update_self, setMsgId]
  · simp only [MayFail, Unfinished, modifyController, Function.update_of_ne same]

theorem call_method_spec (ch : Channel ρ) (arguments : CallArguments) (inv : CallInv ch) :
    Settles (callMethod ch arguments) (ch.closureRuns = 0 →
      (CallReaches ch arguments → ∀ sysError, arguments.connected ≠ .failed sysError) ∧
      (¬ CallReaches ch arguments → MayFail ch ch.argument)) := by
  have refused (reach : ¬ CallReaches ch arguments) :
      MayFail ch ch.argument ↔ (CallReaches ch arguments → ∀ sysError, arguments.connected ≠ .failed sysError) ∧
        (¬ CallReaches ch arguments → MayFail ch ch.argument) := by
    simp [reach]
  by_cases absent : arguments.present = false
  · rw [callMethod, if_pos absent]
    apply settles_when _ _ _ _ (refuse_call_spec ch _ _ inv)
    apply refused
    simp [CallReaches, absent]
  · by_cases unknown : ch.remoteAddr = false
    · rw [callMethod, if_neg absent, if_pos unknown]
      apply settles_when _ _ _ _ (refuse_call_spec ch _ _ inv)
      apply refused
      simp [CallReaches, unknown]
    · have fresh : CallInv { ch with connectErrorCode := 0, connectErrorMsg := [] } :=
        ⟨call_base_with ch _ inv.toCallBase rfl rfl rfl rfl (fun _ => rfl), inv.answered⟩
      obtain ⟨named, naming, namedInv, sameRef, sameRuns, clean, mayFail⟩ : ∃ named : Channel ρ,
          (if (ch.controllers ch.argument).msgId = [] then
              modifyController { ch with connectErrorCode := 0, connectErrorMsg := [] } ch.argument
                (setMsgId arguments.freshMsgId)
            else { ch with connectErrorCode := 0, connectErrorMsg := [] }) = named ∧ CallInv named ∧
          named.argument = ch.argument ∧ named.closureRuns = ch.closureRuns ∧ named.connectErrorCode = 0 ∧
          (MayFail named ch.argument ↔ MayFail ch ch.argument) := by
        by_cases unnamed : (ch.controllers ch.argument).msgId = []
        · exact ⟨_, if_pos unnamed, modify_controller_inv _ _ _ fresh (fun _ done => done), rfl, rfl, rfl,
            may_fail_named { ch with connectErrorCode := 0, connectErrorMsg := [] } ch.argument ch.argument _⟩
        · exact ⟨_, if_neg unnamed, fresh, rfl, rfl, rfl, Iff.rfl⟩
      have started : ¬ named.isInit = false := by simp [namedInv.init]
      simp only [callMethod, if_neg absent, if_neg unknown, naming, if_neg started]
      rw [← sameRuns]
      by_cases unserialized : arguments.serialized = false
      · rw [if_pos unserialized]
        apply settles_when _ _ _ _ (refuse_call_spec named _ _ namedInv)
        rw [sameRef, mayFail]
        apply refused
        simp [CallReaches, unserialized]
      · rw [if_neg unserialized]
        have reach : CallReaches ch arguments :=
          ⟨by simpa using absent, by simpa using unknown, by simpa using unserialized⟩
        have ready : CallInv { named with
            reqProtocol := { setMethodName { msgId := (named.controllers named.argument).msgId } arguments.methodName with
              pbBody := arguments.pbBody }
            timerArmed := true } :=
          ⟨call_base_with named _ namedInv.toCallBase rfl rfl rfl rfl (fun _ => clean), namedInv.answered⟩
        apply settles_when _ _ _ _ (connect_spec _ arguments.connected ready clean)
        simp [reach]

theorem timeout_callback_spec (ch : Channel ρ) (inv : CallInv ch) :
    Settles (timeoutCallback ch) (ch.closureRuns = 0 → Unfinished ch ch.argument ∧ MayFail ch ch.argument) := by
  have once := inv.once
  by_cases finished : (ch.controllers ch.argument).isFinished = true
  · rw [timeoutCallback, if_pos finished]
    refine ⟨_, rfl, call_base_with ch _ inv.toCallBase rfl rfl rfl rfl inv.clean, ?_, ?_⟩
    · rintro ⟨_, answered⟩ none
      exact absurd ((answered rfl).symm.trans none) (by decide)
    · intro allowed
      refine ⟨once, fun _ => ?_⟩
      obtain none | ran := Nat.le_one_iff_eq_zero_or_eq_one.mp once
      · have unfinished : (ch.controllers ch.argument).isFinished = false := (allowed none).1
        exact absurd (finished.symm.trans unfinished) (by decide)
      · exact ran
  · rw [timeoutCallback, if_neg finished]
    apply settles_when _ _ _ _ (fail_call_spec _ _ _ _
      (modify_controller_base ch ch.argument startCancel inv.toCallBase (fun _ _ => rfl)))
    have unfinished : Unfinished ch ch.argument := by simpa [Unfinished] using finished
    by_cases same : ch.argument = ch.own
    · simp [MayFail, modifyController, same]
    · simp [MayFail, Unfinished, modifyController, Function.update_of_ne (Ne.symm same), same,
        show (ch.controllers ch.argument).isFinished = false from unfinished]

section Response

variable (parseFromString : Bytes → Bool × ρ)

theorem response_callback_spec (ch : Channel ρ) (rspProtocol : TinyPBProtocol) (inv : CallInv ch) :
    Settles (responseCallback parseFromString ch rspProtocol) (ch.closureRuns = 0 →
      Unfinished ch ch.own ∧ (parseFromString rspProtocol.pbBody).1 = true ∧ rspProtocol.errCode = 0) := by
  have handled : CallBase { ch with response := (parseFromString rspProtocol.pbBody).2, outcome := true } :=
    call_base_with ch _ inv.toCallBase rfl rfl rfl rfl inv.clean
  simp only [responseCallback]
  by_cases unparsed : (parseFromString rspProtocol.pbBody).1 = false
  · rw [if_pos unparsed]
    apply settles_when _ _ _ _ (fail_call_spec _ _ _ _ handled)
    simp [MayFail, unparsed]
  · have parsed : (parseFromString rspProtocol.pbBody).1 = true := by simpa using unparsed
    rw [if_neg unparsed]
    by_cases success : rspProtocol.errCode = 0
    · rw [if_neg (by simpa using success)]
      apply settles_when _ _ _ _ (call_back_spec _ handled rfl)
      exact ⟨fun unfinished => ⟨unfinished, parsed, success⟩, fun allowed => allowed.1⟩
    · rw [if_pos success]
      apply settles_when _ _ _ _ (fail_call_spec _ _ _ _ handled)
      simp [MayFail, success]

theorem call_step_spec (ch : Channel ρ) (event : CallEvent) (inv : CallInv ch) :
    Settles (callStep parseFromString ch event) (CallGuard parseFromString ch event) := by
  rw [CallGuard]
  cases event with
  | call arguments =>
      by_cases idle : ch.stage = .idle
      · rw [callStep, if_pos idle]
        apply settles_when _ _ _ _ (call_method_spec ch arguments inv)
        simp [OutcomeAllowed, idle]
      · rw [callStep, if_neg idle]
        exact settles_unanswered ch _ inv (fun _ now => absurd now idle)
  | connectReady result =>
      by_cases connecting : ch.stage = .connecting
      · rw [callStep, if_pos connecting]
        apply settles_when _ _ _ _ (connect_ready_spec ch result inv (inv.clean connecting))
        simp [OutcomeAllowed, connecting]
      · rw [callStep, if_neg connecting]
        exact settles_unanswered ch _ inv (fun _ now => absurd now connecting)
  | written =>
      by_cases writing : ch.stage = .writing
      · rw [callStep, if_pos writing]
        refine settles_unanswered _ _ ⟨?_, inv.answered⟩ (fun _ => trivial)
        exact call_base_with ch _ inv.toCallBase rfl rfl rfl rfl (by intro wrong; cases wrong)
      · rw [callStep, if_neg writing]
        exact settles_unanswered ch _ inv (fun _ => trivial)
  | response rspProtocol =>
      by_cases awaited : ch.stage = .reading ∧ rspProtocol.msgId = ch.reqProtocol.msgId
      · rw [callStep, if_pos awaited]
        apply settles_when _ _ _ _ (response_callback_spec parseFromString
          { ch with stage := .ended } rspProtocol ⟨?_, inv.answered⟩)
        · simp [OutcomeAllowed, awaited.1, awaited.2, Unfinished]
        · exact call_base_with ch _ inv.toCallBase rfl rfl rfl rfl (by intro wrong; cases wrong)
      · rw [callStep, if_neg awaited]
        exact settles_unanswered ch _ inv (fun _ reading same => absurd ⟨reading, same⟩ awaited)
  | timeout =>
      by_cases armed : ch.timerArmed = true
      · rw [callStep, if_pos armed]
        apply settles_when _ _ _ _ (timeout_callback_spec { ch with timerArmed := false }
          ⟨call_base_with ch _ inv.toCallBase rfl rfl rfl rfl inv.clean, inv.answered⟩)
        simp [OutcomeAllowed, armed, Unfinished, MayFail]
      · rw [callStep, if_neg armed]
        exact settles_unanswered ch _ inv (fun _ now => absurd now armed)

theorem call_step_keeps (ch : Channel ρ) (event : CallEvent) (inv : CallInv ch)
    (guard : CallGuard parseFromString ch event) :
    ∃ later, callStep parseFromString ch event = some later ∧ CallInv later := by
  obtain ⟨later, taken, base, good⟩ := call_step_spec parseFromString ch event inv
  exact ⟨later, taken, base, (good.mpr guard).2⟩

theorem call_step_forced (ch later : Channel ρ) (event : CallEvent) (inv : CallInv ch)
    (taken : callStep parseFromString ch event = some later) (once : ClosureOnce later) :
    CallGuard parseFromString ch event := by
  obtain ⟨same, sameTaken, _, good⟩ := call_step_spec parseFromString ch event inv
  cases taken.symm.trans sameTaken
  exact good.mp once

theorem closure_once_iff (remoteAddr : Bool) (controllers : Nat → RpcController) (own argument : Nat) (response : ρ)
    (events : List CallEvent) :
    Always (callStep parseFromString) ClosureOnce (initialised remoteAddr controllers own argument response) events ↔
      Guarded (callStep parseFromString) (CallGuard parseFromString)
        (initialised remoteAddr controllers own argument response) events := by
  have start : CallInv (initialised remoteAddr controllers own argument response) :=
    ⟨⟨rfl, rfl, Nat.zero_le 1, fun ran => absurd ran Nat.zero_ne_one, fun _ => rfl⟩,
      fun wrong => absurd wrong Bool.false_ne_true⟩
  exact always_iff_guarded (callStep parseFromString) (CallGuard parseFromString) CallInv ClosureOnce
    (fun _ inv => ⟨inv.once, inv.answered⟩) (call_step_keeps parseFromString)
    (fun ch event later inv taken once => call_step_forced parseFromString ch later event inv taken once)
    _ events start

end Response

-- The usual call, in which Init and CallMethod get the same controller, runs
-- into its timeout: the controller is finished and the closure has not run.
def timedOutCall : List CallEvent :=
  [.call ⟨true, [0x31], [0x70], true, [], .inProgress⟩, .connectReady .success, .written, .timeout]

theorem timed_out_call_ends :
    (run (callStep (fun body => (true, body))) (initialised true (fun _ => {}) 0 0 []) timedOutCall).map
      (fun ch => (ch.outcome, ch.closureRuns, (ch.controllers 0).errorCode, (ch.controllers 0).isFinished)) =
        some (true, 0, ERROR_RPC_CALL_TIMEOUT, true) := by decide

theorem timed_out_call_diverges :
    ¬ Always (callStep (fun body => (true, body))) ClosureOnce (initialised true (fun _ => {}) 0 0 []) timedOutCall := by
  intro always
  obtain ⟨last, reached, _, answered⟩ := always_run _ _ _ _ always
  have ended := timed_out_call_ends
  rw [reached, Option.map_some, Option.some.injEq, Prod.mk.injEq, Prod.mk.injEq] at ended
  obtain ⟨outcome, none, _⟩ := ended
  exact absurd ((answered outcome).symm.trans none) (by decide)

end Rocket
