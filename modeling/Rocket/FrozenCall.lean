import Rocket.RpcChannel

set_option autoImplicit false

namespace Rocket

open Word32 Trace

variable {ρ : Type}

-- What a caller can read from a controller and from the response message.
structure CallResult (ρ : Type) where
  errorCode : Int
  errorInfo : Bytes
  isFailed : Bool
  isCanceled : Bool
  response : ρ
deriving DecidableEq, Repr

def callResult (ch : Channel ρ) (ref : Nat) : CallResult ρ :=
  ⟨(ch.controllers ref).errorCode, (ch.controllers ref).errorInfo, (ch.controllers ref).isFailed,
    (ch.controllers ref).isCanceled, ch.response⟩

-- A controller that was finished before the call says nothing about the call.
structure Settled (ch : Channel ρ) (ref : Nat) : Prop where
  outcome : ch.outcome = true
  finished : (ch.controllers ref).isFinished = true

instance (ch : Channel ρ) (ref : Nat) : Decidable (Settled ch ref) :=
  decidable_of_iff (ch.outcome = true ∧ (ch.controllers ref).isFinished = true)
    ⟨fun ⟨outcome, finished⟩ => ⟨outcome, finished⟩, fun settled => ⟨settled.outcome, settled.finished⟩⟩

-- No response arrives for a settled call, and its connect does not fail.
def FreezeGuard (ch : Channel ρ) : CallEvent → Prop
  | .response rspProtocol =>
      ch.stage = .reading → rspProtocol.msgId = ch.reqProtocol.msgId → ¬ Settled ch ch.own ∧ ¬ Settled ch ch.argument
  | .connectReady result => ch.stage = .connecting → result ≠ .success → ¬ Settled ch ch.own
  | _ => True

instance (ch : Channel ρ) (event : CallEvent) : Decidable (FreezeGuard ch event) := by
  unfold FreezeGuard
  split <;> infer_instance

def HeldBy (ch : Channel ρ) (ref : Nat) : Prop := ref = ch.own ∨ ref = ch.argument

def Freezes (ch later : Channel ρ) : Prop :=
  ∀ ref, HeldBy ch ref → Settled ch ref → (HeldBy later ref ∧ Settled later ref) ∧ callResult later ref = callResult ch ref

structure FreezeInv (ch : Channel ρ) : Prop where
  init : ch.isInit = true
  fresh : ch.stage = .idle → ch.outcome = false ∧ ch.timerArmed = false
  clean : ch.stage = .connecting → ch.connectErrorCode = 0

structure SameCall (ch later : Channel ρ) : Prop where
  init : later.isInit = ch.isInit
  stage : later.stage = ch.stage
  own : later.own = ch.own
  argument : later.argument = ch.argument
  connectErrorCode : later.connectErrorCode = ch.connectErrorCode

structure Untouched (ch later : Channel ρ) (ref : Nat) : Prop where
  result : callResult later ref = callResult ch ref
  finished : (ch.controllers ref).isFinished = true → (later.controllers ref).isFinished = true
  outcome : ch.outcome = true → later.outcome = true

theorem same_call_inv (ch later : Channel ρ) (same : SameCall ch later) (inv : FreezeInv ch) (left : ch.stage ≠ .idle) :
    FreezeInv later :=
  ⟨same.init.trans inv.init, fun idle => absurd (same.stage.symm.trans idle) left,
    fun connecting => same.connectErrorCode.trans (inv.clean (same.stage.symm.trans connecting))⟩

theorem untouched_freezes (ch later : Channel ρ) (own : later.own = ch.own) (argument : later.argument = ch.argument)
    (untouched : ∀ ref, HeldBy ch ref → Settled ch ref → Untouched ch later ref) : Freezes ch later := by
  intro ref held settled
  have kept := untouched ref held settled
  refine ⟨⟨?_, kept.outcome settled.outcome, kept.finished settled.finished⟩, kept.result⟩
  rw [HeldBy, own, argument]
  exact held

theorem freezes_same (ch : Channel ρ) : Freezes ch ch := fun _ held settled => ⟨⟨held, settled⟩, rfl⟩

theorem modify_controller_untouched (ch : Channel ρ) (ref other : Nat) (change : RpcController → RpcController)
    (different : other ≠ ref) : Untouched ch (modifyController ch ref change) other := by
  have same : (modifyController ch ref change).controllers other = ch.controllers other :=
    Function.update_of_ne different _ _
  refine ⟨?_, fun finished => same ▸ finished, fun outcome => outcome⟩
  simp only [callResult, same]
  rfl

theorem set_finished_untouched (ch : Channel ρ) (ref other : Nat) :
    Untouched ch (modifyController ch ref (setFinished true)) other := by
  by_cases same : other = ref
  · subst same
    have now : (modifyController ch other (setFinished true)).controllers other = setFinished true (ch.controllers other) :=
      Function.update_self _ _ _
    refine ⟨?_, fun _ => by rw [now]; rfl, fun outcome => outcome⟩
    simp only [callResult, now]
    rfl
  · exact modify_controller_untouched ch ref other _ same

theorem untouched_trans (ch middle later : Channel ρ) (ref : Nat) (first : Untouched ch middle ref)
    (second : Untouched middle later ref) : Untouched ch later ref :=
  ⟨second.result.trans first.result, fun finished => second.finished (first.finished finished),
    fun outcome => second.outcome (first.outcome outcome)⟩

theorem call_back_frame (ch : Channel ρ) (init : ch.isInit = true) :
    ∃ later, callBack ch = some later ∧ SameCall ch later ∧ ∀ ref, Untouched ch later ref := by
  have started : ¬ ch.isInit = false := by simp [init]
  have itself : ∀ ref, Untouched ch ch ref := fun _ => ⟨rfl, fun finished => finished, fun outcome => outcome⟩
  by_cases finished : (ch.controllers ch.own).isFinished = true
  · exact ⟨ch, by rw [callBack, if_neg started, if_pos finished], ⟨rfl, rfl, rfl, rfl, rfl⟩, itself⟩
  · by_cases closure : ch.closure = true
    · refine ⟨modifyController { ch with closureRuns := ch.closureRuns + 1 } ch.own (setFinished true),
        by rw [callBack, if_neg started, if_neg finished, if_pos closure], ⟨rfl, rfl, rfl, rfl, rfl⟩, ?_⟩
      intro ref
      exact untouched_trans ch { ch with closureRuns := ch.closureRuns + 1 } _ ref ⟨rfl, fun done => done, fun done => done⟩
        (set_finished_untouched _ ch.own ref)
    · exact ⟨ch, by rw [callBack, if_neg started, if_neg finished, if_neg closure], ⟨rfl, rfl, rfl, rfl, rfl⟩, itself⟩

theorem fail_call_frame (ch : Channel ρ) (ref : Nat) (errorCode : Int) (errorInfo : Bytes) (init : ch.isInit = true) :
    ∃ later, failCall ch ref errorCode errorInfo = some later ∧ SameCall ch later ∧
      ∀ other, other ≠ ref → Untouched ch later other := by
  obtain ⟨later, called, same, untouched⟩ := call_back_frame
    { modifyController ch ref (setError errorCode errorInfo) with outcome := true } init
  refine ⟨later, called, ⟨same.init, same.stage, same.own, same.argument, same.connectErrorCode⟩, ?_⟩
  intro other different
  have failed := modify_controller_untouched ch ref other (setError errorCode errorInfo) different
  exact untouched_trans ch { modifyController ch ref (setError errorCode errorInfo) with outcome := true } later other
    ⟨failed.result, failed.finished, fun _ => rfl⟩ (untouched other)

theorem connect_done_frame (ch : Channel ρ) (init : ch.isInit = true) :
    ∃ later, connectDone ch = some later ∧ later.isInit = true ∧ later.stage ≠ .idle ∧ later.stage ≠ .connecting ∧
      later.own = ch.own ∧ later.argument = ch.argument ∧
      (ch.connectErrorCode = 0 → ∀ ref, Untouched ch later ref) ∧ ∀ other, other ≠ ch.own → Untouched ch later other := by
  by_cases success : ch.connectErrorCode = 0
  · refine ⟨{ ch with stage := .writing }, by rw [connectDone, if_neg (by simpa using success)], init, ?_, ?_, rfl, rfl, ?_, ?_⟩
    · exact fun wrong => nomatch wrong
    · exact fun wrong => nomatch wrong
    · exact fun _ ref => ⟨rfl, fun finished => finished, fun outcome => outcome⟩
    · exact fun other _ => ⟨rfl, fun finished => finished, fun outcome => outcome⟩
  · obtain ⟨later, failed, same, untouched⟩ := fail_call_frame { ch with stage := .ended } ch.own ch.connectErrorCode
      ch.connectErrorMsg init
    refine ⟨later, by rw [connectDone, if_pos success, failed], same.init.trans init, ?_, ?_, same.own, same.argument,
      fun zero => absurd zero success, ?_⟩
    · rw [same.stage]
      exact fun wrong => nomatch wrong
    · rw [same.stage]
      exact fun wrong => nomatch wrong
    · intro other different
      have kept := untouched other different
      exact ⟨kept.result, kept.finished, kept.outcome⟩

-- Every way out of CallMethod leaves the call started, and connecting only
-- without an error.
theorem connect_started (ch : Channel ρ) (result : ConnectResult) (init : ch.isInit = true)
    (clean : ch.connectErrorCode = 0) : ∃ later, connect ch result = some later ∧ FreezeInv later := by
  cases result with
  | success =>
      obtain ⟨later, done, started, left, settled, _⟩ := connect_done_frame ch init
      exact ⟨later, done, started, fun idle => absurd idle left, fun connecting => absurd connecting settled⟩
  | inProgress => exact ⟨_, rfl, init, (fun wrong => nomatch wrong), fun _ => clean⟩
  | failed sysError =>
      obtain ⟨later, done, started, left, settled, _⟩ := connect_done_frame { ch with
        connectErrorCode := ERROR_FAILED_CONNECT
        connectErrorMsg := text "connect error, sys error = " ++ sysError } init
      exact ⟨later, done, started, fun idle => absurd idle left, fun connecting => absurd connecting settled⟩

theorem refuse_call_started (ch : Channel ρ) (ref : Nat) (errorCode : Int) (errorInfo : Bytes) (init : ch.isInit = true) :
    ∃ later, failCall { ch with stage := .ended } ref errorCode errorInfo = some later ∧ FreezeInv later := by
  obtain ⟨later, failed, same, _⟩ := fail_call_frame { ch with stage := .ended } ref errorCode errorInfo init
  refine ⟨later, failed, same.init.trans init, ?_, ?_⟩
  · rw [same.stage]
    exact fun wrong => nomatch wrong
  · rw [same.stage]
    exact fun wrong => nomatch wrong

theorem call_method_started (ch : Channel ρ) (arguments : CallArguments) (init : ch.isInit = true) :
    ∃ later, callMethod ch arguments = some later ∧ FreezeInv later := by
  by_cases absent : arguments.present = false
  · rw [callMethod, if_pos absent]
    exact refuse_call_started ch _ _ _ init
  · by_cases unknown : ch.remoteAddr = false
    · rw [callMethod, if_neg absent, if_pos unknown]
      exact refuse_call_started ch _ _ _ init
    · obtain ⟨named, naming, namedInit, clean⟩ : ∃ named : Channel ρ,
          (if (ch.controllers ch.argument).msgId = [] then
              modifyController { ch with connectErrorCode := 0, connectErrorMsg := [] } ch.argument
                (setMsgId arguments.freshMsgId)
            else { ch with connectErrorCode := 0, connectErrorMsg := [] }) = named ∧ named.isInit = true ∧
          named.connectErrorCode = 0 := by
        by_cases unnamed : (ch.controllers ch.argument).msgId = []
        · exact ⟨_, if_pos unnamed, init, rfl⟩
        · exact ⟨_, if_neg unnamed, init, rfl⟩
      have started : ¬ named.isInit = false := by simp [namedInit]
      simp only [callMethod, if_neg absent, if_neg unknown, naming, if_neg started]
      by_cases unserialized : arguments.serialized = false
      · rw [if_pos unserialized]
        exact refuse_call_started named _ _ _ namedInit
      · rw [if_neg unserialized]
        exact connect_started _ arguments.connected namedInit clean

theorem connect_ready_frame (ch : Channel ρ) (result : ReadyResult) (inv : FreezeInv ch) (clean : ch.connectErrorCode = 0)
    (allowed : result ≠ .success → ¬ Settled ch ch.own) :
    ∃ later, connectReady ch result = some later ∧ FreezeInv later ∧ Freezes ch later := by
  have failed (errorCode : Int) (errorMsg : Bytes) (wrong : ¬ Settled ch ch.own) :
      ∃ later, connectDone { ch with connectErrorCode := errorCode, connectErrorMsg := errorMsg } = some later ∧
        FreezeInv later ∧ Freezes ch later := by
    obtain ⟨later, done, init, left, started, own, argument, _, others⟩ := connect_done_frame
      { ch with connectErrorCode := errorCode, connectErrorMsg := errorMsg } inv.init
    refine ⟨later, done, ⟨init, fun idle => absurd idle left, fun connecting => absurd connecting started⟩, ?_⟩
    refine untouched_freezes ch later own argument (fun ref _ settled => ?_)
    have kept := others ref (fun same => wrong (same ▸ settled))
    exact ⟨kept.result, kept.finished, kept.outcome⟩
  cases result with
  | success =>
      obtain ⟨later, done, init, left, started, own, argument, kept, _⟩ := connect_done_frame ch inv.init
      exact ⟨later, done, ⟨init, fun idle => absurd idle left, fun connecting => absurd connecting started⟩,
        untouched_freezes ch later own argument (fun ref _ _ => kept clean ref)⟩
  | failed inProgress sysError =>
      have wrong := allowed (fun same => nomatch same)
      cases inProgress with
      | true => exact failed _ _ wrong
      | false => exact failed _ _ wrong

-- A timer that still finds the controller of CallMethod unfinished can only
-- meet a settled controller of Init beside it.
theorem timeout_frame (ch : Channel ρ) (inv : FreezeInv ch) (left : ch.stage ≠ .idle) :
    ∃ later, timeoutCallback ch = some later ∧ FreezeInv later ∧ Freezes ch later := by
  by_cases finished : (ch.controllers ch.argument).isFinished = true
  · refine ⟨{ ch with outcome := true }, by rw [timeoutCallback, if_pos finished],
      ⟨inv.init, fun idle => absurd idle left, inv.clean⟩, untouched_freezes ch _ rfl rfl (fun ref _ _ => ?_)⟩
    exact ⟨rfl, fun done => done, fun _ => rfl⟩
  · rw [timeoutCallback, if_neg finished]
    obtain ⟨later, failed, same, untouched⟩ := fail_call_frame (modifyController ch ch.argument startCancel) ch.argument
      ERROR_RPC_CALL_TIMEOUT (timeoutText ((modifyController ch ch.argument startCancel).controllers ch.argument)) inv.init
    refine ⟨later, failed, same_call_inv ch later ⟨same.init, same.stage, same.own, same.argument, same.connectErrorCode⟩
      inv left, untouched_freezes ch later same.own same.argument (fun ref _ settled => ?_)⟩
    have different : ref ≠ ch.argument := fun equal => finished (equal ▸ settled.finished)
    exact untouched_trans ch _ later ref (modify_controller_untouched ch ch.argument ref startCancel different)
      (untouched ref different)

section Response

variable (parseFromString : Bytes → Bool × ρ)

theorem response_started (ch : Channel ρ) (rspProtocol : TinyPBProtocol) (init : ch.isInit = true)
    (ended : ch.stage = .ended) :
    ∃ later, responseCallback parseFromString ch rspProtocol = some later ∧ FreezeInv later ∧ later.own = ch.own ∧
      later.argument = ch.argument := by
  have finish (later : Channel ρ)
      (same : SameCall { ch with response := (parseFromString rspProtocol.pbBody).2, outcome := true } later) :
      FreezeInv later ∧ later.own = ch.own ∧ later.argument = ch.argument := by
    refine ⟨⟨same.init.trans init, ?_, ?_⟩, same.own, same.argument⟩
    · rw [same.stage, ended]
      exact fun wrong => nomatch wrong
    · rw [same.stage, ended]
      exact fun wrong => nomatch wrong
  simp only [responseCallback]
  by_cases unparsed : (parseFromString rspProtocol.pbBody).1 = false
  · rw [if_pos unparsed]
    obtain ⟨later, failed, same, _⟩ := fail_call_frame
      { ch with response := (parseFromString rspProtocol.pbBody).2, outcome := true } ch.own ERROR_FAILED_DESERIALIZE
      (text "failed deserialize response") init
    exact ⟨later, failed, finish later same⟩
  · rw [if_neg unparsed]
    by_cases failure : rspProtocol.errCode ≠ 0
    · rw [if_pos failure]
      obtain ⟨later, failed, same, _⟩ := fail_call_frame
        { ch with response := (parseFromString rspProtocol.pbBody).2, outcome := true } ch.own rspProtocol.errCode
        rspProtocol.errInfo init
      exact ⟨later, failed, finish later same⟩
    · rw [if_neg failure]
      obtain ⟨later, called, same, _⟩ := call_back_frame
        { ch with response := (parseFromString rspProtocol.pbBody).2, outcome := true } init
      exact ⟨later, called, finish later same⟩

theorem freeze_step_spec (ch : Channel ρ) (event : CallEvent) (inv : FreezeInv ch) (guard : FreezeGuard ch event) :
    ∃ later, callStep parseFromString ch event = some later ∧ FreezeInv later ∧ Freezes ch later := by
  cases event with
  | call arguments =>
      by_cases idle : ch.stage = .idle
      · rw [callStep, if_pos idle]
        obtain ⟨later, called, started⟩ := call_method_started ch arguments inv.init
        refine ⟨later, called, started, fun ref _ settled => ?_⟩
        exact absurd settled.outcome (by simp [(inv.fresh idle).1])
      · exact ⟨ch, by rw [callStep, if_neg idle], inv, freezes_same ch⟩
  | connectReady result =>
      by_cases connecting : ch.stage = .connecting
      · rw [callStep, if_pos connecting]
        exact connect_ready_frame ch result inv (inv.clean connecting) (guard connecting)
      · exact ⟨ch, by rw [callStep, if_neg connecting], inv, freezes_same ch⟩
  | written =>
      by_cases writing : ch.stage = .writing
      · refine ⟨{ ch with stage := .reading }, by rw [callStep, if_pos writing],
          ⟨inv.init, (fun wrong => nomatch wrong), fun wrong => nomatch wrong⟩, untouched_freezes ch _ rfl rfl ?_⟩
        exact fun ref _ _ => ⟨rfl, fun finished => finished, fun outcome => outcome⟩
      · exact ⟨ch, by rw [callStep, if_neg writing], inv, freezes_same ch⟩
  | response rspProtocol =>
      by_cases awaited : ch.stage = .reading ∧ rspProtocol.msgId = ch.reqProtocol.msgId
      · rw [callStep, if_pos awaited]
        obtain ⟨later, called, started, _⟩ :=
          response_started parseFromString { ch with stage := .ended } rspProtocol inv.init rfl
        obtain ⟨ownOpen, argumentOpen⟩ := guard awaited.1 awaited.2
        refine ⟨later, called, started, fun ref held settled => ?_⟩
        rcases held with rfl | rfl
        · exact absurd settled ownOpen
        · exact absurd settled argumentOpen
      · exact ⟨ch, by rw [callStep, if_neg awaited], inv, freezes_same ch⟩
  | timeout =>
      by_cases armed : ch.timerArmed = true
      · have left : ch.stage ≠ .idle := fun idle => absurd armed (by simp [(inv.fresh idle).2])
        rw [callStep, if_pos armed]
        obtain ⟨later, called, kept, frozen⟩ := timeout_frame { ch with timerArmed := false }
          ⟨inv.init, fun idle => absurd idle left, inv.clean⟩ left
        exact ⟨later, called, kept, fun ref held settled => frozen ref held ⟨settled.outcome, settled.finished⟩⟩
      · exact ⟨ch, by rw [callStep, if_neg armed], inv, freezes_same ch⟩

def ResultFrozen (ch : Channel ρ) (events : List CallEvent) : Prop :=
  ∀ before after, before ++ after <+: events → ∃ middle last,
    run (callStep parseFromString) ch before = some middle ∧ run (callStep parseFromString) middle after = some last ∧
      ∀ ref, HeldBy middle ref → Settled middle ref → Settled last ref ∧ callResult last ref = callResult middle ref

theorem finished_call_frozen (remoteAddr : Bool) (controllers : Nat → RpcController) (own argument : Nat) (response : ρ)
    (events : List CallEvent)
    (guarded : Guarded (callStep parseFromString) FreezeGuard (initialised remoteAddr controllers own argument response) events) :
    ResultFrozen parseFromString (initialised remoteAddr controllers own argument response) events := by
  have start : FreezeInv (initialised remoteAddr controllers own argument response) :=
    ⟨rfl, fun _ => ⟨rfl, rfl⟩, fun _ => rfl⟩
  have throughout := guarded_throughout (callStep parseFromString) FreezeGuard FreezeInv (fun ch _ later => Freezes ch later)
    (freeze_step_spec parseFromString) _ events start guarded
  rintro before after ⟨rest, rfl⟩
  obtain ⟨front, _⟩ := throughout_append _ _ _ (before ++ after) rest throughout
  obtain ⟨_, middle, reached, back⟩ := throughout_append _ _ _ before after front
  have frozen (ref : Nat) := throughout_frozen (callStep parseFromString) (fun ch => HeldBy ch ref ∧ Settled ch ref)
    (fun ch => callResult ch ref) middle after
    (throughout_mono _ _ _ (fun ch _ later freezes settled => freezes ref settled.1 settled.2) middle after back)
  obtain ⟨last, ended, _⟩ := frozen own
  refine ⟨middle, last, reached, ended, fun ref held settled => ?_⟩
  obtain ⟨other, endedOther, kept⟩ := frozen ref
  cases ended.symm.trans endedOther
  exact ⟨(kept ⟨held, settled⟩).1.2, (kept ⟨held, settled⟩).2⟩

end Response

def answeredCall : List CallEvent :=
  [.call ⟨true, [0x31], [0x70], true, [], .success⟩, .written, .response { msgId := [0x31], pbBody := [0x61] }, .timeout]

theorem answered_call_frozen :
    ResultFrozen (fun body => (true, body)) (initialised true (fun _ => {}) 0 0 []) answeredCall :=
  finished_call_frozen _ true (fun _ => {}) 0 0 [] answeredCall (by decide)

-- The response of a call that has timed out is still parsed into the message
-- the caller was told not to expect.
def timedOutFirst : List CallEvent := [.call ⟨true, [0x31], [0x70], true, [], .success⟩, .written, .timeout]

def lateResponse : List CallEvent := [.response { msgId := [0x31], pbBody := [0x61] }]

theorem late_response_changes :
    ((run (callStep (fun body => (true, body))) (initialised true (fun _ => {}) 0 0 []) timedOutFirst).map
        fun ch => (ch.own, ch.outcome, (ch.controllers 0).isFinished, ch.response)) = some (0, true, true, []) ∧
      ((run (callStep (fun body => (true, body))) (initialised true (fun _ => {}) 0 0 []) (timedOutFirst ++ lateResponse)).map
        fun ch => ch.response) = some [0x61] := by
  decide

theorem late_response_diverges :
    ¬ ResultFrozen (fun body => (true, body)) (initialised true (fun _ => {}) 0 0 []) (timedOutFirst ++ lateResponse) := by
  intro frozen
  obtain ⟨middle, last, reached, ended, kept⟩ := frozen timedOutFirst lateResponse (List.prefix_refl _)
  obtain ⟨before, after⟩ := late_response_changes
  rw [run_append, reached, Option.bind_some, ended] at after
  rw [reached] at before
  simp only [Option.map_some, Option.some.injEq, Prod.mk.injEq] at before after
  obtain ⟨own, outcome, finished, empty⟩ := before
  have same := congrArg CallResult.response (kept 0 (Or.inl own.symm) ⟨outcome, finished⟩).2
  simp only [callResult, empty, after] at same
  cases same

end Rocket
