import Rocket.CallCompletion
import Rocket.CallOnce

set_option autoImplicit false

namespace Rocket

open Memory Word32 Trace

-- One CallMethod and the connection it opens.
structure RemoteCall (ρ : Type) where
  channel : Channel ρ
  conv : Conversation

inductive RemoteAction where
  | call (arguments : CallArguments)
  | connectReady (result : ReadyResult)
  | timeout
  | move (move : Move)
deriving DecidableEq, Repr

-- What a move of the connection means to the channel: readMessage has been
-- called, or a response callback has run.
def callEvents (conv later : Conversation) : List CallEvent :=
  (if conv.readDone.registered.length < later.readDone.registered.length then [.written] else []) ++
    (later.readDone.invoked.drop conv.readDone.invoked.length).map fun call => .response call.2

variable {μ ρ : Type} (serviceMap : ServiceMap μ) (parseFromString : Bytes → Bool × ρ)

-- A connect that has succeeded calls writeMessage at once.
def channelTurn (remote : RemoteCall ρ) (event : CallEvent) : Option (RemoteCall ρ) := do
  let channel ← callStep parseFromString remote.channel event
  let conv ←
    if remote.channel.stage ≠ .writing ∧ channel.stage = .writing then
      conversationStep serviceMap remote.conv (.writeMessage channel.reqProtocol)
    else some remote.conv
  some ⟨channel, conv⟩

def writesMessage : Move → Bool
  | .writeMessage _ => true
  | _ => false

-- Nothing is registered for the connection before writeMessage, and only
-- CallMethod calls it.
def connectionTurn (remote : RemoteCall ρ) (move : Move) : Option (RemoteCall ρ) :=
  if remote.conv.calls = [] ∨ writesMessage move = true then some remote
  else do
    let conv ← conversationStep serviceMap remote.conv move
    let channel ← run (callStep parseFromString) remote.channel (callEvents remote.conv conv)
    some ⟨channel, conv⟩

def remoteStep (remote : RemoteCall ρ) : RemoteAction → Option (RemoteCall ρ)
  | .call arguments => channelTurn serviceMap parseFromString remote (.call arguments)
  | .connectReady result => channelTurn serviceMap parseFromString remote (.connectReady result)
  | .timeout => channelTurn serviceMap parseFromString remote .timeout
  | .move move => connectionTurn serviceMap parseFromString remote move

def requestOf (ch : Channel ρ) (arguments : CallArguments) : TinyPBProtocol :=
  let msgId := (ch.controllers ch.argument).msgId
  { setMethodName { msgId := if msgId = [] then arguments.freshMsgId else msgId } arguments.methodName with
    pbBody := arguments.pbBody }

-- The request can be sent and connect succeeds, no timer expires before the
-- call is finished, and what the response callback gets parses.
def RemoteGuard (remote : RemoteCall ρ) : RemoteAction → Prop
  | .call arguments =>
      remote.channel.stage = .idle → CallReaches remote.channel arguments ∧
        (∀ sysError, arguments.connected ≠ .failed sysError) ∧ Plain [requestOf remote.channel arguments]
  | .connectReady result => remote.channel.stage = .connecting → result = .success
  | .timeout => remote.channel.timerArmed = true → (remote.channel.controllers remote.channel.argument).isFinished = true
  | .move move =>
      ConversationGuard serviceMap remote.conv move ∧
        ∀ later ∈ conversationStep serviceMap remote.conv move, ∀ call ∈ later.readDone.invoked,
          (parseFromString call.2.pbBody).1 = true

instance (result : ConnectResult) : Decidable (∀ sysError, result ≠ .failed sysError) :=
  match result with
  | .success => isTrue (by simp)
  | .inProgress => isTrue (by simp)
  | .failed sysError => isFalse (fun good => good sysError rfl)

instance (ch : Channel ρ) (arguments : CallArguments) : Decidable (CallReaches ch arguments) :=
  inferInstanceAs (Decidable (arguments.present = true ∧ ch.remoteAddr = true ∧ arguments.serialized = true))

instance (remote : RemoteCall ρ) (action : RemoteAction) :
    Decidable (RemoteGuard serviceMap parseFromString remote action) := by
  unfold RemoteGuard
  split <;> infer_instance

structure Waiting (ch : Channel ρ) : Prop where
  init : ch.isInit = true
  closure : ch.closure = true
  same : ch.argument = ch.own
  unfinished : (ch.controllers ch.own).isFinished = false
  unfailed : (ch.controllers ch.own).isFailed = false
  runs : ch.closureRuns = 0
  clean : ch.connectErrorCode = 0

theorem connect_waiting (ch : Channel ρ) (result : ConnectResult) (waiting : Waiting ch)
    (good : ∀ sysError, result ≠ .failed sysError) :
    ∃ later, connect ch result = some later ∧ Waiting later ∧ later.reqProtocol = ch.reqProtocol ∧
      (later.stage = .connecting ∨ later.stage = .writing) := by
  have clean : ¬ ch.connectErrorCode ≠ 0 := not_not_intro waiting.clean
  cases result with
  | success =>
      exact ⟨{ ch with stage := .writing }, by rw [connect, connectDone, if_neg clean], { waiting with }, rfl, Or.inr rfl⟩
  | inProgress => exact ⟨{ ch with stage := .connecting }, rfl, { waiting with }, rfl, Or.inl rfl⟩
  | failed sysError => exact absurd rfl (good sysError)

theorem call_waiting (ch : Channel ρ) (arguments : CallArguments) (waiting : Waiting ch)
    (reaches : CallReaches ch arguments) (good : ∀ sysError, arguments.connected ≠ .failed sysError) :
    ∃ later, callMethod ch arguments = some later ∧ Waiting later ∧ later.reqProtocol = requestOf ch arguments ∧
      (later.stage = .connecting ∨ later.stage = .writing) := by
  obtain ⟨present, remote, serialized⟩ := reaches
  have absent : ¬ arguments.present = false := by simp [present]
  have unknown : ¬ ch.remoteAddr = false := by simp [remote]
  have unserialized : ¬ arguments.serialized = false := by simp [serialized]
  have fresh : Waiting { ch with connectErrorCode := 0, connectErrorMsg := [] } := { waiting with clean := rfl }
  obtain ⟨named, naming, namedWaiting, sameId⟩ : ∃ named : Channel ρ,
      (if (ch.controllers ch.argument).msgId = [] then
          modifyController { ch with connectErrorCode := 0, connectErrorMsg := [] } ch.argument
            (setMsgId arguments.freshMsgId)
        else { ch with connectErrorCode := 0, connectErrorMsg := [] }) = named ∧ Waiting named ∧
      (named.controllers named.argument).msgId =
        if (ch.controllers ch.argument).msgId = [] then arguments.freshMsgId else (ch.controllers ch.argument).msgId := by
    by_cases unnamed : (ch.controllers ch.argument).msgId = []
    · refine ⟨_, if_pos unnamed, ?_, ?_⟩
      · refine ⟨fresh.init, fresh.closure, fresh.same, ?_, ?_, fresh.runs, rfl⟩
        · simp only [modifyController, waiting.same, Function.update_self, setMsgId, waiting.unfinished]
        · simp only [modifyController, waiting.same, Function.update_self, setMsgId, waiting.unfailed]
      · simp only [modifyController, Function.update_self, setMsgId, if_pos unnamed]
    · exact ⟨_, if_neg unnamed, fresh, (if_neg unnamed).symm⟩
  have started : ¬ named.isInit = false := by simp [namedWaiting.init]
  simp only [callMethod, if_neg absent, if_neg unknown, naming, if_neg started, if_neg unserialized]
  obtain ⟨later, connected, kept, request, stage⟩ := connect_waiting { named with
      reqProtocol := { setMethodName { msgId := (named.controllers named.argument).msgId } arguments.methodName with
        pbBody := arguments.pbBody }
      timerArmed := true } arguments.connected { namedWaiting with } good
  exact ⟨later, connected, kept, by rw [request, sameId]; rfl, stage⟩

-- What the caller sees when the call is returned.
structure CallAnswered (ch : Channel ρ) (body : Bytes) : Prop where
  ended : ch.stage = .ended
  runs : ch.closureRuns = 1
  finished : (ch.controllers ch.own).isFinished = true
  unfailed : (ch.controllers ch.own).isFailed = false
  same : ch.argument = ch.own
  response : ch.response = (parseFromString body).2

theorem response_answers (ch : Channel ρ) (message : TinyPBProtocol) (waiting : Waiting ch) (reading : ch.stage = .reading)
    (sameId : message.msgId = ch.reqProtocol.msgId) (noError : message.errCode = 0)
    (parsed : (parseFromString message.pbBody).1 = true) :
    ∃ later, callStep parseFromString ch (.response message) = some later ∧ CallAnswered parseFromString later message.pbBody ∧
      later.reqProtocol = ch.reqProtocol := by
  have unparsed : ¬ (parseFromString message.pbBody).1 = false := by simp [parsed]
  have started : ¬ ch.isInit = false := by simp [waiting.init]
  have free : ¬ (ch.controllers ch.own).isFinished = true := by simp [waiting.unfinished]
  refine ⟨modifyController { ch with
      stage := .ended
      response := (parseFromString message.pbBody).2
      outcome := true
      closureRuns := ch.closureRuns + 1 } ch.own (setFinished true), ?_, ⟨rfl, ?_, ?_, ?_, waiting.same, rfl⟩, rfl⟩
  · rw [callStep, if_pos ⟨reading, sameId⟩]
    simp only [responseCallback, if_neg unparsed, if_neg (not_not_intro noError), callBack, if_neg started, if_neg free,
      if_pos waiting.closure]
  · simp only [modifyController, waiting.runs]
  · simp only [modifyController, Function.update_self, setFinished]
  · simp only [modifyController, Function.update_self, setFinished, waiting.unfailed]

-- Between CallMethod and writeMessage the connection is as it was made; after
-- that the channel is where the connection has got with the one request.
inductive Progress (ch : Channel ρ) (conv : Conversation) : Prop where
  | opening (waiting : Waiting ch)
      (stage : ch.stage = .idle ∨ ch.stage = .connecting ∧ Plain [ch.reqProtocol])
      (untouched : conv.calls = [] ∧ conv.requests.sender.phase = .idle)
  | writing (waiting : Waiting ch) (stage : ch.stage = .writing) (called : conv.calls = [ch.reqProtocol])
      (registered : conv.readDone.registered = []) (invoked : conv.readDone.invoked = [])
  | reading (waiting : Waiting ch) (stage : ch.stage = .reading) (called : conv.calls = [ch.reqProtocol])
      (registered : conv.readDone.registered = [ch.reqProtocol.msgId]) (invoked : conv.readDone.invoked = [])
  | answered (message : TinyPBProtocol) (returned : CallAnswered parseFromString ch message.pbBody)
      (called : conv.calls = [ch.reqProtocol]) (registered : conv.readDone.registered = [ch.reqProtocol.msgId])
      (invoked : conv.readDone.invoked = [(0, message)])

structure RemoteInv (remote : RemoteCall ρ) : Prop where
  conv : ConversationInv serviceMap remote.conv
  progress : Progress parseFromString remote.channel remote.conv

theorem single_invoked (conv : Conversation) (inv : RoutingInv none conv.readDone) (id : Bytes)
    (registered : conv.readDone.registered = [id]) :
    conv.readDone.invoked = [] ∨ ∃ message, conv.readDone.invoked = [(0, message)] ∧ message.msgId = id := by
  have zero : ∀ call ∈ conv.readDone.invoked, call.1 = 0 ∧ call.2.msgId = id := by
    intro call ran
    have known := inv.routed.rightId call ran
    rw [registered] at known
    obtain ⟨inside, _⟩ := List.getElem?_eq_some_iff.mp known
    rw [List.length_singleton, Nat.lt_one_iff] at inside
    rw [inside] at known
    exact ⟨inside, (Option.some.inj known).symm⟩
  have once := inv.routed.once
  cases invoked : conv.readDone.invoked with
  | nil => exact Or.inl rfl
  | cons call rest =>
      obtain ⟨callback, message⟩ := call
      rw [invoked] at zero once
      obtain ⟨rfl, sameId⟩ := zero _ List.mem_cons_self
      cases rest with
      | nil => exact Or.inr ⟨message, rfl, sameId⟩
      | cons other rest =>
          have again := (zero other (List.mem_cons_of_mem _ List.mem_cons_self)).1
          simp [again] at once

theorem single_call (conv : Conversation) (inv : ConversationInv serviceMap conv) (call : TinyPBProtocol)
    (called : conv.calls = [call]) :
    conv.readDone.registered = [] ∧ conv.readDone.invoked = [] ∨
      conv.readDone.registered = [call.msgId] ∧
        (conv.readDone.invoked = [] ∨ ∃ message, conv.readDone.invoked = [(0, message)] ∧ message.msgId = call.msgId) := by
  have calling := inv.calling
  have ids := content_ids _ _ calling.contents
  rw [called, List.map_append, ← calling.registered, List.append_assoc, List.map_singleton] at ids
  cases registered : conv.readDone.registered with
  | nil =>
      refine Or.inl ⟨rfl, List.eq_nil_iff_forall_not_mem.mpr ?_⟩
      intro ran member
      have known := calling.routing.routed.rightId ran member
      rw [registered] at known
      cases known
  | cons id rest =>
      rw [registered, List.cons_append, List.cons_eq_cons] at ids
      obtain ⟨rfl, rest_nil⟩ := ids
      obtain ⟨rfl, _⟩ := List.append_eq_nil_iff.mp rest_nil.symm
      exact Or.inr ⟨rfl, single_invoked conv calling.routing call.msgId registered⟩

-- What a move of the connection cannot take back.
structure Grows (conv later : Conversation) : Prop where
  calls : later.calls = conv.calls
  registered : conv.readDone.registered <+: later.readDone.registered
  invoked : conv.readDone.invoked <+: later.readDone.invoked

theorem grows_same (conv later : Conversation) (calls : later.calls = conv.calls) (readDone : later.readDone = conv.readDone) :
    Grows conv later :=
  ⟨calls, readDone ▸ List.prefix_refl _, readDone ▸ List.prefix_refl _⟩

theorem on_output_grows (conv later : Conversation) (side : Side) (action : SenderAction)
    (taken : onOutput conv side action = some later) : later.calls = conv.calls ∧ later.readDone = conv.readDone := by
  simp only [onOutput, Option.bind_eq_bind, Option.bind_eq_some_iff] at taken
  obtain ⟨link, _, same⟩ := taken
  cases side with
  | client =>
      cases same
      exact ⟨rfl, rfl⟩
  | server =>
      cases same
      exact ⟨rfl, rfl⟩

theorem on_input_grows (conv later : Conversation) (side : Side) (action : ReceiveAction)
    (taken : onInput conv side action = some later) : later.calls = conv.calls ∧ later.readDone = conv.readDone := by
  simp only [onInput, Option.bind_eq_bind, Option.bind_eq_some_iff] at taken
  obtain ⟨link, _, same⟩ := taken
  cases side with
  | client =>
      cases same
      exact ⟨rfl, rfl⟩
  | server =>
      cases same
      exact ⟨rfl, rfl⟩

theorem write_done_grows (conv later : Conversation) (taken : writeDoneTurn conv = some later) : Grows conv later := by
  rw [writeDoneTurn] at taken
  split at taken
  · obtain ⟨middle, called, same⟩ := Option.map_eq_some_iff.mp taken
    obtain ⟨calls, _⟩ := on_output_grows conv middle _ _ called
    subst same
    refine ⟨calls, ?_, ?_⟩
    · simp only [registerCall]
      split
      · exact List.prefix_append _ _
      · exact List.prefix_refl _
    · simp only [registerCall]
      split
      · exact List.prefix_refl _
      · exact List.prefix_refl _
  · cases taken
    exact grows_same conv conv rfl rfl

theorem response_grows (conv : ReadDone) (message : TinyPBProtocol) :
    (executeMessage conv message []).registered = conv.registered ∧
      conv.invoked <+: (executeMessage conv message []).invoked := by
  rw [executeMessage]
  split
  · exact ⟨rfl, List.prefix_refl _⟩
  · exact ⟨rfl, List.prefix_append _ _⟩

theorem conversation_step_grows (conv later : Conversation) (move : Move) (reads : writesMessage move = false)
    (taken : conversationStep serviceMap conv move = some later) : Grows conv later := by
  cases move with
  | writeMessage message => cases reads
  | onWrite side =>
      obtain ⟨calls, readDone⟩ := on_output_grows conv later side _ taken
      exact grows_same conv later calls readDone
  | write side result =>
      obtain ⟨calls, readDone⟩ := on_output_grows conv later side _ taken
      exact grows_same conv later calls readDone
  | writeDone => exact write_done_grows conv later taken
  | read side action =>
      rw [conversationStep] at taken
      split at taken
      · obtain ⟨calls, readDone⟩ := on_input_grows conv later side action taken
        exact grows_same conv later calls readDone
      · cases taken
        exact grows_same conv conv rfl rfl
  | dispatch =>
      rw [conversationStep] at taken
      split at taken
      · cases taken
        exact grows_same conv conv rfl rfl
      · cases taken
        exact grows_same conv _ rfl rfl
  | closure serial pbBody =>
      rw [conversationStep, closureTurn] at taken
      split at taken
      · cases taken
        exact grows_same conv conv rfl rfl
      · split at taken
        · cases taken
          exact grows_same conv conv rfl rfl
        · obtain ⟨middle, called, same⟩ := Option.map_eq_some_iff.mp taken
          obtain ⟨calls, readDone⟩ := on_output_grows conv middle _ _ called
          subst same
          exact grows_same conv _ calls readDone
  | response =>
      rw [conversationStep] at taken
      split at taken
      · cases taken
        exact grows_same conv conv rfl rfl
      · rename_i message _
        cases taken
        obtain ⟨registered, invoked⟩ := response_grows conv.readDone message
        exact ⟨rfl, registered ▸ List.prefix_refl _, invoked⟩

theorem written_reads (ch : Channel ρ) (waiting : Waiting ch) (writing : ch.stage = .writing) :
    ∃ later, callStep parseFromString ch .written = some later ∧ Waiting later ∧ later.stage = .reading ∧
      later.reqProtocol = ch.reqProtocol :=
  ⟨{ ch with stage := .reading }, if_pos writing, { waiting with }, rfl, rfl⟩

theorem answer_reading (ch : Channel ρ) (later : Conversation) (message : TinyPBProtocol)
    (inv : ConversationInv serviceMap later) (waiting : Waiting ch) (reading : ch.stage = .reading)
    (called : later.calls = [ch.reqProtocol]) (registered : later.readDone.registered = [ch.reqProtocol.msgId])
    (invoked : later.readDone.invoked = [(0, message)]) (sameId : message.msgId = ch.reqProtocol.msgId)
    (parsed : (parseFromString message.pbBody).1 = true) :
    ∃ next, callStep parseFromString ch (.response message) = some next ∧ Progress parseFromString next later := by
  obtain ⟨_, sound⟩ := conversation_sound serviceMap later inv
  have ran : (0, message) ∈ later.readDone.invoked := by
    rw [invoked]
    exact List.mem_cons_self
  obtain ⟨_, _, _, _, _, _, _, _, _, _, noError⟩ := (sound _ ran).answered
  obtain ⟨next, taken, returned, sameRequest⟩ := response_answers parseFromString ch message waiting reading sameId noError parsed
  refine ⟨next, taken, .answered message returned ?_ ?_ invoked⟩
  · rw [called, sameRequest]
  · rw [registered, sameRequest]

-- The channel follows the connection.
theorem channel_follows (ch : Channel ρ) (conv later : Conversation) (inv : ConversationInv serviceMap later)
    (progress : Progress parseFromString ch conv) (begun : conv.calls ≠ []) (grows : Grows conv later)
    (parsed : ∀ call ∈ later.readDone.invoked, (parseFromString call.2.pbBody).1 = true) :
    ∃ next, run (callStep parseFromString) ch (callEvents conv later) = some next ∧
      Progress parseFromString next later := by
  cases progress with
  | opening waiting stage untouched => exact absurd untouched.1 begun
  | writing waiting stage called registered invoked =>
      have calledLater := grows.calls.trans called
      obtain ⟨none, silent⟩ | ⟨registeredLater, invokedLater⟩ := single_call serviceMap later inv _ calledLater
      · refine ⟨ch, ?_, .writing waiting stage calledLater none silent⟩
        simp [callEvents, registered, none, silent, run]
      · obtain ⟨next, taken, waitingNext, reading, sameRequest⟩ := written_reads parseFromString ch waiting stage
        rw [← sameRequest] at calledLater registeredLater
        obtain silent | ⟨message, ran, sameId⟩ := invokedLater
        · refine ⟨next, ?_, .reading waitingNext reading calledLater registeredLater silent⟩
          simp [callEvents, registered, registeredLater, silent, run, taken]
        · obtain ⟨last, answered, progress⟩ := answer_reading serviceMap parseFromString next later message inv waitingNext
            reading calledLater registeredLater ran (by rw [sameId, sameRequest])
            (parsed (0, message) (by rw [ran]; exact List.mem_cons_self))
          refine ⟨last, ?_, progress⟩
          simp [callEvents, registered, invoked, registeredLater, ran, run, taken, answered]
  | reading waiting stage called registered invoked =>
      have calledLater := grows.calls.trans called
      obtain ⟨none, _⟩ | ⟨registeredLater, invokedLater⟩ := single_call serviceMap later inv _ calledLater
      · have longer := grows.registered
        rw [registered, none] at longer
        cases List.prefix_nil.mp longer
      · obtain silent | ⟨message, ran, sameId⟩ := invokedLater
        · refine ⟨ch, ?_, .reading waiting stage calledLater registeredLater silent⟩
          simp [callEvents, registered, registeredLater, silent, run]
        · obtain ⟨last, answered, progress⟩ := answer_reading serviceMap parseFromString ch later message inv waiting
            stage calledLater registeredLater ran sameId (parsed (0, message) (by rw [ran]; exact List.mem_cons_self))
          refine ⟨last, ?_, progress⟩
          simp [callEvents, registered, invoked, registeredLater, ran, run, answered]
  | answered message returned called registered invoked =>
      have calledLater := grows.calls.trans called
      have kept := grows.invoked
      rw [invoked] at kept
      obtain ⟨_, silent⟩ | ⟨registeredLater, invokedLater⟩ := single_call serviceMap later inv _ calledLater
      · rw [silent] at kept
        cases List.prefix_nil.mp kept
      · obtain silent | ⟨other, ran, _⟩ := invokedLater
        · rw [silent] at kept
          cases List.prefix_nil.mp kept
        · rw [ran] at kept
          have same : [(0, message)] = [(0, other)] := kept.eq_of_length rfl
          refine ⟨ch, ?_, .answered message returned calledLater registeredLater (ran.trans same.symm)⟩
          simp [callEvents, registered, registeredLater, invoked, ran, run]

theorem no_calls (conv : Conversation) (inv : ConversationInv serviceMap conv) (none : conv.calls = []) :
    conv.readDone.registered = [] ∧ conv.readDone.invoked = [] := by
  have calling := inv.calling
  have ids := content_ids _ _ calling.contents
  rw [none, List.map_append, ← calling.registered, List.map_nil, List.append_assoc] at ids
  have registered := (List.append_eq_nil_iff.mp ids.symm).1
  refine ⟨registered, List.eq_nil_iff_forall_not_mem.mpr ?_⟩
  intro ran member
  have known := calling.routing.routed.rightId ran member
  rw [registered] at known
  cases known

theorem send_request (conv : Conversation) (request : TinyPBProtocol) (inv : ConversationInv serviceMap conv)
    (untouched : conv.calls = [] ∧ conv.requests.sender.phase = .idle) (plain : Plain [request]) :
    ∃ later, conversationStep serviceMap conv (.writeMessage request) = some later ∧ ConversationInv serviceMap later ∧
      later.calls = [request] ∧ later.readDone.registered = [] ∧ later.readDone.invoked = [] := by
  obtain ⟨none, idle⟩ := untouched
  have guard : ConversationGuard serviceMap conv (.writeMessage request) := by
    refine ⟨plain, ?_⟩
    rw [none]
    exact List.not_mem_nil
  obtain ⟨later, taken, kept⟩ := conversation_step_keeps serviceMap conv (.writeMessage request) inv guard
  refine ⟨later, taken, kept, ?_⟩
  rw [conversationStep, if_pos idle] at taken
  obtain ⟨middle, pushed, rfl⟩ := Option.map_eq_some_iff.mp taken
  obtain ⟨_, readDone⟩ := on_output_grows conv middle _ _ pushed
  obtain ⟨registered, invoked⟩ := no_calls serviceMap conv inv none
  refine ⟨?_, ?_, ?_⟩
  · simp only [none, List.nil_append]
  · simp only [readDone, registered]
  · simp only [readDone, invoked]

-- The channel has taken an event on the way to writeMessage.
theorem opening_turn (remote : RemoteCall ρ) (event : CallEvent) (later : Channel ρ)
    (inv : ConversationInv serviceMap remote.conv)
    (untouched : remote.conv.calls = [] ∧ remote.conv.requests.sender.phase = .idle)
    (before : remote.channel.stage ≠ .writing) (taken : callStep parseFromString remote.channel event = some later)
    (waiting : Waiting later) (stage : later.stage = .connecting ∨ later.stage = .writing)
    (plain : Plain [later.reqProtocol]) :
    ∃ next, channelTurn serviceMap parseFromString remote event = some next ∧
      RemoteInv serviceMap parseFromString next := by
  rcases stage with connecting | writing
  · have unsent : ¬ (remote.channel.stage ≠ .writing ∧ later.stage = .writing) := by simp [connecting]
    refine ⟨⟨later, remote.conv⟩, ?_, inv, .opening waiting (Or.inr ⟨connecting, plain⟩) untouched⟩
    simp only [channelTurn, taken, Option.bind_eq_bind, Option.bind_some, if_neg unsent]
  · obtain ⟨conv, sent, kept, called, registered, invoked⟩ := send_request serviceMap remote.conv later.reqProtocol inv
      untouched plain
    refine ⟨⟨later, conv⟩, ?_, kept, .writing waiting writing called registered invoked⟩
    have sends : remote.channel.stage ≠ .writing ∧ later.stage = .writing := ⟨before, writing⟩
    simp only [channelTurn, taken, Option.bind_eq_bind, Option.bind_some, if_pos sends, sent]

theorem still_turn (remote : RemoteCall ρ) (event : CallEvent) (inv : RemoteInv serviceMap parseFromString remote)
    (taken : callStep parseFromString remote.channel event = some remote.channel) :
    ∃ next, channelTurn serviceMap parseFromString remote event = some next ∧
      RemoteInv serviceMap parseFromString next := by
  have unsent : ¬ (remote.channel.stage ≠ .writing ∧ remote.channel.stage = .writing) := fun both => both.1 both.2
  refine ⟨remote, ?_, inv⟩
  simp only [channelTurn, taken, Option.bind_eq_bind, Option.bind_some, if_neg unsent]

theorem call_turn_keeps (remote : RemoteCall ρ) (arguments : CallArguments) (inv : RemoteInv serviceMap parseFromString remote)
    (guard : RemoteGuard serviceMap parseFromString remote (.call arguments)) :
    ∃ next, channelTurn serviceMap parseFromString remote (.call arguments) = some next ∧
      RemoteInv serviceMap parseFromString next := by
  by_cases idle : remote.channel.stage = .idle
  · obtain ⟨reaches, good, plain⟩ := guard idle
    cases inv.progress with
    | opening waiting _ untouched =>
        obtain ⟨later, called, kept, request, stage⟩ := call_waiting remote.channel arguments waiting reaches good
        exact opening_turn serviceMap parseFromString remote _ later inv.conv untouched (by simp [idle])
          ((if_pos idle).trans called) kept stage (by rwa [request])
    | writing _ stage => cases idle.symm.trans stage
    | reading _ stage => cases idle.symm.trans stage
    | answered _ returned => cases idle.symm.trans returned.ended
  · exact still_turn serviceMap parseFromString remote _ inv (if_neg idle)

theorem connect_ready_turn_keeps (remote : RemoteCall ρ) (result : ReadyResult)
    (inv : RemoteInv serviceMap parseFromString remote)
    (guard : RemoteGuard serviceMap parseFromString remote (.connectReady result)) :
    ∃ next, channelTurn serviceMap parseFromString remote (.connectReady result) = some next ∧
      RemoteInv serviceMap parseFromString next := by
  by_cases connecting : remote.channel.stage = .connecting
  · obtain rfl := guard connecting
    cases inv.progress with
    | opening waiting stage untouched =>
        have clean : ¬ remote.channel.connectErrorCode ≠ 0 := not_not_intro waiting.clean
        have taken : callStep parseFromString remote.channel (.connectReady .success) =
            some { remote.channel with stage := .writing } := by
          rw [callStep, if_pos connecting, connectReady, connectDone, if_neg clean]
        obtain idle | ⟨_, plain⟩ := stage
        · cases connecting.symm.trans idle
        · exact opening_turn serviceMap parseFromString remote _ _ inv.conv untouched (by simp [connecting]) taken
            { waiting with } (Or.inr rfl) plain
    | writing _ stage => cases connecting.symm.trans stage
    | reading _ stage => cases connecting.symm.trans stage
    | answered _ returned => cases connecting.symm.trans returned.ended
  · exact still_turn serviceMap parseFromString remote _ inv (if_neg connecting)

theorem timeout_turn_keeps (remote : RemoteCall ρ) (inv : RemoteInv serviceMap parseFromString remote)
    (guard : RemoteGuard serviceMap parseFromString remote .timeout) :
    ∃ next, channelTurn serviceMap parseFromString remote .timeout = some next ∧
      RemoteInv serviceMap parseFromString next := by
  have early (waiting : Waiting remote.channel) : ¬ remote.channel.timerArmed = true := by
    intro armed
    have finished := guard armed
    rw [waiting.same, waiting.unfinished] at finished
    cases finished
  by_cases armed : remote.channel.timerArmed = true
  · cases inv.progress with
    | opening waiting => exact absurd armed (early waiting)
    | writing waiting => exact absurd armed (early waiting)
    | reading waiting => exact absurd armed (early waiting)
    | answered message returned called registered invoked =>
        have finished : (remote.channel.controllers remote.channel.argument).isFinished = true := guard armed
        have unsent : ¬ (remote.channel.stage ≠ .writing ∧ remote.channel.stage = .writing) := fun both => both.1 both.2
        refine ⟨⟨{ remote.channel with timerArmed := false, outcome := true }, remote.conv⟩, ?_, inv.conv,
          .answered message { returned with } called registered invoked⟩
        simp only [channelTurn, callStep, if_pos armed, timeoutCallback, finished, if_true, Option.bind_eq_bind,
          Option.bind_some, if_neg unsent]
  · exact still_turn serviceMap parseFromString remote _ inv (if_neg armed)

theorem connection_turn_keeps (remote : RemoteCall ρ) (move : Move) (inv : RemoteInv serviceMap parseFromString remote)
    (guard : RemoteGuard serviceMap parseFromString remote (.move move)) :
    ∃ next, connectionTurn serviceMap parseFromString remote move = some next ∧
      RemoteInv serviceMap parseFromString next := by
  by_cases skipped : remote.conv.calls = [] ∨ writesMessage move = true
  · exact ⟨remote, if_pos skipped, inv⟩
  · obtain ⟨begun, reads⟩ := not_or.mp skipped
    obtain ⟨allowed, parsed⟩ := guard
    obtain ⟨conv, taken, kept⟩ := conversation_step_keeps serviceMap remote.conv move inv.conv allowed
    have grows := conversation_step_grows serviceMap remote.conv conv move (by simpa using reads) taken
    obtain ⟨channel, ran, progress⟩ := channel_follows serviceMap parseFromString remote.channel remote.conv conv kept
      inv.progress begun grows (parsed conv taken)
    refine ⟨⟨channel, conv⟩, ?_, kept, progress⟩
    simp only [connectionTurn, if_neg skipped, taken, Option.bind_eq_bind, Option.bind_some, ran]

theorem remote_step_keeps (remote : RemoteCall ρ) (action : RemoteAction) (inv : RemoteInv serviceMap parseFromString remote)
    (guard : RemoteGuard serviceMap parseFromString remote action) :
    ∃ next, remoteStep serviceMap parseFromString remote action = some next ∧
      RemoteInv serviceMap parseFromString next := by
  cases action with
  | call arguments => exact call_turn_keeps serviceMap parseFromString remote arguments inv guard
  | connectReady result => exact connect_ready_turn_keeps serviceMap parseFromString remote result inv guard
  | timeout => exact timeout_turn_keeps serviceMap parseFromString remote inv guard
  | move move => exact connection_turn_keeps serviceMap parseFromString remote move inv guard

-- The closure of the caller runs once at most, and then the response is what
-- the service has answered to this request.
structure RemoteSound (remote : RemoteCall ρ) : Prop where
  once : remote.channel.closureRuns ≤ 1
  success : remote.channel.closureRuns = 1 →
    (remote.channel.controllers remote.channel.own).isFinished = true ∧
      (remote.channel.controllers remote.channel.own).isFailed = false
  answer : remote.channel.closureRuns = 1 →
    ∃ reply ∈ remote.conv.server.replies, ∃ request ∈ remote.conv.server.requests[reply.serial]?,
      wireContent request = wireContent remote.channel.reqProtocol ∧
        remote.channel.response = (parseFromString reply.message.pbBody).2

theorem remote_inv_sound (remote : RemoteCall ρ) (inv : RemoteInv serviceMap parseFromString remote) :
    RemoteSound parseFromString remote := by
  have waits (waiting : Waiting remote.channel) : RemoteSound parseFromString remote := by
    have runs := waiting.runs
    exact ⟨by omega, fun ran => by omega, fun ran => by omega⟩
  cases inv.progress with
  | opening waiting => exact waits waiting
  | writing waiting => exact waits waiting
  | reading waiting => exact waits waiting
  | answered message returned called registered invoked =>
      refine ⟨Nat.le_of_eq returned.runs, fun _ => ⟨returned.finished, returned.unfailed⟩, fun _ => ?_⟩
      obtain ⟨_, sound⟩ := conversation_sound serviceMap remote.conv inv.conv
      have ran : (0, message) ∈ remote.conv.readDone.invoked := by
        rw [invoked]
        exact List.mem_cons_self
      obtain ⟨call, known, reply, replied, request, found, asked, content, _⟩ := (sound _ ran).answered
      rw [called] at known
      obtain rfl := Option.some.inj known
      have sameBody : message.pbBody = reply.message.pbBody := congrArg WireContent.pbBody content
      exact ⟨reply, replied, request, found, asked, by rw [returned.response, sameBody]⟩

theorem remote_call_done (remote : RemoteCall ρ) (inv : RemoteInv serviceMap parseFromString remote)
    (called : remote.conv.calls ≠ []) (done : ConversationDone remote.conv) : remote.channel.closureRuns = 1 := by
  have ran : 0 ∈ remote.conv.readDone.invoked.map Prod.fst :=
    settled_answered serviceMap remote.conv inv.conv done 0 (List.length_pos_iff.mpr called)
  cases inv.progress with
  | opening _ _ untouched => exact absurd untouched.1 called
  | writing _ _ _ _ silent => simp [silent] at ran
  | reading _ _ _ _ silent => simp [silent] at ran
  | answered _ returned => exact returned.runs

theorem remote_call_answered (controllers : Nat → RpcController) (own : Nat) (response : ρ) (remoteAddr : Bool)
    (clientOut serverIn serverOut clientIn : TcpBuffer) (actions : List RemoteAction)
    (unfinished : (controllers own).isFinished = false) (unfailed : (controllers own).isFailed = false)
    (fresh : FreshBuffers clientOut serverIn serverOut clientIn)
    (guarded : Guarded (remoteStep serviceMap parseFromString) (RemoteGuard serviceMap parseFromString)
      ⟨initialised remoteAddr controllers own own response, newConversation clientOut serverIn serverOut clientIn⟩ actions) :
    Always (remoteStep serviceMap parseFromString) (RemoteSound parseFromString)
        ⟨initialised remoteAddr controllers own own response, newConversation clientOut serverIn serverOut clientIn⟩
        actions ∧
      ∀ last, run (remoteStep serviceMap parseFromString)
          ⟨initialised remoteAddr controllers own own response, newConversation clientOut serverIn serverOut clientIn⟩
          actions = some last →
        last.conv.calls ≠ [] → ConversationDone last.conv → last.channel.closureRuns = 1 := by
  have start : RemoteInv serviceMap parseFromString
      ⟨initialised remoteAddr controllers own own response, newConversation clientOut serverIn serverOut clientIn⟩ :=
    ⟨fresh_conversation serviceMap _ _ _ _ fresh,
      .opening ⟨rfl, rfl, rfl, unfinished, unfailed, rfl, rfl⟩ (Or.inl rfl) ⟨rfl, rfl⟩⟩
  have always := guarded_always _ _ _ (remote_step_keeps serviceMap parseFromString) _ actions start guarded
  refine ⟨always_mono _ _ _ (remote_inv_sound serviceMap parseFromString) _ actions always, ?_⟩
  intro last reached called done
  obtain ⟨same, sameReached, inv⟩ := always_run _ _ _ _ always
  cases reached.symm.trans sameReached
  exact remote_call_done serviceMap parseFromString last inv called done

-- The service answers with the byte 0x2A.
def echoCall : List RemoteAction :=
  .call ⟨true, [0x31], [0x6F, 0x2E, 0x6D], true, [0x07], .success⟩ ::
    ((oneCall earlyCall [{ earlyCall with pbBody := [0x07] }]).tail ++ oneReply 0 [earlyCall]).map RemoteAction.move ++ [.timeout]

theorem echo_call_answered :
    Always (remoteStep oneService (fun body => (true, body))) (RemoteSound (fun body => (true, body)))
        ⟨initialised true (fun _ => {}) 0 0 [], newConversation roomyBuffer roomyBuffer roomyBuffer roomyBuffer⟩ echoCall ∧
      ∀ last, run (remoteStep oneService (fun body => (true, body)))
          ⟨initialised true (fun _ => {}) 0 0 [], newConversation roomyBuffer roomyBuffer roomyBuffer roomyBuffer⟩
          echoCall = some last →
        last.conv.calls ≠ [] → ConversationDone last.conv → last.channel.closureRuns = 1 :=
  remote_call_answered oneService (fun body => (true, body)) (fun _ => {}) 0 [] true _ _ _ _ echoCall rfl rfl roomy_buffers
    (by decide +kernel)

example : (run (remoteStep oneService (fun body => (true, body)))
      ⟨initialised true (fun _ => {}) 0 0 [], newConversation roomyBuffer roomyBuffer roomyBuffer roomyBuffer⟩ echoCall).map
    (fun last => (decide (ConversationDone last.conv), last.channel.closureRuns, last.channel.response)) =
      some (true, 1, [0x2A]) := by
  decide +kernel

end Rocket
