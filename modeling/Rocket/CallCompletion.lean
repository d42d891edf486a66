import Rocket.Conversation

set_option autoImplicit false

namespace Rocket

open Memory Word32 Trace
open Resend (wire)

theorem content_ids (messages others : List TinyPBProtocol) (same : messages.map wireContent = others.map wireContent) :
    messages.map TinyPBProtocol.msgId = others.map TinyPBProtocol.msgId := by
  have ids (list : List TinyPBProtocol) : list.map TinyPBProtocol.msgId = (list.map wireContent).map WireContent.msgId := by
    rw [List.map_map]
    rfl
  rw [ids, ids, same]

-- onWrite moves the queue from unsent to uncalled, and the write loop moves
-- nothing.
theorem sender_step_moves (sender later : Sender) (action : SenderAction) (sound : SenderSound sender)
    (client : sender.connectionType = .byClient) (plain : Plain (queued sender))
    (acts : action = .onWrite ∨ ∃ result, action = .write result) (taken : senderStep sender action = some later) :
    (offered sender action ++ unsent later).map wireContent = (unsent sender).map wireContent ∧
      uncalled later = uncalled sender ++ (offered sender action).map TinyPBProtocol.msgId := by
  rcases acts with rfl | ⟨result, rfl⟩
  · by_cases idle : sender.phase = .idle
    · rw [senderStep, if_pos idle] at taken
      obtain ⟨same, writing⟩ := start_write_queued sender later plain sound.connected taken
      have ids := content_ids _ _ same
      simp only [unsent, uncalled, offered, idle, writing, client, and_self, if_true, List.nil_append]
      refine ⟨?_, ids⟩
      simp [queued]
    · rw [senderStep, if_neg idle] at taken
      cases taken
      simp [offered, idle]
  · by_cases busy : sender.phase = .writing
    · rw [senderStep, if_pos busy] at taken
      have silent : offered sender (.write result) = [] := rfl
      rw [silent]
      obtain ⟨same, queue⟩ | ⟨_, calling, queue⟩ | ⟨wrong, _⟩ := write_turn_queue sender later result taken
      · simp [unsent, uncalled, queued, same, busy, queue]
      · simp [unsent, uncalled, queued, calling, busy, queue]
      · exact absurd client wrong
    · rw [senderStep, if_neg busy] at taken
      cases taken
      exact ⟨rfl, (List.append_nil _).symm⟩

theorem push_moves (sender : Sender) (message : TinyPBProtocol) (idle : sender.phase = .idle) :
    unsent (pushSendMessage sender message) = unsent sender ++ [message] ∧
      uncalled (pushSendMessage sender message) = uncalled sender := by
  simp [unsent, uncalled, queued, pushSendMessage, idle]

theorem callback_moves (sender : Sender) (next : Nat) (calling : sender.phase = .calling next) :
    unsent (callbackTurn sender next) = unsent sender ∧
      uncalled sender = (sender.writeDone[next]?.map fun entry => entry.message.msgId).toList ++
        uncalled (callbackTurn sender next) := by
  cases found : sender.writeDone[next]? with
  | none =>
      have outside := List.getElem?_eq_none_iff.mp found
      simp [unsent, uncalled, queued, callbackTurn, calling, outside]
  | some entry =>
      obtain ⟨inside, same⟩ := List.getElem?_eq_some_iff.mp found
      simp only [unsent, uncalled, queued, callbackTurn, calling, found, reduceCtorEq, if_false, Option.map_some,
        Option.toList_some, List.singleton_append, true_and]
      rw [List.drop_eq_getElem_cons (by simpa using inside)]
      simp [same]

section Steps

variable {μ : Type} (serviceMap : ServiceMap μ) (conv : Conversation)

theorem link_message_sent (link : Link) (inv : LinkInv link) (message : TinyPBProtocol)
    (member : message ∈ link.feed.outMessage) : ∃ msg ∈ link.history, message = decodedAs msg msg.pbBody := by
  obtain ⟨_, out⟩ := in_step_taken _ link.feed inv.feeding.inStep
  rw [out, received] at member
  obtain ⟨msg, inside, same⟩ := List.mem_map.mp member
  exact ⟨msg, Resend.wire_mem _ _ msg (List.mem_of_mem_take inside), same.symm⟩

theorem history_distinct (calling : CallerInv conv) : (conv.requests.history.map TinyPBProtocol.msgId).Nodup := by
  have distinct := calling.distinct
  rw [content_ids _ _ calling.contents, List.map_append] at distinct
  exact (List.nodup_append.mp distinct).1

theorem client_write_keeps (action : SenderAction) (inv : ConversationInv serviceMap conv)
    (acts : action = .onWrite ∨ ∃ result, action = .write result) (guard : LinkGuard conv.requests (.send action)) :
    ∃ later, onOutput conv .client action = some later ∧ ConversationInv serviceMap later := by
  have calling := inv.calling
  obtain ⟨sender, taken, sends, kept⟩ := link_send_keeps conv.requests action inv.requests guard
  obtain ⟨contents, ids⟩ := sender_step_moves conv.requests.sender sender action inv.requests.sound calling.client
    inv.requests.queue acts taken
  refine ⟨{ conv with requests := sentOver conv.requests action sender }, ?_, kept, inv.responses,
    ⟨sends.sameType.trans calling.client, calling.distinct, ?_, ?_, calling.routing, calling.kept⟩,
    { inv.dispatching with }, { inv.completing with }⟩
  · simp only [onOutput, output, linkStep, taken, Option.map_some, Option.bind_eq_bind, Option.bind_some]
  · simp only [sentOver, calling.contents, List.map_append, ← contents, List.append_assoc]
  · simp only [sentOver, ids, List.map_append, ← List.append_assoc, calling.registered]

theorem server_output_silent (action : SenderAction) (dispatching : DispatchInv serviceMap conv)
    (acts : action = .onWrite ∨ ∃ result, action = .write result) : offered conv.responses.sender action = [] := by
  rcases acts with rfl | ⟨result, rfl⟩
  · have server : conv.responses.sender.connectionType ≠ .byClient := by simp [dispatching.server]
    exact if_neg (fun both => server both.2)
  · rfl

theorem server_write_keeps (action : SenderAction) (inv : ConversationInv serviceMap conv)
    (acts : action = .onWrite ∨ ∃ result, action = .write result) (guard : LinkGuard conv.responses (.send action)) :
    ∃ later, onOutput conv .server action = some later ∧ ConversationInv serviceMap later := by
  have dispatching := inv.dispatching
  obtain ⟨sender, taken, sends, kept⟩ := link_send_keeps conv.responses action inv.responses guard
  refine ⟨{ conv with responses := sentOver conv.responses action sender }, ?_, inv.requests, kept, { inv.calling with },
    ⟨sends.sameType.trans dispatching.server, dispatching.executed, dispatching.service, ?_, dispatching.clean⟩,
    { inv.completing with }⟩
  · simp only [onOutput, output, linkStep, taken, Option.map_some, Option.bind_eq_bind, Option.bind_some]
  · simp only [sentOver, server_output_silent serviceMap conv action dispatching acts, List.append_nil, dispatching.replied]

theorem server_read_keeps (action : ReceiveAction) (inv : ConversationInv serviceMap conv)
    (guard : LinkGuard conv.requests (.receive action)) :
    ∃ later, onInput conv .server action = some later ∧ ConversationInv serviceMap later := by
  have dispatching := inv.dispatching
  obtain ⟨feed, taken, kept⟩ := link_receive_keeps conv.requests action inv.requests guard
  refine ⟨{ conv with requests := { conv.requests with feed := feed } }, ?_, kept, inv.responses, { inv.calling with },
    ⟨dispatching.server, ?_, dispatching.service, dispatching.replied, dispatching.clean⟩, { inv.completing with }⟩
  · simp only [onInput, input, linkStep, taken, Option.bind_eq_bind, Option.bind_some]
  · exact dispatching.executed.trans (receive_step_grows conv.requests.feed feed action taken)

theorem client_read_keeps (action : ReceiveAction) (inv : ConversationInv serviceMap conv)
    (guard : LinkGuard conv.responses (.receive action)) :
    ∃ later, onInput conv .client action = some later ∧ ConversationInv serviceMap later := by
  have completing := inv.completing
  obtain ⟨feed, taken, kept⟩ := link_receive_keeps conv.responses action inv.responses guard
  have grows := receive_step_grows conv.responses.feed feed action taken
  refine ⟨{ conv with responses := { conv.responses with feed := feed } }, ?_, inv.requests, kept, { inv.calling with },
    { inv.dispatching with }, ⟨completing.within.trans grows.length_le, ?_, ?_⟩⟩
  · simp only [onInput, input, linkStep, taken, Option.bind_eq_bind, Option.bind_some]
  · obtain ⟨added, longer⟩ := grows
    simp only [← longer, List.take_append_of_le_length completing.within]
    exact completing.done
  · intro call member
    exact grows.subset (completing.invoked call member)

theorem write_message_keeps (message : TinyPBProtocol) (inv : ConversationInv serviceMap conv)
    (idle : conv.requests.sender.phase = .idle) (plain : Plain [message])
    (fresh : message.msgId ∉ conv.calls.map TinyPBProtocol.msgId) :
    ∃ later, onOutput conv .client (.push message) = some later ∧
      ConversationInv serviceMap { later with calls := conv.calls ++ [message] } := by
  have calling := inv.calling
  obtain ⟨sender, taken, sends, kept⟩ := link_send_keeps conv.requests (.push message) inv.requests plain
  have free : conv.requests.sender.phase ≠ .writing := by simp [idle]
  have pushed : pushSendMessage conv.requests.sender message = sender := by
    rw [senderStep, if_neg free] at taken
    exact Option.some.inj taken
  obtain ⟨contents, ids⟩ := push_moves conv.requests.sender message idle
  rw [pushed] at contents ids
  have silent : offered conv.requests.sender (.push message) = [] := rfl
  refine ⟨{ conv with requests := sentOver conv.requests (.push message) sender }, ?_, kept, inv.responses,
    ⟨sends.sameType.trans calling.client, ?_, ?_, ?_, calling.routing, calling.kept⟩, { inv.dispatching with },
    { inv.completing with }⟩
  · simp only [onOutput, output, linkStep, taken, Option.map_some, Option.bind_eq_bind, Option.bind_some]
  · rw [List.map_append, List.map_singleton]
    refine List.nodup_append.mpr ⟨calling.distinct, List.nodup_singleton _, ?_⟩
    intro id member other last same
    rw [List.mem_singleton] at last
    rw [same, last] at member
    exact fresh member
  · simp only [sentOver, silent, contents, List.append_nil, ← List.append_assoc]
    rw [List.map_append, calling.contents, ← List.map_append]
  · simp only [sentOver, silent, ids, List.append_nil, calling.registered]

theorem write_done_keeps (inv : ConversationInv serviceMap conv) :
    ∃ later, writeDoneTurn conv = some later ∧ ConversationInv serviceMap later := by
  have calling := inv.calling
  have completing := inv.completing
  cases phase : conv.requests.sender.phase with
  | idle => exact ⟨conv, by simp only [writeDoneTurn, phase], inv⟩
  | writing => exact ⟨conv, by simp only [writeDoneTurn, phase], inv⟩
  | calling next =>
      obtain ⟨sender, taken, sends, kept⟩ := link_send_keeps conv.requests .callback inv.requests trivial
      have turned : callbackTurn conv.requests.sender next = sender := by
        simp only [senderStep, phase] at taken
        exact Option.some.inj taken
      obtain ⟨contents, ids⟩ := callback_moves conv.requests.sender next phase
      rw [turned] at contents ids
      have silent : offered conv.requests.sender .callback = [] := rfl
      have called : onOutput conv .client .callback = some { conv with requests := sentOver conv.requests .callback sender } := by
        simp only [onOutput, output, linkStep, taken, Option.map_some, Option.bind_eq_bind, Option.bind_some]
      have distinct := history_distinct conv calling
      rw [← calling.registered, ids] at distinct
      refine ⟨{ conv with
          requests := sentOver conv.requests .callback sender
          readDone := registerCall conv next }, by simp only [writeDoneTurn, phase, called, Option.map_some], ?_⟩
      cases found : conv.requests.sender.writeDone[next]? with
      | none =>
          rw [found, Option.map_none, Option.toList_none, List.nil_append] at ids
          simp only [registerCall, found]
          refine ⟨kept, inv.responses, ⟨sends.sameType.trans calling.client, calling.distinct, ?_, ?_, calling.routing,
            calling.kept⟩, { inv.dispatching with }, { inv.completing with }⟩
          · simp only [sentOver, silent, contents, List.append_nil, calling.contents]
          · simp only [sentOver, silent, ← ids, List.append_nil, calling.registered]
      | some entry =>
          rw [found, Option.map_some, Option.toList_some] at ids distinct
          have fresh : entry.message.msgId ∉ conv.readDone.registered := by
            intro member
            exact (List.nodup_append.mp distinct).2.2 _ member _ List.mem_cons_self rfl
          have free : conv.readDone.readDone entry.message.msgId = none := by
            cases waiting : conv.readDone.readDone entry.message.msgId with
            | none => rfl
            | some callback =>
                have known := calling.routing.entry entry.message.msgId callback waiting
                exact absurd (List.mem_of_getElem? known) fresh
          simp only [registerCall, found]
          refine ⟨kept, inv.responses, ⟨sends.sameType.trans calling.client, calling.distinct, ?_, ?_,
            push_read_message_keeps none _ _ calling.routing, push_free_kept _ _ calling.kept free⟩,
            { inv.dispatching with }, ⟨completing.within, ?_, completing.invoked⟩⟩
          · simp only [sentOver, silent, contents, List.append_nil, calling.contents]
          · simp only [sentOver, silent, pushReadMessage, List.append_nil, List.append_assoc, ← ids, calling.registered]
          · intro message member
            obtain ⟨registered, gone⟩ := completing.done message member
            have different : message.msgId ≠ entry.message.msgId := fun same => fresh (same ▸ registered)
            rw [push_read_message_other _ _ _ different]
            exact ⟨List.mem_append_left _ registered, gone⟩

theorem dispatch_keeps (request : TinyPBProtocol) (inv : ConversationInv serviceMap conv)
    (next : nextRequest conv = some request) (callable : Callable serviceMap request) :
    ConversationInv serviceMap { conv with server := executeRequest serviceMap conv.server request } := by
  have dispatching := inv.dispatching
  refine ⟨inv.requests, inv.responses, { inv.calling with }, ⟨dispatching.server, ?_,
    execute_request_keeps serviceMap conv.server request dispatching.service callable, dispatching.replied, dispatching.clean⟩,
    { inv.completing with }⟩
  rw [nextRequest] at next
  split at next
  · obtain ⟨rest, whole⟩ := dispatching.executed
    rw [← whole, List.getElem?_append_right (Nat.le_refl _), Nat.sub_self] at next
    cases rest with
    | nil => cases next
    | cons first rest =>
        obtain rfl := Option.some.inj next
        exact ⟨rest, by rw [← whole]; exact List.append_assoc _ _ _⟩
  · cases next

theorem closure_reply_plain (request response : TinyPBProtocol) (pbBody : Bytes) (sendable : Sendable request)
    (sameId : response.msgId = request.msgId) (sameName : response.methodName = request.methodName)
    (fits : EncodingFits [closureReply response true pbBody] conv.responses.sender.outBuffer) :
    Plain [closureReply response true pbBody] := by
  have nonempty : (closureReply response true pbBody).msgId ≠ [] := by
    rw [closureReply, if_neg (by simp)]
    exact sameId ▸ sendable.idNonempty
  obtain ⟨short, _⟩ := fits
  rw [ensure_msg_id_same _ nonempty] at short
  intro msg member
  obtain rfl := List.mem_singleton.mp member
  have idFits := sendable.idFits
  have methodFits := sendable.methodFits
  rw [← sameId] at idFits
  rw [← sameName] at methodFits
  simp only [closureReply, Bool.true_eq_false, if_false] at nonempty short ⊢
  have zero : InRange 0 := by decide
  exact ⟨⟨nonempty, idFits, methodFits, zero, short⟩, rfl⟩

theorem closure_keeps (serial : Nat) (pbBody : Bytes) (inv : ConversationInv serviceMap conv)
    (guard : ConversationGuard serviceMap conv (.closure serial pbBody)) :
    ∃ later, closureTurn conv serial pbBody = some later ∧ ConversationInv serviceMap later := by
  have dispatching := inv.dispatching
  cases waiting : conv.server.closures serial with
  | none => exact ⟨conv, by simp only [closureTurn, waiting], inv⟩
  | some response =>
      by_cases busy : conv.responses.sender.phase = .writing
      · exact ⟨conv, by simp only [closureTurn, waiting, if_pos busy], inv⟩
      · have fits := guard response waiting
        obtain ⟨request, known, _, sameId, sameName⟩ := dispatching.service.captured serial response waiting
        obtain ⟨msg, sent, shape⟩ := link_message_sent conv.requests inv.requests request
          (dispatching.executed.subset (List.mem_of_getElem? known))
        have sendable := (inv.requests.plain msg sent).1
        rw [shape] at sameId sameName
        have plain := closure_reply_plain conv msg response pbBody sendable sameId sameName fits
        obtain ⟨sender, taken, sends, kept⟩ := link_send_keeps conv.responses
          (.reply [closureReply response true pbBody]) inv.responses (fun _ => ⟨plain, fits⟩)
        have offers : offered conv.responses.sender (.reply [closureReply response true pbBody]) =
            [closureReply response true pbBody] := if_neg busy
        have called : onOutput conv .server (.reply [closureReply response true pbBody]) =
            some { conv with responses := sentOver conv.responses (.reply [closureReply response true pbBody]) sender } := by
          simp only [onOutput, output, linkStep, taken, Option.map_some, Option.bind_eq_bind, Option.bind_some]
        refine ⟨{ conv with
            responses := sentOver conv.responses (.reply [closureReply response true pbBody]) sender
            server := runClosure conv.server serial true pbBody },
          by simp only [closureTurn, waiting, if_neg busy, called, Option.map_some], inv.requests, kept,
          { inv.calling with }, ⟨sends.sameType.trans dispatching.server, ?_,
            run_closure_keeps serviceMap conv.server serial true pbBody dispatching.service, ?_, ?_⟩, { inv.completing with }⟩
        · rw [run_closure_requests]
          exact dispatching.executed
        · simp only [sentOver, offers, dispatching.replied,
            run_closure_replies conv.server serial true pbBody response waiting, List.map_append, List.map_singleton]
        · intro reply member
          rw [run_closure_replies conv.server serial true pbBody response waiting] at member
          rcases List.mem_append.mp member with earlier | last
          · exact dispatching.clean reply earlier
          · rw [List.mem_singleton.mp last]
            rfl

-- Where a response comes from: the reply to a request that the client sent.
theorem response_origin (inv : ConversationInv serviceMap conv) (message : TinyPBProtocol)
    (member : message ∈ conv.responses.feed.outMessage) :
    ∃ reply ∈ conv.server.replies, wireContent message = wireContent reply.message ∧
      CorrectReply serviceMap conv.server reply ∧ ∃ msg ∈ conv.requests.history,
        conv.server.requests[reply.serial]? = some (decodedAs msg msg.pbBody) ∧ message.msgId = msg.msgId := by
  obtain ⟨answer, sent, rfl⟩ := link_message_sent conv.responses inv.responses message member
  rw [inv.dispatching.replied] at sent
  obtain ⟨reply, replied, rfl⟩ := List.mem_map.mp sent
  have correct := inv.dispatching.service.answered.2 reply replied
  have origin := correct
  obtain ⟨request, known, sameId, _⟩ := origin
  obtain ⟨msg, asked, rfl⟩ := link_message_sent conv.requests inv.requests request
    (inv.dispatching.executed.subset (List.mem_of_getElem? known))
  exact ⟨reply, replied, rfl, correct, msg, asked, known, sameId⟩

theorem response_keeps (message : TinyPBProtocol) (inv : ConversationInv serviceMap conv)
    (next : nextResponse conv = some message) :
    ConversationInv serviceMap
      { conv with readDone := executeMessage conv.readDone message [], completed := conv.completed + 1 } := by
  have calling := inv.calling
  have completing := inv.completing
  rw [nextResponse] at next
  split at next
  · rename_i free
    obtain ⟨inside, access⟩ := List.getElem?_eq_some_iff.mp next
    have member : message ∈ conv.responses.feed.outMessage := List.mem_of_getElem? next
    have delivered := execute_message_spec conv.readDone message []
    have sameRegistered : (executeMessage conv.readDone message []).registered = conv.readDone.registered := by
      rw [executeMessage]
      split <;> rfl
    have everyone : conv.readDone.registered = conv.requests.history.map TinyPBProtocol.msgId := by
      have registered := calling.registered
      rwa [uncalled, free.2, List.append_nil] at registered
    have gone : (executeMessage conv.readDone message []).readDone message.msgId = none := by
      cases found : conv.readDone.readDone message.msgId with
      | none => rw [delivered.silent found, found]
      | some callback => exact (delivered.invokes callback found).2
    refine ⟨inv.requests, inv.responses, ⟨calling.client, calling.distinct, calling.contents, ?_,
      execute_message_keeps conv.readDone message [] calling.routing, ?_⟩, { inv.dispatching with }, ⟨inside, ?_, ?_⟩⟩
    · rw [sameRegistered]
      exact calling.registered
    · obtain ⟨_, kept⟩ | ⟨wrong, _⟩ := message_decides conv.readDone message [] calling.routing calling.kept
      · exact kept
      · exact absurd (fun _ _ => trivial) wrong
    · intro other taken
      rw [List.take_succ_eq_append_getElem inside, access] at taken
      rw [sameRegistered]
      rcases List.mem_append.mp taken with earlier | last
      · obtain ⟨registered, silent⟩ := completing.done other earlier
        refine ⟨registered, ?_⟩
        by_cases same : other.msgId = message.msgId
        · rw [same, gone]
        · rw [delivered.unchanged other.msgId same List.not_mem_nil, silent]
      · obtain rfl := List.mem_singleton.mp last
        obtain ⟨_, _, _, _, msg, asked, _, sameId⟩ := response_origin serviceMap conv inv other member
        refine ⟨?_, gone⟩
        rw [everyone, sameId]
        exact List.mem_map_of_mem asked
    · intro call ran
      cases found : conv.readDone.readDone message.msgId with
      | none =>
          rw [delivered.silent found] at ran
          exact completing.invoked call ran
      | some callback =>
          rw [(delivered.invokes callback found).1] at ran
          rcases List.mem_append.mp ran with earlier | last
          · exact completing.invoked call earlier
          · rw [List.mem_singleton.mp last]
            exact member
  · cases next

theorem conversation_step_keeps (move : Move) (inv : ConversationInv serviceMap conv)
    (guard : ConversationGuard serviceMap conv move) :
    ∃ later, conversationStep serviceMap conv move = some later ∧ ConversationInv serviceMap later := by
  cases move with
  | writeMessage message =>
      by_cases idle : conv.requests.sender.phase = .idle
      · obtain ⟨later, taken, kept⟩ := write_message_keeps serviceMap conv message inv idle guard.1 guard.2
        exact ⟨_, by rw [conversationStep, if_pos idle, taken, Option.map_some], kept⟩
      · exact ⟨conv, if_neg idle, inv⟩
  | onWrite side =>
      cases side with
      | client => exact client_write_keeps serviceMap conv .onWrite inv (Or.inl rfl) guard
      | server => exact server_write_keeps serviceMap conv .onWrite inv (Or.inl rfl) guard
  | write side result =>
      cases side with
      | client => exact client_write_keeps serviceMap conv (.write result) inv (Or.inr ⟨result, rfl⟩) guard
      | server => exact server_write_keeps serviceMap conv (.write result) inv (Or.inr ⟨result, rfl⟩) guard
  | writeDone => exact write_done_keeps serviceMap conv inv
  | read side action =>
      by_cases ready : ReadReady conv side action
      · rw [conversationStep, if_pos ready]
        cases side with
        | client => exact client_read_keeps serviceMap conv action inv guard
        | server => exact server_read_keeps serviceMap conv action inv guard
      · exact ⟨conv, if_neg ready, inv⟩
  | dispatch =>
      cases next : nextRequest conv with
      | none => exact ⟨conv, by simp only [conversationStep, next], inv⟩
      | some request =>
          exact ⟨_, by simp only [conversationStep, next], dispatch_keeps serviceMap conv request inv next (guard request next)⟩
  | closure serial pbBody => exact closure_keeps serviceMap conv serial pbBody inv guard
  | response =>
      cases next : nextResponse conv with
      | none => exact ⟨conv, by simp only [conversationStep, next], inv⟩
      | some message =>
          exact ⟨_, by simp only [conversationStep, next], response_keeps serviceMap conv message inv next⟩

end Steps

variable {μ : Type} (serviceMap : ServiceMap μ)

theorem new_conversation_inv (clientOut serverIn serverOut clientIn : TcpBuffer)
    (requests : LinkInv (newLink .byClient clientOut serverIn)) (responses : LinkInv (newLink .byServer serverOut clientIn)) :
    ConversationInv serviceMap (newConversation clientOut serverIn serverOut clientIn) := by
  refine ⟨requests, responses, ⟨rfl, List.nodup_nil, rfl, rfl, routing_starts, ?_⟩,
    ⟨rfl, List.prefix_refl _, server_inv_start serviceMap, rfl, ?_⟩, ⟨Nat.le_refl _, ?_, ?_⟩⟩
  · intro callback id known
    cases known
  · intro reply member
    cases member
  · intro message member
    cases member
  · intro call member
    cases member

-- A response callback has run once at most, for a reply that a service gave to
-- the very request of its call.
structure Answering (conv : Conversation) (callback : Nat) (message : TinyPBProtocol) : Prop where
  answered : ∃ call ∈ conv.calls[callback]?, ∃ reply ∈ conv.server.replies, ∃ request ∈ conv.server.requests[reply.serial]?,
    wireContent request = wireContent call ∧ wireContent message = wireContent reply.message ∧
      message.msgId = call.msgId ∧ message.methodName = call.methodName ∧ message.errCode = 0

def CallsSound (conv : Conversation) : Prop :=
  (conv.readDone.invoked.map Prod.fst).Nodup ∧ ∀ call ∈ conv.readDone.invoked, Answering conv call.1 call.2

theorem call_of_history (conv : Conversation) (calling : CallerInv conv) (index : Nat) (msg : TinyPBProtocol)
    (access : conv.requests.history[index]? = some msg) : ∃ call ∈ conv.calls[index]?, wireContent call = wireContent msg := by
  obtain ⟨inside, _⟩ := List.getElem?_eq_some_iff.mp access
  have front : (conv.requests.history ++ unsent conv.requests.sender)[index]? = some msg := by
    rw [List.getElem?_append_left inside, access]
  have contents := congrArg (fun contents => contents[index]?) calling.contents
  simpa only [List.getElem?_map, front, Option.map_some, Option.map_eq_some_iff, Option.mem_def] using contents

theorem conversation_sound (conv : Conversation) (inv : ConversationInv serviceMap conv) : CallsSound conv := by
  refine ⟨inv.calling.routing.routed.once, ?_⟩
  rintro ⟨callback, message⟩ ran
  have registered := inv.calling.routing.routed.rightId (callback, message) ran
  obtain ⟨inside, _⟩ := List.getElem?_eq_some_iff.mp registered
  obtain ⟨reply, replied, content, correct, msg, asked, known, sameId⟩ :=
    response_origin serviceMap conv inv message (inv.completing.invoked _ ran)
  obtain ⟨request, found, _, sameName, _⟩ := correct
  obtain rfl := Option.some.inj (known.symm.trans found)
  -- The id of the callback names one message of the history.
  have position : (conv.requests.history.map TinyPBProtocol.msgId)[callback]? = some message.msgId := by
    rw [← inv.calling.registered, List.getElem?_append_left inside, registered]
  rw [List.getElem?_map, Option.map_eq_some_iff] at position
  obtain ⟨own, access, ownId⟩ := position
  have same : own = msg := List.inj_on_of_nodup_map (history_distinct conv inv.calling) (List.mem_of_getElem? access) asked
    (ownId.trans sameId)
  subst same
  obtain ⟨call, called, equal⟩ := call_of_history conv inv.calling callback own access
  refine ⟨call, called, reply, replied, _, known, equal.symm, content, ?_, ?_, ?_⟩
  · exact ownId.symm.trans (congrArg WireContent.msgId equal).symm
  · exact ((congrArg WireContent.methodName content).trans sameName).trans (congrArg WireContent.methodName equal).symm
  · exact (congrArg WireContent.errCode content).trans (inv.dispatching.clean reply replied)

-- Nothing is left to do on either side.
structure ConversationDone (conv : Conversation) : Prop where
  requests : LinkQuiet conv.requests
  responses : LinkQuiet conv.responses
  executed : conv.server.requests.length = conv.requests.feed.outMessage.length
  closures : ∀ serial < conv.server.requests.length, conv.server.closures serial = none
  completed : conv.completed = conv.responses.feed.outMessage.length

instance (conv : Conversation) : Decidable (ConversationDone conv) :=
  decidable_of_iff (LinkQuiet conv.requests ∧ LinkQuiet conv.responses ∧
      conv.server.requests.length = conv.requests.feed.outMessage.length ∧
      (∀ serial < conv.server.requests.length, conv.server.closures serial = none) ∧
      conv.completed = conv.responses.feed.outMessage.length)
    ⟨fun ⟨requests, responses, executed, closures, completed⟩ => ⟨requests, responses, executed, closures, completed⟩,
      fun settled => ⟨settled.requests, settled.responses, settled.executed, settled.closures, settled.completed⟩⟩

theorem settled_executed (conv : Conversation) (inv : ConversationInv serviceMap conv) (settled : ConversationDone conv) :
    conv.server.requests = received (wire conv.requests.history conv.requests.rounds) := by
  obtain ⟨_, out, _⟩ := link_quiet_all conv.requests inv.requests settled.requests
  exact (inv.dispatching.executed.eq_of_length settled.executed).trans out

theorem settled_history (conv : Conversation) (inv : ConversationInv serviceMap conv) (settled : ConversationDone conv) :
    conv.calls.map wireContent = conv.requests.history.map wireContent ∧
      conv.readDone.registered = conv.requests.history.map TinyPBProtocol.msgId := by
  obtain ⟨drained, _⟩ := link_quiet_all conv.requests inv.requests settled.requests
  have idle := settled.requests.2.1
  have contents := inv.calling.contents
  have registered := inv.calling.registered
  rw [unsent, if_pos idle, queued, drained, List.map_nil, List.append_nil] at contents
  rw [uncalled, idle, List.append_nil] at registered
  exact ⟨contents, registered⟩

theorem settled_answered (conv : Conversation) (inv : ConversationInv serviceMap conv) (settled : ConversationDone conv)
    (callback : Nat) (below : callback < conv.calls.length) : callback ∈ conv.readDone.invoked.map Prod.fst := by
  obtain ⟨contents, registered⟩ := settled_history serviceMap conv inv settled
  have width := congrArg List.length contents
  rw [List.length_map, List.length_map] at width
  obtain ⟨msg, access⟩ : ∃ msg, conv.requests.history[callback]? = some msg :=
    ⟨_, List.getElem?_eq_getElem (width ▸ below)⟩
  have id : conv.readDone.registered[callback]? = some msg.msgId := by
    rw [registered, List.getElem?_map, access, Option.map_some]
  -- The request has been executed, and its closure has replied.
  obtain ⟨_, _, sent⟩ := link_quiet_all conv.requests inv.requests settled.requests
  have executed : decodedAs msg msg.pbBody ∈ conv.server.requests := by
    rw [settled_executed serviceMap conv inv settled, received]
    exact List.mem_map_of_mem (sent msg (List.mem_of_getElem? access))
  obtain ⟨serial, inside, found⟩ := List.getElem_of_mem executed
  have count := inv.dispatching.service.answered.1 serial inside
  rw [outstanding, settled.closures serial inside, Option.isSome_none, if_neg (by simp), Nat.add_zero] at count
  obtain ⟨reply, replied, same⟩ := List.countP_pos_iff.mp (Nat.lt_of_lt_of_eq Nat.zero_lt_one count.symm)
  obtain ⟨request, known, sameId, _⟩ := inv.dispatching.service.answered.2 reply replied
  rw [decide_eq_true_eq.mp same, List.getElem?_eq_getElem inside, found] at known
  obtain rfl := Option.some.inj known
  -- The reply has reached the client, so the map has no entry for its id.
  obtain ⟨_, out, back⟩ := link_quiet_all conv.responses inv.responses settled.responses
  have arrived : decodedAs reply.message reply.message.pbBody ∈ conv.responses.feed.outMessage := by
    rw [out, received]
    refine List.mem_map_of_mem (back reply.message ?_)
    rw [inv.dispatching.replied]
    exact List.mem_map_of_mem replied
  rw [← List.take_length (l := conv.responses.feed.outMessage), ← settled.completed] at arrived
  obtain ⟨_, gone⟩ := inv.completing.done _ arrived
  obtain waiting | ⟨message, ran, _⟩ := inv.calling.kept callback msg.msgId id
  · have sameCall : reply.message.msgId = msg.msgId := sameId
    rw [← sameCall] at waiting
    cases gone.symm.trans waiting
  · exact List.mem_map.mpr ⟨(callback, message), ran, rfl⟩

theorem settled_called (conv : Conversation) (inv : ConversationInv serviceMap conv) (settled : ConversationDone conv) :
    (conv.readDone.invoked.map Prod.fst).Perm (List.range conv.calls.length) := by
  obtain ⟨contents, registered⟩ := settled_history serviceMap conv inv settled
  have width := congrArg List.length contents
  rw [List.length_map, List.length_map] at width
  refine (List.perm_ext_iff_of_nodup inv.calling.routing.routed.once List.nodup_range).mpr ?_
  intro callback
  rw [List.mem_range]
  constructor
  · intro ran
    obtain ⟨⟨_, message⟩, member, rfl⟩ := List.mem_map.mp ran
    have known := invoked_registered none conv.readDone inv.calling.routing _ message member
    rw [registered, List.length_map] at known
    exact width ▸ known
  · exact settled_answered serviceMap conv inv settled callback

theorem settled_repeats (conv : Conversation) (inv : ConversationInv serviceMap conv) (settled : ConversationDone conv)
    (index : Nat) (call : TinyPBProtocol) (access : conv.calls[index]? = some call) :
    (conv.server.requests.map wireContent).count (wireContent call) =
        conv.requests.rounds.countP (fun count => index < count) ∧
      1 ≤ conv.requests.rounds.countP (fun count => index < count) := by
  obtain ⟨contents, _⟩ := settled_history serviceMap conv inv settled
  have width := congrArg List.length contents
  rw [List.length_map, List.length_map] at width
  have inside := (List.getElem?_eq_some_iff.mp access).1
  have distinct : (conv.calls.map wireContent).Nodup := by
    have ids := inv.calling.distinct
    refine List.Nodup.of_map WireContent.msgId ?_
    rwa [List.map_map]
  constructor
  · rw [settled_executed serviceMap conv inv settled, wire_content_received, ← Resend.wire_map, ← contents]
    refine Resend.wire_count _ _ distinct index _ ?_
    rw [List.getElem?_map, access, Option.map_some]
  · obtain nothing | whole := inv.requests.flushed settled.requests.1
    · rw [nothing, List.length_nil] at width
      omega
    · exact List.countP_pos_iff.mpr ⟨_, List.mem_of_getLast? whole, by simpa using width ▸ inside⟩

section Runs

variable (clientOut serverIn serverOut clientIn : TcpBuffer)

-- Four fresh connection buffers.
structure FreshBuffers : Prop where
  clientOut : BufferOk clientOut ∧ readable clientOut = []
  serverIn : BufferOk serverIn ∧ serverIn.writeIndex < serverIn.size ∧ readable serverIn = []
  serverOut : BufferOk serverOut ∧ readable serverOut = []
  clientIn : BufferOk clientIn ∧ clientIn.writeIndex < clientIn.size ∧ readable clientIn = []

theorem fresh_conversation (fresh : FreshBuffers clientOut serverIn serverOut clientIn) :
    ConversationInv serviceMap (newConversation clientOut serverIn serverOut clientIn) := by
  obtain ⟨⟨clientOk, clientEmpty⟩, ⟨serverOk, serverSpace, serverEmpty⟩, ⟨outOk, outEmpty⟩, ⟨inOk, inSpace, inEmpty⟩⟩ := fresh
  exact new_conversation_inv serviceMap _ _ _ _
    (new_link_inv .byClient clientOut serverIn clientOk clientEmpty serverOk serverSpace serverEmpty)
    (new_link_inv .byServer serverOut clientIn outOk outEmpty inOk inSpace inEmpty)

-- The service "o" with a method "m" that reads any body.
def oneService : ServiceMap Bytes := fun name =>
  if name = [0x6F] then some ⟨[0x6F], fun method => if method = [0x6D] then some 0 else none, fun _ body => (true, body)⟩
  else none

def earlyCall : TinyPBProtocol := { msgId := [0x31], methodName := [0x6F, 0x2E, 0x6D] }
def lateCall : TinyPBProtocol := { msgId := [0x32], methodName := [0x6F, 0x2E, 0x6D] }

def answerTo (call : TinyPBProtocol) : TinyPBProtocol := { call with pbBody := [0x2A] }

-- What is read is all that has been written so far: a write sends everything
-- again.
def oneCall (call : TinyPBProtocol) (sent : List TinyPBProtocol) : List Move :=
  [.writeMessage call, .onWrite .client, .write .client (.accepted 200), .writeDone, .writeDone,
    .read .server (.onRead [.data (stream sent)]), .read .server .turn, .read .server .turn, .read .server .turn]

def oneReply (serial : Nat) (answered : List TinyPBProtocol) : List Move :=
  [.dispatch, .closure serial [0x2A], .onWrite .server, .write .server (.accepted 200),
    .read .client (.onRead [.data (stream (answered.map answerTo))]), .read .client .turn, .read .client .turn,
    .read .client .turn, .read .client .turn, .response, .response, .response]

def twoCalls : List Move :=
  oneCall earlyCall [earlyCall] ++ oneReply 0 [earlyCall] ++ oneCall lateCall [earlyCall, lateCall] ++
    oneReply 1 [earlyCall, earlyCall] ++ oneReply 2 [earlyCall, earlyCall, lateCall]

def roomyBuffer : TcpBuffer := ⟨0, 0, 250, List.replicate 250 0⟩

theorem roomy_buffers : FreshBuffers roomyBuffer roomyBuffer roomyBuffer roomyBuffer := by
  have ok : BufferOk roomyBuffer := by decide +kernel
  have empty : readable roomyBuffer = [] := by decide +kernel
  exact ⟨⟨ok, empty⟩, ⟨ok, by decide, empty⟩, ⟨ok, empty⟩, ⟨ok, by decide, empty⟩⟩

theorem two_calls_guarded : Guarded (conversationStep oneService) (ConversationGuard oneService)
    (newConversation roomyBuffer roomyBuffer roomyBuffer roomyBuffer) twoCalls := by
  decide +kernel

theorem responses_belong (moves : List Move) (fresh : FreshBuffers clientOut serverIn serverOut clientIn)
    (guarded : Guarded (conversationStep serviceMap) (ConversationGuard serviceMap)
      (newConversation clientOut serverIn serverOut clientIn) moves) :
    Always (conversationStep serviceMap) CallsSound (newConversation clientOut serverIn serverOut clientIn) moves := by
  refine always_mono _ CallsSound (ConversationInv serviceMap) (conversation_sound serviceMap) _ moves ?_
  exact guarded_always _ (ConversationGuard serviceMap) (ConversationInv serviceMap)
    (fun conv move inv guard => conversation_step_keeps serviceMap conv move inv guard) _ moves
    (fresh_conversation serviceMap clientOut serverIn serverOut clientIn fresh) guarded

theorem two_calls_belong : Always (conversationStep oneService) CallsSound
    (newConversation roomyBuffer roomyBuffer roomyBuffer roomyBuffer) twoCalls :=
  responses_belong oneService _ _ _ _ twoCalls roomy_buffers two_calls_guarded

-- Each callback runs once, and each request is executed once for every write
-- since it was encoded, so at least once.
theorem settled_calls_complete (moves : List Move) (fresh : FreshBuffers clientOut serverIn serverOut clientIn)
    (guarded : Guarded (conversationStep serviceMap) (ConversationGuard serviceMap)
      (newConversation clientOut serverIn serverOut clientIn) moves) :
    ∃ last, run (conversationStep serviceMap) (newConversation clientOut serverIn serverOut clientIn) moves = some last ∧
      (ConversationDone last →
        (last.readDone.invoked.map Prod.fst).Perm (List.range last.calls.length) ∧
        ∀ index call, last.calls[index]? = some call →
          (last.server.requests.map wireContent).count (wireContent call) =
            last.requests.rounds.countP (fun count => index < count) ∧
          1 ≤ last.requests.rounds.countP (fun count => index < count)) := by
  have always := guarded_always _ (ConversationGuard serviceMap) (ConversationInv serviceMap)
    (fun conv move inv guard => conversation_step_keeps serviceMap conv move inv guard) _ moves
    (fresh_conversation serviceMap clientOut serverIn serverOut clientIn fresh) guarded
  obtain ⟨last, reached, inv⟩ := always_run _ _ _ _ always
  refine ⟨last, reached, fun settled => ⟨settled_called serviceMap last inv settled, ?_⟩⟩
  intro index call access
  exact settled_repeats serviceMap last inv settled index call access

end Runs

theorem two_calls_complete : ∃ last,
    run (conversationStep oneService) (newConversation roomyBuffer roomyBuffer roomyBuffer roomyBuffer) twoCalls = some last ∧
      (ConversationDone last →
        (last.readDone.invoked.map Prod.fst).Perm (List.range last.calls.length) ∧
        ∀ index call, last.calls[index]? = some call →
          (last.server.requests.map wireContent).count (wireContent call) =
            last.requests.rounds.countP (fun count => index < count) ∧
          1 ≤ last.requests.rounds.countP (fun count => index < count)) :=
  settled_calls_complete oneService _ _ _ _ twoCalls roomy_buffers two_calls_guarded

example : (run (conversationStep oneService) (newConversation roomyBuffer roomyBuffer roomyBuffer roomyBuffer) twoCalls).map
    (fun last => (decide (ConversationDone last), last.readDone.invoked.map Prod.fst,
      last.server.requests.map TinyPBProtocol.msgId)) = some (true, [0, 1], [[0x31], [0x31], [0x32]]) := by
  decide +kernel

end Rocket
