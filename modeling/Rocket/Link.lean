import Rocket.Receiving
import Rocket.ResentBytes
import Rocket.Lib.Refinement

set_option autoImplicit false

namespace Rocket

open Memory Word32 Trace
open Resend (wire Flushed)
open Relation (ReflTransGen)

-- One direction of a connection: the output side of one end, the bytes under
-- way and the input side of the other end. armed is the OUT_EVENT of the fd.
-- The last two fields record what was encoded and, for each write that took
-- bytes, how many messages had been encoded by then.
structure Link where
  sender : Sender
  feed : Feed
  armed : Bool := false
  history : List TinyPBProtocol := []
  rounds : List Nat := []

inductive LinkAction where
  | send (action : SenderAction)
  | receive (action : ReceiveAction)
deriving DecidableEq, Repr

-- is_write_all after a turn of the write loop.
def wroteAll (sender : Sender) : WriteResult → Bool
  | .accepted count => decide (readAble sender.outBuffer ≤ count)
  | _ => decide (readAble sender.outBuffer = 0)

-- reply and TcpClient::writeMessage end with listenWrite.
def armedAfter (link : Link) : SenderAction → Bool
  | .reply _ => if link.sender.phase = .writing then link.armed else true
  | .push _ => if link.sender.phase = .writing then link.armed else true
  | .write result => if link.sender.phase = .writing ∧ wroteAll link.sender result then false else link.armed
  | _ => link.armed

def newRounds (link : Link) (action : SenderAction) : List Nat :=
  match takenCount link.sender action with
  | some (_ + 1) => [link.history.length]
  | _ => []

def sentOver (link : Link) (action : SenderAction) (later : Sender) : Link where
  sender := later
  feed := { link.feed with incoming := link.feed.incoming ++ later.accepted.drop link.sender.accepted.length }
  armed := armedAfter link action
  history := link.history ++ offered link.sender action
  rounds := link.rounds ++ newRounds link action

def linkStep (link : Link) : LinkAction → Option Link
  | .send action => (senderStep link.sender action).map (sentOver link action)
  | .receive action => do
      let feed ← receiveStep link.feed action
      some { link with feed := feed }

def newLink (connectionType : TcpConnectionType) (outBuffer inBuffer : TcpBuffer) : Link :=
  { sender := newSender connectionType outBuffer, feed := feedStart [] inBuffer }

-- Only messages without an error text are sent, and they fit behind the write
-- index. A write takes all that it is offered or nothing, the first bytes of an
-- onRead leave free space, and no part of a frame looks like a whole one.
def LinkGuard (link : Link) : LinkAction → Prop
  | .send (.reply messages) =>
      link.sender.phase ≠ .writing → Plain messages ∧ EncodingFits messages link.sender.outBuffer
  | .send (.push message) => Plain [message]
  | .send .onWrite => FitsOutBuffer link.sender .onWrite
  | .send (.write (.accepted count)) => count = 0 ∨ link.sender.encoded.length ≤ count
  | .send _ => True
  | .receive action => ReceiveGuard (wire link.history link.rounds) link.feed action

def queued (sender : Sender) : List TinyPBProtocol := sender.writeDone.map Queued.message

instance (messages : List TinyPBProtocol) : Decidable (Plain messages) :=
  inferInstanceAs (Decidable (∀ msg ∈ messages, Sendable msg ∧ msg.errInfo = []))

instance (link : Link) (action : LinkAction) : Decidable (LinkGuard link action) := by
  unfold LinkGuard
  split <;> infer_instance

structure LinkInv (link : Link) : Prop where
  sound : SenderSound link.sender
  queue : Plain (queued link.sender)
  plain : Plain link.history
  encoded : link.sender.encoded = stream link.history
  bounded : ∀ count ∈ link.rounds, count ≤ link.history.length
  accepted : link.sender.accepted = stream (wire link.history link.rounds)
  feeding : Feeding (wire link.history link.rounds) link.feed
  flushed : link.armed = false → Flushed link.history link.rounds
  drained : link.armed = false → link.sender.phase = .idle → link.sender.writeDone = []

theorem stream_append (messages more : List TinyPBProtocol) : stream (messages ++ more) = stream messages ++ stream more := by
  rw [stream, List.map_append, List.flatten_append]
  rfl

theorem stream_empty (messages : List TinyPBProtocol) : stream messages = [] ↔ messages = [] := by
  constructor
  · intro none
    cases messages with
    | nil => rfl
    | cons msg messages =>
        have total := congrArg List.length none
        have least := frame_length_lower msg
        rw [stream_cons, List.length_append, frame_length, List.length_nil] at total
        omega
  · rintro rfl
    rfl

theorem plain_append (messages more : List TinyPBProtocol) : Plain (messages ++ more) ↔ Plain messages ∧ Plain more := by
  constructor
  · intro plain
    exact ⟨fun msg member => plain msg (List.mem_append_left more member),
      fun msg member => plain msg (List.mem_append_right messages member)⟩
  · rintro ⟨front, back⟩ msg member
    exact (List.mem_append.mp member).elim (front msg) (back msg)

-- More messages may follow while the stream is read.
theorem feeding_more (messages more : List TinyPBProtocol) (feed : Feed) (feeding : Feeding messages feed) :
    Feeding (messages ++ more) { feed with incoming := feed.incoming ++ stream more } := by
  obtain ⟨done, left, split, out, bytes, short⟩ := feeding.inStep
  refine ⟨feeding.ok, feeding.space, done, left ++ more, ?_, out, ?_, ?_⟩
  · rw [split, List.append_assoc]
  · rw [← List.append_assoc, bytes, stream_append]
  · intro idle msg rest next
    cases left with
    | nil =>
        have nothing := (List.append_eq_nil_iff.mp bytes).1
        have least := frame_length_lower msg
        rw [nothing, List.length_nil]
        omega
    | cons first left =>
        obtain ⟨rfl, _⟩ := List.cons_eq_cons.mp next
        exact short idle first left rfl

theorem sendable_content (msg other : TinyPBProtocol) (same : wireContent msg = wireContent other)
    (sendable : Sendable msg ∧ msg.errInfo = []) : Sendable other ∧ other.errInfo = [] := by
  cases msg
  cases other
  simp only [wireContent, WireContent.mk.injEq] at same
  obtain ⟨rfl, rfl, rfl, rfl, rfl⟩ := same
  obtain ⟨⟨nonempty, idFits, methodFits, codeFits, frameFits⟩, noText⟩ := sendable
  exact ⟨⟨nonempty, idFits, methodFits, codeFits, by simpa only [frame_length_sum] using frameFits⟩, noText⟩

theorem plain_contents (messages others : List TinyPBProtocol) (plain : Plain messages)
    (same : others.map wireContent = messages.map wireContent) : Plain others := by
  intro other member
  have found : wireContent other ∈ messages.map wireContent := same ▸ List.mem_map_of_mem member
  obtain ⟨msg, inside, equal⟩ := List.mem_map.mp found
  exact sendable_content msg other equal (plain msg inside)

theorem encode_tiny_pb_content (message sent : TinyPBProtocol) (bytes : Bytes) (nonempty : message.msgId ≠ [])
    (encoded : encodeTinyPB message = some (sent, bytes)) : wireContent sent = wireContent message := by
  simp only [encodeTinyPB, ensure_msg_id_same message nonempty] at encoded
  split at encoded
  · obtain ⟨same, _⟩ := Prod.mk.inj (Option.some.inj encoded)
    simp only [← same, wireContent]
  · cases encoded

-- encode stores lengths in the messages of the caller, nothing else.
theorem encode_contents (messages sent : List TinyPBProtocol) (outBuffer next : TcpBuffer) (plain : Plain messages)
    (encoded : encode messages outBuffer = some (sent, next)) : sent.map wireContent = messages.map wireContent := by
  induction messages generalizing outBuffer sent with
  | nil =>
      cases encoded
      rfl
  | cons message messages ih =>
      simp only [encode, Option.bind_eq_bind, Option.bind_eq_some_iff, Prod.exists] at encoded
      obtain ⟨first, bytes, single, grown, _, others, _, rest, same⟩ := encoded
      cases same
      have nonempty := (plain message List.mem_cons_self).1.idNonempty
      rw [List.map_cons, List.map_cons, encode_tiny_pb_content message first bytes nonempty single,
        ih others grown (fun msg member => plain msg (List.mem_cons_of_mem message member)) rest]

theorem zip_with_messages (entries : List Queued) (sent : List TinyPBProtocol) (same : sent.length = entries.length) :
    (List.zipWith (fun entry message => { entry with message := message }) entries sent).map Queued.message = sent := by
  induction entries generalizing sent with
  | nil => rw [List.zipWith_nil_left, List.length_eq_zero_iff.mp same, List.map_nil]
  | cons entry entries ih =>
      cases sent with
      | nil => cases same
      | cons message sent =>
          have shorter : sent.length = entries.length := by simpa using same
          rw [List.zipWith_cons_cons, List.map_cons, ih sent shorter]

theorem start_write_queued (sender later : Sender) (plain : Plain (queued sender)) (connected : sender.state = .connected)
    (started : startWrite sender = some later) :
    (queued later).map wireContent = (queued sender).map wireContent ∧ later.phase = .writing := by
  rw [startWrite, if_neg (not_not_intro connected)] at started
  by_cases client : sender.connectionType = .byClient
  · rw [if_pos client] at started
    simp only [Option.bind_eq_bind, Option.bind_eq_some_iff, Prod.exists] at started
    obtain ⟨_, _, sent, next, encoded, same⟩ := started
    cases same
    have width := encode_length _ sent _ next encoded
    rw [List.length_map] at width
    refine ⟨?_, rfl⟩
    rw [queued, zip_with_messages sender.writeDone sent width]
    exact encode_contents _ sent _ next plain encoded
  · rw [if_neg client] at started
    cases started
    exact ⟨rfl, rfl⟩

theorem finish_write_queue (sender : Sender) :
    sender.connectionType = .byClient ∧ (finishWrite sender).phase = .calling 0 ∧
        (finishWrite sender).writeDone = sender.writeDone ∨
      sender.connectionType ≠ .byClient ∧ (finishWrite sender).phase = .idle ∧ (finishWrite sender).writeDone = [] := by
  by_cases client : sender.connectionType = .byClient
  · rw [finishWrite, if_pos client]
    exact Or.inl ⟨client, rfl, rfl⟩
  · rw [finishWrite, if_neg client]
    exact Or.inr ⟨client, rfl, rfl⟩

-- A turn of the write loop goes on, or it ends the activation.
theorem write_turn_queue (sender later : Sender) (result : WriteResult) (turn : writeTurn sender result = some later) :
    later.phase = sender.phase ∧ later.writeDone = sender.writeDone ∨
      sender.connectionType = .byClient ∧ later.phase = .calling 0 ∧ later.writeDone = sender.writeDone ∨
      sender.connectionType ≠ .byClient ∧ later.phase = .idle ∧ later.writeDone = [] := by
  by_cases empty : readAble sender.outBuffer = 0
  · simp only [writeTurn, if_pos empty] at turn
    cases turn
    exact Or.inr (finish_write_queue sender)
  · cases result with
    | accepted count =>
        simp only [writeTurn, if_neg empty, Option.bind_eq_bind, Option.bind_eq_some_iff] at turn
        obtain ⟨bytes, _, turn⟩ := turn
        split at turn
        · cases turn
          exact Or.inr (finish_write_queue { sender with
            accepted := sender.accepted ++ bytes.take count
            writes := sender.writes ++ [(sender.encoded.length - bytes.length, (bytes.take count).length)] })
        · cases turn
          exact Or.inl ⟨rfl, rfl⟩
    | again =>
        simp only [writeTurn, if_neg empty] at turn
        cases turn
        exact Or.inr (finish_write_queue sender)
    | failed =>
        simp only [writeTurn, if_neg empty] at turn
        cases turn
        exact Or.inl ⟨rfl, rfl⟩

theorem write_turn_idle (sender later : Sender) (result : WriteResult) (writing : sender.phase = .writing)
    (turn : writeTurn sender result = some later) (idle : later.phase = .idle) : later.writeDone = [] := by
  obtain ⟨same, _⟩ | ⟨_, calling, _⟩ | ⟨_, _, cleared⟩ := write_turn_queue sender later result turn
  · cases writing.symm.trans (same.symm.trans idle)
  · cases calling.symm.trans idle
  · exact cleared

-- A step that ends between two activations has cleared the queue or has found
-- the connection there already.
theorem later_idle (sender later : Sender) (action : SenderAction) (connected : sender.state = .connected)
    (plain : Plain (queued sender)) (taken : senderStep sender action = some later) (idle : later.phase = .idle) :
    later.writeDone = [] ∨
      sender.phase = .idle ∧ (later.writeDone = sender.writeDone ∨ ∃ message, action = .push message) := by
  cases action with
  | reply messages =>
      refine Or.inr ?_
      by_cases busy : sender.phase = .writing
      · rw [senderStep, if_pos busy] at taken
        cases taken
        exact ⟨idle, Or.inl rfl⟩
      · simp only [senderStep, if_neg busy, reply, Option.bind_eq_bind, Option.bind_eq_some_iff, Prod.exists] at taken
        obtain ⟨_, _, _, _, _, same⟩ := taken
        cases same
        exact ⟨idle, Or.inl rfl⟩
  | push message =>
      refine Or.inr ⟨?_, Or.inr ⟨message, rfl⟩⟩
      rw [senderStep] at taken
      split at taken
      · cases taken
        exact idle
      · cases taken
        exact idle
  | onWrite =>
      rw [senderStep] at taken
      split at taken
      · obtain ⟨_, writing⟩ := start_write_queued sender later plain connected taken
        cases writing.symm.trans idle
      · cases taken
        exact Or.inr ⟨idle, Or.inl rfl⟩
  | write result =>
      by_cases busy : sender.phase = .writing
      · rw [senderStep, if_pos busy] at taken
        exact Or.inl (write_turn_idle sender later result busy taken idle)
      · rw [senderStep, if_neg busy] at taken
        cases taken
        exact Or.inr ⟨idle, Or.inl rfl⟩
  | callback =>
      simp only [senderStep] at taken
      split at taken
      · rename_i next calling
        cases taken
        refine Or.inl ?_
        rw [callbackTurn] at idle ⊢
        split at idle
        · cases idle
        · rfl
      · cases taken
        exact Or.inr ⟨idle, Or.inl rfl⟩

theorem armed_after_idle (link : Link) (action : SenderAction) (idle : link.sender.phase = .idle)
    (disarmed : armedAfter link action = false) : link.armed = false ∧ ∀ message, action ≠ .push message := by
  have free : link.sender.phase ≠ .writing := by simp [idle]
  cases action with
  | reply messages => simp [armedAfter, free] at disarmed
  | push message => simp [armedAfter, free] at disarmed
  | onWrite => exact ⟨disarmed, by simp⟩
  | write result => exact ⟨by simpa [armedAfter, free] using disarmed, by simp⟩
  | callback => exact ⟨disarmed, by simp⟩

theorem later_queue_plain (sender later : Sender) (action : SenderAction) (connected : sender.state = .connected)
    (plain : Plain (queued sender)) (pushed : ∀ message, action = .push message → Plain [message])
    (taken : senderStep sender action = some later) : Plain (queued later) := by
  cases action with
  | reply messages =>
      by_cases busy : sender.phase = .writing
      · rw [senderStep, if_pos busy] at taken
        cases taken
        exact plain
      · simp only [senderStep, if_neg busy, reply, Option.bind_eq_bind, Option.bind_eq_some_iff, Prod.exists] at taken
        obtain ⟨_, _, _, _, _, same⟩ := taken
        cases same
        exact plain
  | push message =>
      rw [senderStep] at taken
      split at taken
      · cases taken
        exact plain
      · cases taken
        rw [queued, pushSendMessage, List.map_append]
        exact (plain_append _ _).mpr ⟨plain, pushed message rfl⟩
  | onWrite =>
      rw [senderStep] at taken
      split at taken
      · obtain ⟨same, _⟩ := start_write_queued sender later plain connected taken
        exact plain_contents _ _ plain same
      · cases taken
        exact plain
  | write result =>
      by_cases busy : sender.phase = .writing
      · rw [senderStep, if_pos busy] at taken
        rw [queued]
        obtain ⟨_, same⟩ | ⟨_, _, same⟩ | ⟨_, _, cleared⟩ := write_turn_queue sender later result taken
        · exact same ▸ plain
        · exact same ▸ plain
        · rw [cleared]
          intro msg member
          cases member
      · rw [senderStep, if_neg busy] at taken
        cases taken
        exact plain
  | callback =>
      simp only [senderStep] at taken
      split at taken
      · cases taken
        rw [callbackTurn]
        split
        · exact plain
        · intro msg member
          cases member
      · cases taken
        exact plain

theorem link_guard_offers (link : Link) (action : SenderAction) (inv : LinkInv link) (guard : LinkGuard link (.send action)) :
    Plain (offered link.sender action) ∧ FitsOutBuffer link.sender action := by
  have silent : Plain [] ∧ EncodingFits [] link.sender.outBuffer := ⟨fun msg member => (List.not_mem_nil member).elim, trivial⟩
  rw [FitsOutBuffer]
  cases action with
  | reply messages =>
      by_cases busy : link.sender.phase = .writing
      · simpa only [offered, if_pos busy] using silent
      · simpa only [offered, if_neg busy] using guard busy
  | push message => exact silent
  | onWrite =>
      refine ⟨?_, guard⟩
      rw [offered]
      split
      · exact inv.queue
      · exact silent.1
  | write result => exact silent
  | callback => exact silent

theorem history_empty (link : Link) (inv : LinkInv link) (none : readAble link.sender.outBuffer = 0) : link.history = [] := by
  have nothing := (readable_empty link.sender.outBuffer inv.sound.ok).mpr none
  rw [inv.sound.content, inv.encoded] at nothing
  exact (stream_empty link.history).mp nothing

theorem taken_count_some (sender : Sender) (action : SenderAction) (count : Nat) (taken : takenCount sender action = some count) :
    ∃ wanted, action = .write (.accepted wanted) ∧ sender.phase = .writing ∧ readAble sender.outBuffer ≠ 0 ∧
      count = min wanted sender.encoded.length := by
  cases action with
  | write result =>
      cases result with
      | accepted wanted =>
          rw [takenCount] at taken
          split at taken
          · rename_i both
            exact ⟨wanted, rfl, both.1, both.2, (Option.some.inj taken).symm⟩
          · cases taken
      | again => cases taken
      | failed => cases taken
  | reply messages => cases taken
  | push message => cases taken
  | onWrite => cases taken
  | callback => cases taken

-- The bytes that a write takes are the whole history.
theorem taken_stream (link : Link) (action : SenderAction) (inv : LinkInv link) (guard : LinkGuard link (.send action)) :
    wire link.sender.encoded (takenCount link.sender action).toList = stream (wire link.history (newRounds link action)) := by
  rw [newRounds]
  cases taken : takenCount link.sender action with
  | none => rfl
  | some count =>
      obtain ⟨wanted, rfl, _, _, least⟩ := taken_count_some link.sender action count taken
      cases count with
      | zero =>
          rw [Option.toList_some, Resend.wire_single, List.take_zero]
          rfl
      | succ count =>
          have whole : link.sender.encoded.length ≤ count + 1 := by
            rcases guard with none | all
            · omega
            · omega
          rw [Option.toList_some, Resend.wire_single, Resend.wire_single, List.take_length, List.take_of_length_le whole,
            inv.encoded]

theorem new_rounds_flushed (link : Link) (action : SenderAction) (flushed : Flushed link.history link.rounds) :
    Flushed link.history (link.rounds ++ newRounds link action) := by
  rw [newRounds]
  split
  · exact Or.inr (by simp)
  · rw [List.append_nil]
    exact flushed

theorem wrote_all_flushed (link : Link) (result : WriteResult) (inv : LinkInv link) (writing : link.sender.phase = .writing)
    (all : wroteAll link.sender result = true) : Flushed link.history (link.rounds ++ newRounds link (.write result)) := by
  by_cases empty : readAble link.sender.outBuffer = 0
  · exact Or.inl (history_empty link inv empty)
  · cases result with
    | accepted count =>
        have total := readable_length link.sender.outBuffer inv.sound.ok
        rw [inv.sound.content] at total
        rw [wroteAll, decide_eq_true_eq] at all
        obtain ⟨before, counted⟩ : ∃ before, min count link.sender.encoded.length = before + 1 :=
          ⟨min count link.sender.encoded.length - 1, by omega⟩
        have taken : takenCount link.sender (.write (.accepted count)) = some (before + 1) := by
          rw [takenCount, if_pos ⟨writing, empty⟩, counted]
        refine Or.inr ?_
        simp only [newRounds, taken, List.getLast?_concat]
    | again => exact absurd (decide_eq_true_eq.mp all) empty
    | failed => exact absurd (decide_eq_true_eq.mp all) empty

theorem link_send_flushed (link : Link) (action : SenderAction) (inv : LinkInv link)
    (disarmed : armedAfter link action = false) :
    Flushed (link.history ++ offered link.sender action) (link.rounds ++ newRounds link action) := by
  have unchanged (same : offered link.sender action = []) (before : link.armed = false) :
      Flushed (link.history ++ offered link.sender action) (link.rounds ++ newRounds link action) := by
    rw [same, List.append_nil]
    exact new_rounds_flushed link action (inv.flushed before)
  cases action with
  | reply messages =>
      rw [armedAfter] at disarmed
      split at disarmed
      · rename_i busy
        exact unchanged (if_pos busy) disarmed
      · cases disarmed
  | push message =>
      rw [armedAfter] at disarmed
      split at disarmed
      · exact unchanged rfl disarmed
      · cases disarmed
  | onWrite =>
      refine unchanged ?_ disarmed
      rw [offered]
      split
      · rename_i both
        rw [inv.drained disarmed both.1, List.map_nil]
      · rfl
  | write result =>
      by_cases all : link.sender.phase = .writing ∧ wroteAll link.sender result
      · have flushed := wrote_all_flushed link result inv all.1 all.2
        have silent : offered link.sender (.write result) = [] := rfl
        rwa [silent, List.append_nil]
      · rw [armedAfter, if_neg all] at disarmed
        exact unchanged rfl disarmed
  | callback => exact unchanged rfl disarmed

theorem link_send_keeps (link : Link) (action : SenderAction) (inv : LinkInv link) (guard : LinkGuard link (.send action)) :
    ∃ later, senderStep link.sender action = some later ∧ Sends link.sender action later ∧
      LinkInv (sentOver link action later) := by
  obtain ⟨plain, fits⟩ := link_guard_offers link action inv guard
  obtain ⟨later, taken, sends⟩ := sender_step_sends link.sender action inv.sound fits
  obtain ⟨bytes, collected, longer⟩ := sends.encoded
  have same : bytes = stream (offered link.sender action) :=
    Option.some.inj (collected.symm.trans (encoded_bytes_plain _ plain))
  have whole := taken_stream link action inv guard
  have fresh : later.accepted.drop link.sender.accepted.length = stream (wire link.history (newRounds link action)) := by
    rw [sends.accepted, List.drop_left, whole]
  have bounded : ∀ count ∈ link.rounds ++ newRounds link action, count ≤ link.history.length := by
    intro count member
    rcases List.mem_append.mp member with earlier | new
    · exact inv.bounded count earlier
    · rw [newRounds] at new
      split at new
      · exact Nat.le_of_eq (List.mem_singleton.mp new)
      · cases new
  have total : wire (link.history ++ offered link.sender action) (link.rounds ++ newRounds link action) =
      wire link.history link.rounds ++ wire link.history (newRounds link action) := by
    rw [Resend.wire_extend _ _ _ bounded, Resend.wire_append]
  refine ⟨later, taken, sends, sends.sound, ?_, (plain_append _ _).mpr ⟨inv.plain, plain⟩, ?_, ?_, ?_, ?_,
    link_send_flushed link action inv, ?_⟩
  · refine later_queue_plain link.sender later action inv.sound.connected inv.queue ?_ taken
    rintro message rfl
    exact guard
  · simp only [sentOver, longer, same, inv.encoded, stream_append]
  · intro count member
    have bound := bounded count member
    simp only [sentOver, List.length_append]
    omega
  · simp only [sentOver, total, stream_append, sends.accepted, inv.accepted, whole]
  · simp only [sentOver, total, fresh]
    exact feeding_more _ _ link.feed inv.feeding
  · intro disarmed idle
    obtain cleared | ⟨before, unchanged⟩ :=
      later_idle link.sender later action inv.sound.connected inv.queue taken idle
    · exact cleared
    · obtain ⟨disarmedBefore, notPush⟩ := armed_after_idle link action before disarmed
      obtain same | ⟨message, pushed⟩ := unchanged
      · simp only [sentOver, same]
        exact inv.drained disarmedBefore before
      · exact absurd pushed (notPush message)

theorem link_receive_keeps (link : Link) (action : ReceiveAction) (inv : LinkInv link)
    (guard : LinkGuard link (.receive action)) :
    ∃ feed, receiveStep link.feed action = some feed ∧ LinkInv { link with feed := feed } := by
  have plain : Plain (wire link.history link.rounds) := by
    intro msg member
    exact inv.plain msg (Resend.wire_mem _ _ msg member)
  obtain ⟨feed, taken, feeding⟩ := receive_step_keeps _ plain link.feed action inv.feeding guard
  exact ⟨feed, taken, { inv with feeding := feeding }⟩

theorem new_link_inv (connectionType : TcpConnectionType) (outBuffer inBuffer : TcpBuffer) (outOk : BufferOk outBuffer)
    (outEmpty : readable outBuffer = []) (inOk : BufferOk inBuffer) (space : inBuffer.writeIndex < inBuffer.size)
    (inEmpty : readable inBuffer = []) : LinkInv (newLink connectionType outBuffer inBuffer) := by
  have plain : Plain [] := fun msg member => (List.not_mem_nil member).elim
  refine ⟨⟨outOk, rfl, outEmpty⟩, plain, plain, rfl, ?_, rfl, feeding_start [] plain [] inBuffer rfl inOk space inEmpty,
    fun _ => Or.inl rfl, fun _ _ => rfl⟩
  intro count member
  cases member

-- The messages decoded so far are what the transfer has delivered.
structure Transfers (link : Link) (transfer : Resend.Transfer TinyPBProtocol) : Prop where
  inv : LinkInv link
  sent : transfer.sent = link.history
  rounds : transfer.rounds = link.rounds
  delivered : link.feed.outMessage = received (Resend.inbox transfer)

theorem in_step_taken (messages : List TinyPBProtocol) (feed : Feed) (inStep : InStep messages feed) :
    feed.outMessage.length ≤ messages.length ∧ feed.outMessage = received (messages.take feed.outMessage.length) := by
  obtain ⟨done, left, split, out, _, _⟩ := inStep
  have width : feed.outMessage.length = done.length := by rw [out, received, List.length_map]
  rw [width, split, List.take_left, List.length_append]
  exact ⟨by omega, out⟩

-- A write is a flush, encode is an offer, and a frame that decode takes is a
-- delivery.
theorem link_simulates (link : Link) (transfer : Resend.Transfer TinyPBProtocol) (action : LinkAction)
    (transfers : Transfers link transfer) (guard : LinkGuard link action) :
    ∃ later answer, linkStep link action = some later ∧ ReflTransGen Resend.Step transfer answer ∧
      Transfers later answer := by
  have inv := transfers.inv
  cases action with
  | send action =>
      obtain ⟨later, taken, _, kept⟩ := link_send_keeps link action inv guard
      have step : linkStep link (.send action) = some (sentOver link action later) := by
        rw [linkStep, taken, Option.map_some]
      have sent := transfers.sent
      have rounds := transfers.rounds
      have delivered := transfers.delivered
      by_cases quiet : newRounds link action = []
      · refine ⟨_, Resend.offer transfer (offered link.sender action), step, .single (.offer _ _), kept, ?_, ?_, ?_⟩
        · simp only [Resend.offer, sentOver, sent]
        · simp only [Resend.offer, sentOver, rounds, quiet, List.append_nil]
        · rw [Resend.inbox_offer]
          exact delivered
      · refine ⟨_, Resend.offer (Resend.flush transfer) (offered link.sender action), step,
          (ReflTransGen.single (.flush _)).tail (.offer _ _), kept, ?_, ?_, ?_⟩
        · simp only [Resend.offer, Resend.flush, sentOver, sent]
        · have whole : newRounds link action = [link.history.length] := by
            rw [newRounds] at quiet ⊢
            split
            · rfl
            · rename_i other
              split at quiet
              · rename_i count same
                exact absurd same (other count)
              · exact absurd rfl quiet
          simp only [Resend.offer, Resend.flush, sentOver, rounds, sent, whole]
        · rw [Resend.inbox_offer, Resend.inbox_flush]
          exact delivered
  | receive action =>
      obtain ⟨feed, taken, kept⟩ := link_receive_keeps link action inv guard
      have step : linkStep link (.receive action) = some { link with feed := feed } := by
        simp only [linkStep, taken, Option.bind_eq_bind, Option.bind_some]
      have sent := transfers.sent
      have rounds := transfers.rounds
      have delivered := congrArg List.length transfers.delivered
      rw [received, List.length_map, Resend.inbox, List.length_take, Nat.min_eq_left transfer.within] at delivered
      obtain ⟨room, out⟩ := in_step_taken _ feed kept.feeding.inStep
      have longer := (receive_step_grows link.feed feed action taken).length_le
      rw [delivered] at longer
      rw [← sent, ← rounds] at room out
      exact ⟨_, { transfer with delivered := feed.outMessage.length, within := room }, step,
        Resend.steps_deliver transfer feed.outMessage.length longer room, kept, sent, rounds, out⟩

-- Nothing is left to do: OUT_EVENT is not registered, no bytes are under way
-- and no call of decode is running.
def LinkQuiet (link : Link) : Prop :=
  link.armed = false ∧ link.sender.phase = .idle ∧ link.feed.incoming = [] ∧ link.feed.decoding = false

instance (link : Link) : Decidable (LinkQuiet link) := by
  unfold LinkQuiet
  infer_instance

theorem link_quiet_all (link : Link) (inv : LinkInv link) (quiet : LinkQuiet link) :
    link.sender.writeDone = [] ∧ link.feed.outMessage = received (wire link.history link.rounds) ∧
      ∀ msg ∈ link.history, msg ∈ wire link.history link.rounds := by
  obtain ⟨disarmed, idle, arrived, decoded⟩ := quiet
  exact ⟨inv.drained disarmed idle, in_step_all_arrived _ link.feed inv.feeding.inStep decoded arrived,
    Resend.flushed_wire _ _ (inv.flushed disarmed)⟩

theorem link_delivers (connectionType : TcpConnectionType) (outBuffer inBuffer : TcpBuffer) (actions : List LinkAction)
    (outOk : BufferOk outBuffer) (outEmpty : readable outBuffer = []) (inOk : BufferOk inBuffer)
    (space : inBuffer.writeIndex < inBuffer.size) (inEmpty : readable inBuffer = [])
    (guarded : Guarded linkStep LinkGuard (newLink connectionType outBuffer inBuffer) actions) :
    ∃ last transfer, run linkStep (newLink connectionType outBuffer inBuffer) actions = some last ∧
      ReflTransGen Resend.Step Resend.empty transfer ∧ transfer.sent = last.history ∧
      last.feed.outMessage = received (Resend.inbox transfer) ∧
      (LinkQuiet last → queued last.sender = [] ∧ last.feed.outMessage = received (wire last.history last.rounds) ∧
        ∀ msg ∈ last.history, decodedAs msg msg.pbBody ∈ last.feed.outMessage) := by
  have start := new_link_inv connectionType outBuffer inBuffer outOk outEmpty inOk space inEmpty
  obtain ⟨last, transfer, reached, steps, transfers⟩ :=
    guarded_refines linkStep Resend.Step Transfers LinkGuard link_simulates
      (newLink connectionType outBuffer inBuffer) Resend.empty actions ⟨start, rfl, rfl, rfl⟩ guarded
  refine ⟨last, transfer, reached, steps, transfers.sent, transfers.delivered, ?_⟩
  intro quiet
  obtain ⟨drained, out, all⟩ := link_quiet_all last transfers.inv quiet
  refine ⟨by rw [queued, drained, List.map_nil], out, ?_⟩
  intro msg member
  rw [out, received]
  exact List.mem_map_of_mem (all msg member)

-- Two replies: the second write sends the first one again.
def twoRepliesOver : List LinkAction :=
  [.send (.reply [firstMessage]), .send .onWrite, .send (.write (.accepted 100)),
    .receive (.onRead [.data (stream [firstMessage])]), .receive .turn, .receive .turn, .send (.reply [secondMessage]),
    .send .onWrite, .send (.write (.accepted 100)), .receive (.onRead [.data (stream [firstMessage, secondMessage])]),
    .receive .turn, .receive .turn, .receive .turn]

def wideBuffer : TcpBuffer := ⟨0, 0, 100, List.replicate 100 0⟩

theorem two_replies_delivered : ∃ last transfer,
    run linkStep (newLink .byServer spareBuffer wideBuffer) twoRepliesOver = some last ∧
      ReflTransGen Resend.Step Resend.empty transfer ∧ transfer.sent = last.history ∧
      last.feed.outMessage = received (Resend.inbox transfer) ∧
      (LinkQuiet last → queued last.sender = [] ∧ last.feed.outMessage = received (wire last.history last.rounds) ∧
        ∀ msg ∈ last.history, decodedAs msg msg.pbBody ∈ last.feed.outMessage) :=
  link_delivers .byServer spareBuffer wideBuffer twoRepliesOver spare_buffer_ok (by decide) (by decide) (by decide)
    (by decide) (by decide +kernel)

example : (run linkStep (newLink .byServer spareBuffer wideBuffer) twoRepliesOver).map
    (fun last => (decide (LinkQuiet last), last.feed.outMessage.map TinyPBProtocol.msgId)) =
      some (true, [[0x31], [0x31], [0x32]]) := by
  decide +kernel

end Rocket
