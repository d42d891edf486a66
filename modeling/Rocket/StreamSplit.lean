import Mathlib.Data.Int.Range
import Rocket.FrameStream
import Rocket.Lib.Trace

set_option autoImplicit false

namespace Rocket

open Memory Word32 Trace

-- A connection that reads a stream in pieces. A piece arrives between two calls
-- of decode and starts the next call; a turn is one iteration of while (1).
structure Feed where
  incoming : Bytes
  buf : TcpBuffer
  outMessage : List TinyPBProtocol
  decoding : Bool

inductive FeedAction where
  | arrive (count : Nat)
  | turn
deriving DecidableEq, Repr

def feedArrive (feed : Feed) (count : Nat) : Option Feed :=
  let chunk := feed.incoming.take count
  if feed.decoding = false ∧ (chunk.length : Int) < writeAble feed.buf then do
    let buf ← writeToBuffer feed.buf chunk
    some { feed with incoming := feed.incoming.drop count, buf := buf, decoding := true }
  else some feed

def feedTurn (feed : Feed) : Option Feed :=
  if feed.decoding = true then
    match decodeTurn (feed.outMessage, feed.buf) with
    | none => none
    | some (.next (outMessage, buf)) => some { feed with outMessage := outMessage, buf := buf }
    | some (.stop (outMessage, buf)) => some { feed with outMessage := outMessage, buf := buf, decoding := false }
  else some feed

def feedStep (feed : Feed) : FeedAction → Option Feed
  | .arrive count => feedArrive feed count
  | .turn => feedTurn feed

-- No readable 0x02 that has a byte behind it is followed by a length whose last
-- byte is a 0x03. The four length bytes may lie behind the write index.
def Harmless (buf : TcpBuffer) : Prop :=
  ∀ i, buf.readIndex ≤ i → i < buf.writeIndex → cell buf.buffer i = some PB_START → i + 1 < buf.writeIndex →
    ∃ pkLen ∈ getInt32FromNetByte buf.buffer (i + 1), InRange (i + pkLen) ∧ InRange (i + pkLen - 1) ∧
      (i + pkLen - 1 ≥ buf.writeIndex ∨ ∃ last ∈ cell buf.buffer (i + pkLen - 1), last ≠ PB_END)

def Partial (messages : List TinyPBProtocol) (feed : Feed) : Prop :=
  ∃ msg ∈ messages[feed.outMessage.length]?, (readable feed.buf).length < frameLength msg

def FeedGuard (messages : List TinyPBProtocol) (feed : Feed) : FeedAction → Prop
  | .arrive _ => True
  | .turn => feed.decoding = true → Partial messages feed → Harmless feed.buf

instance (buf : TcpBuffer) : Decidable (Harmless buf) := by
  unfold Harmless
  infer_instance

instance (messages : List TinyPBProtocol) (feed : Feed) (action : FeedAction) :
    Decidable (FeedGuard messages feed action) := by
  cases action <;> unfold FeedGuard Partial <;> infer_instance

-- The messages decoded so far and the bytes not yet decoded make up the stream,
-- and between two calls no whole frame is left undecoded.
def InStep (messages : List TinyPBProtocol) (feed : Feed) : Prop :=
  ∃ done left, messages = done ++ left ∧ feed.outMessage = received done ∧
    readable feed.buf ++ feed.incoming = stream left ∧
    (feed.decoding = false → ∀ msg rest, left = msg :: rest → (readable feed.buf).length < frameLength msg)

structure Feeding (messages : List TinyPBProtocol) (feed : Feed) : Prop where
  ok : BufferOk feed.buf
  space : feed.buf.writeIndex < feed.buf.size
  inStep : InStep messages feed

theorem scan_from_harmless (buf : TcpBuffer) (harmless : Harmless buf) (left : Nat) (i : Int) (ok : BufferOk buf)
    (lower : buf.readIndex ≤ i) (upper : i + left = buf.writeIndex) :
    scanFrom buf.buffer buf.writeIndex left i = some none := by
  induction left generalizing i with
  | zero => rfl
  | succ left ih =>
      have next := ih (i + 1) (by omega) (by omega)
      have holds : Holds buf.buffer i buf.writeIndex (window buf.buffer i buf.writeIndex) :=
        ⟨by have := ok.readLower; omega, by omega, ok.vector ▸ ok.writeUpper, rfl⟩
      have total := holds_length buf.buffer _ i buf.writeIndex holds
      cases content : window buf.buffer i buf.writeIndex with
      | nil =>
          rw [content, List.length_nil] at total
          omega
      | cons byte after =>
          rw [content] at holds
          have here := holds_cell buf.buffer after byte i buf.writeIndex holds
          by_cases start : byte = PB_START ∧ i + 1 < buf.writeIndex
          · obtain ⟨isStart, inside⟩ := start
            rw [isStart] at here
            obtain ⟨pkLen, length, sum, last, outcome⟩ := harmless i lower (by omega) here inside
            rw [Option.mem_def] at length
            simp only [scanFrom, here, inside, length, checked_some _ sum, checked_some _ last, Option.bind_eq_bind,
              Option.bind_some, and_self, if_true]
            by_cases behind : i + pkLen - 1 ≥ buf.writeIndex
            · rw [if_pos behind, next]
            · obtain impossible | ⟨byte, found, different⟩ := outcome
              · exact absurd impossible behind
              · rw [if_neg behind, found, Option.bind_some, if_neg different, next]
          · rw [scanFrom, here, Option.bind_eq_bind, Option.bind_some, if_neg start, next]

theorem decode_turn_harmless (out : List TinyPBProtocol) (buf : TcpBuffer) (ok : BufferOk buf) (harmless : Harmless buf) :
    decodeTurn (out, buf) = some (.stop (out, buf)) := by
  have order := ok.ordered
  have none : scan buf.buffer buf.readIndex buf.writeIndex = some none :=
    scan_from_harmless buf harmless _ buf.readIndex ok (Int.le_refl _) (by omega)
  simp only [decodeTurn, none, Option.bind_eq_bind, Option.bind_some]

theorem plain_tail (done left : List TinyPBProtocol) (plain : Plain (done ++ left)) : Plain left :=
  fun msg member => plain msg (List.mem_append_right done member)

theorem stream_cons (msg : TinyPBProtocol) (messages : List TinyPBProtocol) :
    stream (msg :: messages) = frame msg ++ stream messages := rfl

theorem received_append (done : List TinyPBProtocol) (msg : TinyPBProtocol) :
    received done ++ [decodedAs msg msg.pbBody] = received (done ++ [msg]) := by
  simp only [received, List.map_append, List.map_cons, List.map_nil]

theorem feed_arrive_keeps (messages : List TinyPBProtocol) (feed : Feed) (count : Nat) (inv : Feeding messages feed) :
    ∃ later, feedArrive feed count = some later ∧ Feeding messages later := by
  by_cases enabled : feed.decoding = false ∧ ((feed.incoming.take count).length : Int) < writeAble feed.buf
  · have room := enabled.2
    obtain ⟨next, written, nextOk, content, sameSize, moved⟩ :=
      write_to_buffer_room feed.buf (feed.incoming.take count) inv.ok (Int.le_of_lt room)
    refine ⟨{ feed with incoming := feed.incoming.drop count, buf := next, decoding := true }, ?_, nextOk, ?_, ?_⟩
    · simp only [feedArrive, if_pos enabled, written, Option.bind_eq_bind, Option.bind_some]
    · rw [writeAble] at room
      simp only [sameSize, moved]
      omega
    · obtain ⟨done, left, split, out, bytes, _⟩ := inv.inStep
      refine ⟨done, left, split, out, ?_, by intro idle; cases idle⟩
      simpa only [content, List.append_assoc, List.take_append_drop] using bytes
  · exact ⟨feed, if_neg enabled, inv⟩

-- One turn takes the next frame when all of it is there and otherwise ends the
-- call. The second part bounds the number of turns in a call.
theorem feed_turn_keeps (messages : List TinyPBProtocol) (plain : Plain messages) (feed : Feed)
    (inv : Feeding messages feed) (guard : FeedGuard messages feed .turn) :
    ∃ later, feedTurn feed = some later ∧ Feeding messages later ∧
      (later.decoding = false ∨ (readable later.buf).length < (readable feed.buf).length) := by
  by_cases active : feed.decoding = true
  · obtain ⟨done, left, split, out, bytes, _⟩ := inv.inStep
    have stops (stopped : decodeTurn (feed.outMessage, feed.buf) = some (.stop (feed.outMessage, feed.buf)))
        (short : ∀ msg rest, left = msg :: rest → (readable feed.buf).length < frameLength msg) :
        ∃ later, feedTurn feed = some later ∧ Feeding messages later ∧
          (later.decoding = false ∨ (readable later.buf).length < (readable feed.buf).length) := by
      refine ⟨{ feed with decoding := false }, ?_, ⟨inv.ok, inv.space, ?_⟩, Or.inl rfl⟩
      · simp only [feedTurn, if_pos active, stopped]
      · exact ⟨done, left, split, out, bytes, fun _ => short⟩
    cases left with
    | nil =>
        obtain ⟨empty, _⟩ := List.append_eq_nil_iff.mp bytes
        exact stops (decode_turn_empty feed.outMessage feed.buf inv.ok empty) (by intro msg rest none; cases none)
    | cons msg rest =>
        rw [split] at plain
        obtain ⟨sendable, noText⟩ := plain_tail done _ plain msg List.mem_cons_self
        -- A whole frame is taken at once; inside a part of one the guard keeps the scan from finding another.
        by_cases short : (readable feed.buf).length < frameLength msg
        · have position : messages[feed.outMessage.length]? = some msg := by
            rw [split, out, received, List.length_map, List.getElem?_append_right (Nat.le_refl _), Nat.sub_self]
            rfl
          have harmless := guard active ⟨msg, position, short⟩
          refine stops (decode_turn_harmless feed.outMessage feed.buf inv.ok harmless) ?_
          intro other others same
          cases same
          exact short
        · rw [stream_cons] at bytes
          have whole : frame msg <+: readable feed.buf := by
            refine List.prefix_of_prefix_length_le ⟨_, rfl⟩ ⟨feed.incoming, bytes⟩ ?_
            rw [frame_length]
            omega
          obtain ⟨tail, content⟩ := whole
          obtain ⟨next, turn, nextOk, space, remains⟩ :=
            decode_turn_front feed.outMessage feed.buf msg tail inv.ok inv.space sendable noText content.symm
          refine ⟨{ feed with outMessage := feed.outMessage ++ [decodedAs msg msg.pbBody], buf := next }, ?_,
            ⟨nextOk, space, done ++ [msg], rest, ?_, ?_, ?_, ?_⟩, Or.inr ?_⟩
          · simp only [feedTurn, if_pos active, turn]
          · rw [split, List.append_assoc]
            rfl
          · rw [← received_append, out]
          · rw [← content, List.append_assoc] at bytes
            rw [remains]
            exact List.append_cancel_left bytes
          · intro idle
            exact absurd (idle.symm.trans active) (by decide)
          · have least := frame_length_lower msg
            simp only [remains, ← content, List.length_append, frame_length]
            omega
  · have idle : feed.decoding = false := by simpa using active
    exact ⟨feed, if_neg active, inv, Or.inl idle⟩

theorem feed_step_keeps (messages : List TinyPBProtocol) (plain : Plain messages) (feed : Feed) (action : FeedAction)
    (inv : Feeding messages feed) (guard : FeedGuard messages feed action) :
    ∃ later, feedStep feed action = some later ∧ Feeding messages later := by
  cases action with
  | arrive count => exact feed_arrive_keeps messages feed count inv
  | turn =>
      obtain ⟨later, taken, kept, _⟩ := feed_turn_keeps messages plain feed inv guard
      exact ⟨later, taken, kept⟩

theorem feed_idle_stays (feed : Feed) (idle : feed.decoding = false) (count : Nat) :
    run feedStep feed (List.replicate count .turn) = some feed := by
  have stutter : feedStep feed .turn = some feed := if_neg (by simp [idle])
  induction count with
  | zero => rfl
  | succ count ih => rw [List.replicate_succ, run_cons feedStep feed feed .turn _ stutter, ih]

theorem feed_turns_end (messages : List TinyPBProtocol) (plain : Plain messages) (count : Nat) (feed : Feed)
    (inv : Feeding messages feed) (enough : (readable feed.buf).length < count)
    (guarded : Guarded feedStep (FeedGuard messages) feed (List.replicate count .turn)) :
    ∃ idle, run feedStep feed (List.replicate count .turn) = some idle ∧ idle.decoding = false := by
  induction count generalizing feed with
  | zero => exact absurd enough (Nat.not_lt_zero _)
  | succ count ih =>
      obtain ⟨allowed, rest⟩ := guarded
      obtain ⟨later, taken, kept, ended | shorter⟩ := feed_turn_keeps messages plain feed inv allowed
      · refine ⟨later, ?_, ended⟩
        rw [List.replicate_succ, run_cons feedStep feed later .turn _ taken]
        exact feed_idle_stays later ended count
      · obtain ⟨idle, reached, ended⟩ := ih later kept (by omega) (rest later taken)
        refine ⟨idle, ?_, ended⟩
        rw [List.replicate_succ, run_cons feedStep feed later .turn _ taken]
        exact reached

theorem in_step_all_arrived (messages : List TinyPBProtocol) (feed : Feed) (inStep : InStep messages feed)
    (idle : feed.decoding = false) (arrived : feed.incoming = []) : feed.outMessage = received messages := by
  obtain ⟨done, left, split, out, bytes, short⟩ := inStep
  cases left with
  | nil => rw [out, split, List.append_nil]
  | cons msg rest =>
      have tooShort := short idle msg rest rfl
      rw [arrived, List.append_nil] at bytes
      rw [bytes, stream_cons, List.length_append, frame_length] at tooShort
      omega

def feedStart (incoming : Bytes) (buf : TcpBuffer) : Feed := ⟨incoming, buf, [], false⟩

theorem feeding_start (messages : List TinyPBProtocol) (plain : Plain messages) (incoming : Bytes) (buf : TcpBuffer)
    (encoded : encodedBytes messages = some incoming) (ok : BufferOk buf) (space : buf.writeIndex < buf.size)
    (empty : readable buf = []) : Feeding messages (feedStart incoming buf) := by
  have bytes : incoming = stream messages := Option.some.inj (encoded.symm.trans (encoded_bytes_plain messages plain))
  refine ⟨ok, space, [], messages, rfl, rfl, ?_, ?_⟩
  · rw [feedStart, empty, bytes]
    rfl
  · intro _ msg _ _
    have least := frame_length_lower msg
    simp only [feedStart, empty, List.length_nil]
    omega

theorem split_stream_decoded (messages : List TinyPBProtocol) (incoming : Bytes) (buf : TcpBuffer)
    (actions : List FeedAction) (sendable : ∀ msg ∈ messages, Sendable msg)
    (noText : ∀ msg ∈ messages, msg.errInfo = []) (encoded : encodedBytes messages = some incoming) (ok : BufferOk buf)
    (space : buf.writeIndex < buf.size) (empty : readable buf = [])
    (guarded : Guarded feedStep (FeedGuard messages) (feedStart incoming buf) actions) :
    Always feedStep (InStep messages) (feedStart incoming buf) actions ∧
      ∀ last, run feedStep (feedStart incoming buf) actions = some last →
        (∀ count, (readable last.buf).length < count →
          Guarded feedStep (FeedGuard messages) last (List.replicate count .turn) →
          ∃ idle, run feedStep last (List.replicate count .turn) = some idle ∧ idle.decoding = false) ∧
        (last.decoding = false → last.incoming = [] →
          last.outMessage.map wireContent = messages.map wireContent ∧
          ∀ whole, BufferOk whole → whole.writeIndex < whole.size → readable whole = incoming →
            ∃ rest, Decodes [] whole (last.outMessage, rest)) := by
  have plain : Plain messages := fun msg member => ⟨sendable msg member, noText msg member⟩
  have bytes : incoming = stream messages := Option.some.inj (encoded.symm.trans (encoded_bytes_plain messages plain))
  have start := feeding_start messages plain incoming buf encoded ok space empty
  have always := guarded_always feedStep (FeedGuard messages) (Feeding messages) (feed_step_keeps messages plain)
    (feedStart incoming buf) actions start guarded
  refine ⟨always_mono feedStep _ _ (fun _ inv => inv.inStep) _ _ always, ?_⟩
  intro last reached
  obtain ⟨same, sameReached, inv⟩ := always_run feedStep _ _ _ always
  cases reached.symm.trans sameReached
  refine ⟨fun count enough continued => feed_turns_end messages plain count last inv enough continued, ?_⟩
  intro idle arrived
  have out := in_step_all_arrived messages last inv.inStep idle arrived
  refine ⟨by rw [out, wire_content_received], ?_⟩
  intro whole wholeOk wholeSpace content
  obtain ⟨rest, ended, _⟩ := decode_stream messages [] whole plain wholeOk wholeSpace (content.trans bytes)
  exact ⟨rest, by rw [out]; exact ended⟩

theorem split_ping_decoded :
    Always feedStep (InStep [pingRequest]) (feedStart (frame pingRequest) ⟨0, 0, 40, List.replicate 40 0⟩)
        [.arrive 7, .turn, .arrive 24, .turn, .turn] :=
  (split_stream_decoded [pingRequest] (frame pingRequest) ⟨0, 0, 40, List.replicate 40 0⟩
    [.arrive 7, .turn, .arrive 24, .turn, .turn]
    (by decide) (by decide) (by decide) (by decide) (by decide) (by decide) (by decide +kernel)).1

-- A body that holds a whole frame. When the piece that arrives ends behind the
-- inner frame, the scan takes the inner frame and drops its bytes.
def innerRequest : TinyPBProtocol := { msgId := [0x32] }

def carrierRequest : TinyPBProtocol := { msgId := [0x31], pbBody := frame innerRequest }

theorem split_carrier_diverges :
    Sendable carrierRequest ∧ carrierRequest.errInfo = [] ∧
      encodedBytes [carrierRequest] = some (frame carrierRequest) ∧
      (run feedStep (feedStart (frame carrierRequest) ⟨0, 0, 128, List.replicate 128 0⟩)
          [.arrive 49, .turn, .turn, .arrive 5, .turn]).map
        (fun last => (last.decoding, last.incoming, last.outMessage.map wireContent)) =
        some (false, [], [wireContent innerRequest]) ∧
      wireContent innerRequest ≠ wireContent carrierRequest :=
  ⟨by decide, by decide, by decide, by decide +kernel, by decide⟩

end Rocket
