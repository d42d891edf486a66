import Rocket.TcpBuffer

set_option autoImplicit false

namespace Rocket

open Word32

def PB_START : UInt8 := 0x02
def PB_END : UInt8 := 0x03

-- std::string is a byte sequence: a msg_id or a method name may hold any bytes.
structure TinyPBProtocol where
  msgId : Bytes := []
  pkLength : Int := 0
  msgIdLen : Int := 0
  methodNameLen : Int := 0
  methodName : Bytes := []
  errCode : Int := 0
  errInfoLen : Int := 0
  errInfo : Bytes := []
  pbBody : Bytes := []
  checkSum : Int := 0
  paraseSuccess : Bool := false
deriving DecidableEq, Repr

def setMethodName (msg : TinyPBProtocol) (methodName : Bytes) : TinyPBProtocol :=
  { msg with methodName := methodName, methodNameLen := narrow methodName.length }

def setErrInfo (msg : TinyPBProtocol) (errInfo : Bytes) : TinyPBProtocol :=
  { msg with errInfo := errInfo, errInfoLen := narrow errInfo.length }

-- "114514", the id given to a message that has none.
def defaultMsgId : Bytes := [0x31, 0x31, 0x34, 0x35, 0x31, 0x34]

def ensureMsgId (msg : TinyPBProtocol) : TinyPBProtocol :=
  if msg.msgId = [] then { msg with msgId := defaultMsgId } else msg

def frameLength (msg : TinyPBProtocol) : Nat :=
  2 + 24 + msg.msgId.length + msg.methodName.length + msg.errInfo.length + msg.pbBody.length

def frameBytes (msg : TinyPBProtocol) (pkLen : Int) : Bytes :=
  PB_START :: (bigEndian pkLen
    ++ bigEndian (narrow msg.msgId.length) ++ msg.msgId
    ++ bigEndian (narrow msg.methodName.length) ++ msg.methodName
    ++ bigEndian msg.errCode
    ++ bigEndian (narrow msg.errInfo.length) ++ msg.errInfo
    ++ msg.pbBody
    ++ bigEndian 1 ++ [PB_END])

-- The writes into the malloc(pk_len) block run up to frameLength, so they stay
-- inside exactly when the conversion to int did not lose anything.
def encodeTinyPB (message : TinyPBProtocol) : Option (TinyPBProtocol × Bytes) :=
  let msg := ensureMsgId message
  let pkLen := narrow (frameLength msg)
  if (frameLength msg : Int) ≤ pkLen then
    some ({ msg with
      pkLength := pkLen
      msgIdLen := narrow msg.msgId.length
      methodNameLen := narrow msg.methodName.length
      errInfoLen := narrow msg.errInfo.length
      paraseSuccess := true }, frameBytes msg pkLen)
  else none

-- TinyPBCoder::encode. The messages are shared pointers, so the caller sees
-- the lengths and the default id that encodeTinyPB stores in them.
def encode : List TinyPBProtocol → TcpBuffer → Option (List TinyPBProtocol × TcpBuffer)
  | [], outBuffer => some ([], outBuffer)
  | message :: messages, outBuffer => do
      let (sent, bytes) ← encodeTinyPB message
      let outBuffer ← writeToBuffer outBuffer bytes
      let (rest, outBuffer) ← encode messages outBuffer
      some (sent :: rest, outBuffer)

def encodedBytes : List TinyPBProtocol → Option Bytes
  | [] => some []
  | message :: messages => do
      let (_, bytes) ← encodeTinyPB message
      let rest ← encodedBytes messages
      some (bytes ++ rest)

theorem frame_bytes_length (msg : TinyPBProtocol) (pkLen : Int) :
    (frameBytes msg pkLen).length = frameLength msg := by
  simp only [frameBytes, frameLength, List.length_cons, List.length_append, big_endian_length, List.length_nil]
  omega

theorem narrow_frame_length (msg : TinyPBProtocol) (fits : frameLength msg < 2 ^ 31) :
    narrow (frameLength msg) = frameLength msg :=
  narrow_of_range _ ⟨by omega, by omega⟩

theorem narrow_length (bytes : Bytes) (fits : bytes.length < 2 ^ 31) : narrow bytes.length = bytes.length :=
  narrow_of_range _ ⟨by omega, by omega⟩

theorem encode_tiny_pb_frame (message sent : TinyPBProtocol) (bytes : Bytes)
    (encoded : encodeTinyPB message = some (sent, bytes)) :
    frameLength (ensureMsgId message) < 2 ^ 31 ∧
      bytes = frameBytes (ensureMsgId message) (frameLength (ensureMsgId message)) := by
  simp only [encodeTinyPB] at encoded
  split at encoded
  · rename_i inside
    have range := narrow_range (frameLength (ensureMsgId message))
    have fits : frameLength (ensureMsgId message) < 2 ^ 31 := by
      rw [InRange] at range
      omega
    rw [narrow_frame_length _ fits] at encoded
    cases encoded
    exact ⟨fits, rfl⟩
  · cases encoded

theorem encode_tiny_pb_defined (message : TinyPBProtocol) (fits : frameLength (ensureMsgId message) < 2 ^ 31) :
    ∃ sent, encodeTinyPB message = some (sent, frameBytes (ensureMsgId message) (frameLength (ensureMsgId message))) := by
  simp only [encodeTinyPB, narrow_frame_length _ fits, Int.le_refl, if_true]
  exact ⟨_, rfl⟩

theorem encode_length (messages sent : List TinyPBProtocol) (outBuffer next : TcpBuffer)
    (encoded : encode messages outBuffer = some (sent, next)) : sent.length = messages.length := by
  induction messages generalizing outBuffer sent with
  | nil =>
      cases encoded
      rfl
  | cons message messages ih =>
      simp only [encode, Option.bind_eq_bind, Option.bind_eq_some_iff, Prod.exists] at encoded
      obtain ⟨_, _, _, grown, _, others, _, rest, same⟩ := encoded
      cases same
      exact congrArg (· + 1) (ih others grown rest)

theorem encode_appends (messages sent : List TinyPBProtocol) (outBuffer next : TcpBuffer) (ok : BufferOk outBuffer)
    (encoded : encode messages outBuffer = some (sent, next)) :
    ∃ bytes, encodedBytes messages = some bytes ∧ BufferOk next ∧ readable next = readable outBuffer ++ bytes := by
  induction messages generalizing outBuffer sent with
  | nil =>
      cases encoded
      exact ⟨[], rfl, ok, (List.append_nil _).symm⟩
  | cons message messages ih =>
      simp only [encode, Option.bind_eq_bind, Option.bind_eq_some_iff, Prod.exists] at encoded
      obtain ⟨first, bytes, single, grown, written, others, last, rest, same⟩ := encoded
      cases same
      have fits : Fits outBuffer bytes.length := by
        by_contra tooLong
        rw [write_to_buffer_overrun outBuffer bytes ok tooLong] at written
        cases written
      obtain ⟨later, writtenLater, laterOk, content⟩ := write_to_buffer_spec outBuffer bytes ok fits
      cases writtenLater.symm.trans written
      obtain ⟨tail, collected, nextOk, total⟩ := ih others grown laterOk rest
      refine ⟨bytes ++ tail, ?_, nextOk, ?_⟩
      · simp only [encodedBytes, single, collected, Option.bind_eq_bind, Option.bind_some]
      · rw [total, content, List.append_assoc]

def EncodingFits : List TinyPBProtocol → TcpBuffer → Prop
  | [], _ => True
  | message :: messages, outBuffer =>
      frameLength (ensureMsgId message) < 2 ^ 31 ∧ Fits outBuffer (frameLength (ensureMsgId message)) ∧
        ∀ next ∈ writeToBuffer outBuffer (frameBytes (ensureMsgId message) (frameLength (ensureMsgId message))),
          EncodingFits messages next

instance encodingFitsDecidable :
    (messages : List TinyPBProtocol) → (outBuffer : TcpBuffer) → Decidable (EncodingFits messages outBuffer)
  | [], _ => isTrue trivial
  | message :: messages, outBuffer =>
      have := fun next => encodingFitsDecidable messages next
      inferInstanceAs (Decidable (frameLength (ensureMsgId message) < 2 ^ 31 ∧
        Fits outBuffer (frameLength (ensureMsgId message)) ∧
        ∀ next ∈ writeToBuffer outBuffer (frameBytes (ensureMsgId message) (frameLength (ensureMsgId message))),
          EncodingFits messages next))

theorem encode_defined (messages : List TinyPBProtocol) (outBuffer : TcpBuffer) (ok : BufferOk outBuffer)
    (fits : EncodingFits messages outBuffer) : ∃ result, encode messages outBuffer = some result := by
  induction messages generalizing outBuffer with
  | nil => exact ⟨_, rfl⟩
  | cons message messages ih =>
      obtain ⟨short, room, rest⟩ := fits
      obtain ⟨sent, encoded⟩ := encode_tiny_pb_defined message short
      rw [← frame_bytes_length (ensureMsgId message) (frameLength (ensureMsgId message))] at room
      obtain ⟨next, written, nextOk, _⟩ := write_to_buffer_spec outBuffer _ ok room
      obtain ⟨⟨others, last⟩, encodedRest⟩ := ih next nextOk (rest next written)
      refine ⟨(sent :: others, last), ?_⟩
      simp only [encode, encoded, written, encodedRest, Option.bind_eq_bind, Option.bind_some]

theorem encode_fits (messages : List TinyPBProtocol) (outBuffer : TcpBuffer) (result : List TinyPBProtocol × TcpBuffer)
    (ok : BufferOk outBuffer) (encoded : encode messages outBuffer = some result) : EncodingFits messages outBuffer := by
  induction messages generalizing outBuffer result with
  | nil => trivial
  | cons message messages ih =>
      simp only [encode, Option.bind_eq_bind, Option.bind_eq_some_iff, Prod.exists] at encoded
      obtain ⟨sent, bytes, single, next, written, others, last, rest, _⟩ := encoded
      obtain ⟨short, rfl⟩ := encode_tiny_pb_frame message sent bytes single
      have room : Fits outBuffer (frameLength (ensureMsgId message)) := by
        by_contra tooLong
        rw [← frame_bytes_length (ensureMsgId message) (frameLength (ensureMsgId message))] at tooLong
        rw [write_to_buffer_overrun outBuffer _ ok tooLong] at written
        cases written
      refine ⟨short, room, ?_⟩
      intro other writtenOther
      cases writtenOther.symm.trans written
      rw [← frame_bytes_length (ensureMsgId message) (frameLength (ensureMsgId message))] at room
      obtain ⟨same, writtenSame, sameOk, _⟩ := write_to_buffer_spec outBuffer _ ok room
      cases writtenSame.symm.trans written
      exact ih _ (others, last) sameOk rest

end Rocket
