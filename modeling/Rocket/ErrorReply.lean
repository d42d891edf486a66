import Rocket.FrameStream
import Rocket.RpcChannel
import Rocket.RpcDispatcher

set_option autoImplicit false

namespace Rocket

open Memory Word32 WhileLoop

structure ErrorReply where
  msgId : Bytes
  methodName : Bytes
  errCode : Int
  errInfo : Bytes
  idNonempty : msgId ≠ []
  idFits : msgId.length ≤ 100
  methodFits : methodName.length ≤ 512
  codeNonzero : errCode ≠ 0
  codeFits : InRange errCode
  textNonempty : errInfo ≠ []
  textFits : errInfo.length ≤ 511
  textNoNul : (0 : UInt8) ∉ errInfo

def errorMessage (reply : ErrorReply) : TinyPBProtocol :=
  setTinyPBErrorCode (setMethodName { msgId := reply.msgId } reply.methodName) reply.errCode reply.errInfo

variable {ρ : Type}

-- The first message that decode pushes is the reply, with no body, and the
-- response callback leaves its code and text in the controller.
def ErrorDelivered (parseFromString : Bytes → Bool × ρ) (reply : ErrorReply) (buf : TcpBuffer) (ch : Channel ρ) : Prop :=
  ∃ count received others rest later, turns decodeTurn count ([], buf) = some (.next (received :: others, rest)) ∧
    received.errCode = reply.errCode ∧ received.errInfo = reply.errInfo ∧ received.pbBody = [] ∧
    responseCallback parseFromString ch received = some later ∧
    (later.controllers later.own).errorCode = reply.errCode ∧ (later.controllers later.own).errorInfo = reply.errInfo

theorem error_message_room (reply : ErrorReply) :
    frameLength (errorMessage reply) + (errorMessage reply).errInfo.length < 2 ^ 31 := by
  have idFits := reply.idFits
  have methodFits := reply.methodFits
  have textFits := reply.textFits
  simp only [frameLength, errorMessage, setTinyPBErrorCode, setMethodName, setErrInfo, List.length_nil]
  omega

theorem error_message_sendable (reply : ErrorReply) : Sendable (errorMessage reply) :=
  ⟨reply.idNonempty, reply.idFits, reply.methodFits, reply.codeFits,
    Nat.lt_of_le_of_lt (Nat.le_add_right _ _) (error_message_room reply)⟩

-- The turn that meets the frame either reads outside the vector or pushes the
-- message with a body of twice the length of the text.
theorem decode_turn_error (reply : ErrorReply) (out : List TinyPBProtocol) (buf : TcpBuffer) (rest : Bytes)
    (ok : BufferOk buf) (content : readable buf = frame (errorMessage reply) ++ rest) :
    decodeTurn (out, buf) = none ∨ ∃ next pbBody, pbBody.length = 2 * reply.errInfo.length ∧
      decodeTurn (out, buf) = some (.next (out ++ [decodedAs (errorMessage reply) pbBody], next)) := by
  have sendable := error_message_sendable reply
  have holds := readable_holds buf _ ok content
  have scanned := scan_front buf.buffer rest buf.readIndex buf.writeIndex (errorMessage reply) sendable
    (Int.lt_of_le_of_lt ok.writeUpper ok.fitsInt) holds
  have parsed := parse_frame_genuine buf.buffer rest buf.readIndex buf.writeIndex (errorMessage reply) sendable holds
    reply.textFits reply.textNoNul (error_message_room reply)
  simp only [decodeTurn, scanned, Option.bind_eq_bind, Option.bind_some, parsed]
  cases moveReadIndex buf (buf.readIndex + (frameLength (errorMessage reply) : Int) - 1 - buf.readIndex + 1) with
  | none => exact Or.inl rfl
  | some next =>
      cases found : slice buf.buffer (bodyIndex (errorMessage reply) buf.readIndex)
          ((errorMessage reply).pbBody.length + 2 * (errorMessage reply).errInfo.length) with
      | none => exact Or.inl rfl
      | some pbBody =>
          refine Or.inr ⟨next, pbBody, ?_, rfl⟩
          have width := slice_length buf.buffer pbBody _ _ found
          simp only [errorMessage, setTinyPBErrorCode, setMethodName, setErrInfo, List.length_nil] at width
          omega

theorem error_never_delivered (parseFromString : Bytes → Bool × ρ) (reply : ErrorReply) (buf : TcpBuffer) (rest : Bytes)
    (ch : Channel ρ) (ok : BufferOk buf) (content : readable buf = frame (errorMessage reply) ++ rest) :
    ¬ ErrorDelivered parseFromString reply buf ch := by
  rintro ⟨count, received, others, last, _, turned, _, _, empty, _⟩
  cases count with
  | zero => cases turned
  | succ count =>
      rcases decode_turn_error reply [] buf rest ok content with undefined | ⟨next, pbBody, width, turn⟩
      · simp [turns, run, List.replicate_succ, undefined] at turned
      · rw [turns_succ decodeTurn count _ _ turn] at turned
        obtain ⟨added, same⟩ := decode_turns_append count _ _ next last turned
        cases same
        have nonempty : 0 < reply.errInfo.length := List.length_pos_iff.mpr reply.textNonempty
        rw [show pbBody = [] from empty, List.length_nil] at width
        omega

-- A response type that accepts the empty string and rejects a zero tag byte.
def parseWithTag (body : Bytes) : Bool × Bytes := (decide (body.head? ≠ some 0), body)

def noMethodReply : ErrorReply :=
  { msgId := [0x31], methodName := [0x70], errCode := ERROR_METHOD_NOT_FOUND, errInfo := [0x6E, 0x6F],
    idNonempty := by decide, idFits := by decide, methodFits := by decide, codeNonzero := by decide, codeFits := by decide,
    textNonempty := by decide, textFits := by decide, textNoNul := by decide }

def noMethodBuffer : TcpBuffer := ⟨0, 30, 40, frame (errorMessage noMethodReply) ++ List.replicate 10 0⟩

theorem no_method_never_delivered :
    ¬ ErrorDelivered parseWithTag noMethodReply noMethodBuffer (initialised true (fun _ => {}) 0 0 []) :=
  error_never_delivered parseWithTag noMethodReply noMethodBuffer [] _ (by decide) (by decide)

-- The four checksum bytes become the body, and the caller is told that the
-- response could not be parsed.
theorem no_method_diverges :
    Decodes [] noMethodBuffer
        ([decodedAs (errorMessage noMethodReply) [0, 0, 0, 1]], { noMethodBuffer with readIndex := 0, writeIndex := 0 }) ∧
      (responseCallback parseWithTag (initialised true (fun _ => {}) 0 0 [])
        (decodedAs (errorMessage noMethodReply) [0, 0, 0, 1])).map (fun ch => (ch.controllers 0).errorCode) =
        some ERROR_FAILED_DESERIALIZE :=
  ⟨⟨2, by decide +kernel⟩, by decide⟩

end Rocket
