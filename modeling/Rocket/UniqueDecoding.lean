import Rocket.FrameStream
import Rocket.Lib.PrefixCode

set_option autoImplicit false

namespace Rocket

open Word32 PrefixCode

-- err_code is an int32_t.
structure Encodable (msg : TinyPBProtocol) : Prop where
  idNonempty : msg.msgId ≠ []
  codeRange : InRange msg.errCode
  fits : frameLength msg < 2 ^ 31

instance (msg : TinyPBProtocol) : Decidable (Encodable msg) :=
  decidable_of_iff (msg.msgId ≠ [] ∧ InRange msg.errCode ∧ frameLength msg < 2 ^ 31)
    ⟨fun ⟨nonempty, code, fits⟩ => ⟨nonempty, code, fits⟩, fun ok => ⟨ok.idNonempty, ok.codeRange, ok.fits⟩⟩

def documentedLength (msg : TinyPBProtocol) : Nat :=
  26 + msg.msgId.length + msg.methodName.length + msg.errInfo.length + msg.pbBody.length

-- The layout of the protocol document, field by field.
def documentedFrame (msg : TinyPBProtocol) : Bytes :=
  [0x02] ++ bigEndian (documentedLength msg) ++ (bigEndian msg.msgId.length ++ msg.msgId)
    ++ (bigEndian msg.methodName.length ++ msg.methodName) ++ bigEndian msg.errCode
    ++ (bigEndian msg.errInfo.length ++ msg.errInfo) ++ msg.pbBody ++ bigEndian 1 ++ [0x03]

theorem frame_documented (msg : TinyPBProtocol) (ok : Encodable msg) : frame msg = documentedFrame msg := by
  have fits := ok.fits
  have sum := frame_length_sum msg
  rw [frame, frameBytes, narrow_length _ (by omega), narrow_length _ (by omega), narrow_length _ (by omega)]
  simp only [documentedFrame, sum, documentedLength, List.append_assoc, List.cons_append, List.nil_append, PB_START, PB_END]

def storedLengths (msg : TinyPBProtocol) : TinyPBProtocol :=
  { msg with
    pkLength := documentedLength msg
    msgIdLen := msg.msgId.length
    methodNameLen := msg.methodName.length
    errInfoLen := msg.errInfo.length
    paraseSuccess := true }

theorem encode_documented (msg : TinyPBProtocol) (ok : Encodable msg) :
    encodeTinyPB msg = some (storedLengths msg, documentedFrame msg) := by
  have fits := ok.fits
  have sum := frame_length_sum msg
  have bytes := frame_documented msg ok
  rw [frame] at bytes
  rw [encodeTinyPB, ensure_msg_id_same msg ok.idNonempty]
  simp only [narrow_frame_length msg fits, Int.le_refl, if_true, bytes, narrow_length _ (by omega : msg.msgId.length < 2 ^ 31),
    narrow_length _ (by omega : msg.methodName.length < 2 ^ 31), narrow_length _ (by omega : msg.errInfo.length < 2 ^ 31)]
  rw [storedLengths, sum, documentedLength]

theorem big_endian_determines (valid : TinyPBProtocol → Prop) (value : TinyPBProtocol → Int)
    (range : ∀ msg, valid msg → InRange (value msg)) : Determines valid value (fun msg => bigEndian (value msg)) := by
  refine determines_width valid value _ 4 (fun _ => big_endian_length _) ?_
  intro one other oneValid otherValid same
  rw [← from_big_endian _ (range one oneValid), ← from_big_endian _ (range other otherValid), same]

theorem prefixed_determines (field : TinyPBProtocol → Bytes)
    (part : ∀ msg, (field msg).length ≤ documentedLength msg) :
    Determines Encodable field (fun msg => bigEndian (field msg).length ++ field msg) := by
  have range (msg : TinyPBProtocol) (ok : Encodable msg) : InRange ((field msg).length : Int) := by
    have fits : documentedLength msg < 2 ^ 31 := ok.fits
    have small := part msg
    exact ⟨by omega, by omega⟩
  apply determines_prefixed
  exact determines_map Encodable _ _ Int.toNat (big_endian_determines Encodable _ range)

-- Everything but the body has a length field of its own; the body has what the
-- other lengths leave of pk_len.
theorem frame_determines : Determines Encodable wireContent documentedFrame := by
  have start : Determines Encodable (fun _ => ()) (fun _ => ([0x02] : Bytes)) :=
    determines_width _ _ _ 1 (fun _ => rfl) (fun _ _ _ _ _ => rfl)
  have length : Determines Encodable (fun msg => (documentedLength msg : Int)) (fun msg => bigEndian (documentedLength msg)) := by
    refine big_endian_determines Encodable _ ?_
    intro msg ok
    have fits : documentedLength msg < 2 ^ 31 := ok.fits
    exact ⟨by omega, by omega⟩
  have msgId := prefixed_determines (fun msg => msg.msgId) (fun msg => by rw [documentedLength]; omega)
  have methodName := prefixed_determines (fun msg => msg.methodName) (fun msg => by rw [documentedLength]; omega)
  have errCode := big_endian_determines Encodable (fun msg => msg.errCode) (fun msg ok => ok.codeRange)
  have errInfo := prefixed_determines (fun msg => msg.errInfo) (fun msg => by rw [documentedLength]; omega)
  have check : Determines Encodable (fun _ => ()) (fun _ => bigEndian 1) :=
    determines_width _ _ _ 4 (fun _ => rfl) (fun _ _ _ _ _ => rfl)
  have stop : Determines Encodable (fun _ => ()) (fun _ => ([0x03] : Bytes)) :=
    determines_width _ _ _ 1 (fun _ => rfl) (fun _ _ _ _ _ => rfl)
  have head := determines_append _ _ _ _ _ (determines_append _ _ _ _ _ start length) msgId
  have fields := determines_append _ _ _ _ _ (determines_append _ _ _ _ _ (determines_append _ _ _ _ _ head methodName)
    errCode) errInfo
  have body := determines_sized _ _ _ (fun msg => msg.pbBody) fields (by
    intro one other _ _ same
    simp only [Prod.mk.injEq] at same
    obtain ⟨⟨⟨⟨⟨_, total⟩, sameId⟩, sameMethod⟩, _⟩, sameInfo⟩ := same
    simp only [documentedLength, sameId, sameMethod, sameInfo] at total
    omega)
  have whole := determines_append _ _ _ _ _ (determines_append _ _ _ _ _ body check) stop
  exact determines_map _ _ _ (fun fields => WireContent.mk fields.1.1.1.1.1.1.2 fields.1.1.1.1.1.2 fields.1.1.1.1.2
    fields.1.1.1.2 fields.1.1.2) whole

theorem wire_content_frame (one other : TinyPBProtocol) (same : wireContent one = wireContent other) :
    documentedFrame one = documentedFrame other := by
  obtain ⟨msgId, methodName, errCode, errInfo, pbBody⟩ := WireContent.mk.inj same
  simp only [documentedFrame, documentedLength, msgId, methodName, errCode, errInfo, pbBody]

theorem encoded_bytes_documented (messages : List TinyPBProtocol) (ok : ∀ msg ∈ messages, Encodable msg) :
    encodedBytes messages = some (messages.map documentedFrame).flatten := by
  induction messages with
  | nil => rfl
  | cons msg messages ih =>
      have encoded := encode_documented msg (ok msg List.mem_cons_self)
      have rest := ih (fun other member => ok other (List.mem_cons_of_mem msg member))
      simp only [encodedBytes, encoded, rest, Option.bind_eq_bind, Option.bind_some, List.map_cons, List.flatten_cons]

theorem encode_uniquely_decodable :
    (∀ msg, Encodable msg → encodeTinyPB msg = some (storedLengths msg, documentedFrame msg) ∧
      (documentedFrame msg).length = documentedLength msg) ∧
    (∀ one other sentOne sentOther bytes otherBytes rest others, Encodable one → Encodable other →
      encodeTinyPB one = some (sentOne, bytes) → encodeTinyPB other = some (sentOther, otherBytes) →
      bytes ++ rest = otherBytes ++ others → wireContent one = wireContent other ∧ rest = others) ∧
    (∀ ones others, (∀ msg ∈ ones, Encodable msg) → (∀ msg ∈ others, Encodable msg) →
      encodedBytes ones = encodedBytes others → ones.map wireContent = others.map wireContent) := by
  refine ⟨?_, ?_, ?_⟩
  · intro msg ok
    refine ⟨encode_documented msg ok, ?_⟩
    rw [← frame_documented msg ok]
    exact frame_length msg
  · intro one other sentOne sentOther bytes otherBytes rest others oneOk otherOk encoded otherEncoded equal
    rw [encode_documented one oneOk] at encoded
    rw [encode_documented other otherOk] at otherEncoded
    cases encoded
    cases otherEncoded
    exact frame_determines one other rest others oneOk otherOk equal
  · intro ones others onesOk othersOk equal
    rw [encoded_bytes_documented ones onesOk, encoded_bytes_documented others othersOk] at equal
    refine determines_list Encodable wireContent documentedFrame frame_determines ?_ ?_ ones others onesOk othersOk
      (Option.some.inj equal)
    · intro one other _ _ same
      exact wire_content_frame one other same
    · intro msg _ empty
      cases empty

theorem encode_uniquely_decodable_ping :
    encodeTinyPB pingRequest = some (storedLengths pingRequest, documentedFrame pingRequest) :=
  (encode_uniquely_decodable.1 pingRequest (by decide)).1

end Rocket
