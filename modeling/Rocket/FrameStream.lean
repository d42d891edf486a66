import Mathlib.Data.List.TakeWhile
import Rocket.TinyPBDecoder

set_option autoImplicit false

namespace Rocket

open Memory Word32 WhileLoop

structure Sendable (msg : TinyPBProtocol) : Prop where
  idNonempty : msg.msgId ≠ []
  idFits : msg.msgId.length ≤ 100
  methodFits : msg.methodName.length ≤ 512
  codeFits : InRange msg.errCode
  frameFits : frameLength msg < 2 ^ 31

instance (msg : TinyPBProtocol) : Decidable (Sendable msg) :=
  decidable_of_iff (msg.msgId ≠ [] ∧ msg.msgId.length ≤ 100 ∧ msg.methodName.length ≤ 512 ∧ InRange msg.errCode ∧
      frameLength msg < 2 ^ 31)
    ⟨fun ⟨nonempty, id, method, code, fits⟩ => ⟨nonempty, id, method, code, fits⟩,
      fun sendable => ⟨sendable.idNonempty, sendable.idFits, sendable.methodFits, sendable.codeFits, sendable.frameFits⟩⟩

def frame (msg : TinyPBProtocol) : Bytes := frameBytes msg (frameLength msg)

theorem frame_length (msg : TinyPBProtocol) : (frame msg).length = frameLength msg := frame_bytes_length _ _

theorem frame_length_sum (msg : TinyPBProtocol) : frameLength msg =
    26 + msg.msgId.length + msg.methodName.length + msg.errInfo.length + msg.pbBody.length := rfl

theorem frame_length_lower (msg : TinyPBProtocol) : 26 ≤ frameLength msg := by
  rw [frame_length_sum]
  omega

theorem ensure_msg_id_same (msg : TinyPBProtocol) (nonempty : msg.msgId ≠ []) : ensureMsgId msg = msg := if_neg nonempty

theorem encode_sendable (msg : TinyPBProtocol) (sendable : Sendable msg) :
    ∃ sent, encodeTinyPB msg = some (sent, frame msg) := by
  have same := ensure_msg_id_same msg sendable.idNonempty
  have defined := encode_tiny_pb_defined msg (by rw [same]; exact sendable.frameFits)
  rwa [same] at defined

-- The fields of a frame in the order in which both sides walk over them.
theorem frame_fields (msg : TinyPBProtocol) (sendable : Sendable msg) (rest : Bytes) :
    frame msg ++ rest = PB_START :: (bigEndian (frameLength msg) ++ (bigEndian msg.msgId.length ++ (msg.msgId
      ++ (bigEndian msg.methodName.length ++ (msg.methodName ++ (bigEndian msg.errCode
      ++ (bigEndian msg.errInfo.length ++ (msg.errInfo ++ (msg.pbBody ++ (bigEndian 1 ++ PB_END :: rest)))))))))) := by
  have fits := sendable.frameFits
  rw [frame_length_sum] at fits
  rw [frame, frameBytes, narrow_length _ (by omega), narrow_length _ (by omega), narrow_length _ (by omega)]
  simp only [List.cons_append, List.append_assoc, List.nil_append]

theorem frame_last (msg : TinyPBProtocol) :
    ∃ body, frame msg = body ++ [PB_END] ∧ body.length + 1 = frameLength msg := by
  have total := frame_length msg
  rw [frame, frameBytes, ← List.cons_append] at total
  exact ⟨_, rfl, by simpa only [List.length_append, List.length_singleton] using total⟩

theorem read_int (tmp after : Bytes) (pos hi value : Int) (inside : InRange value)
    (holds : Holds tmp pos hi (bigEndian value ++ after)) : getInt32FromNetByte tmp pos = some value := by
  have found : slice tmp pos 4 = some (bigEndian value) := holds_slice tmp _ after pos 4 hi holds rfl
  rw [getInt32FromNetByte, found, Option.map_some, from_big_endian value inside]

theorem copy_field (tmp data after : Bytes) (capacity pos hi : Int) (fits : (data.length : Int) ≤ capacity)
    (holds : Holds tmp pos hi (data ++ after)) : copyField tmp capacity pos data.length = some data := by
  rw [copyField, if_pos fits]
  exact holds_slice tmp data after pos _ hi holds rfl

-- A frame at the front of the readable region is accepted at once, whatever
-- bytes its body or the bytes behind it hold.
theorem scan_front (tmp rest : Bytes) (lo hi : Int) (msg : TinyPBProtocol) (sendable : Sendable msg) (small : hi < 2 ^ 31)
    (holds : Holds tmp lo hi (frame msg ++ rest)) :
    scan tmp lo hi = some (some ⟨lo, lo + frameLength msg - 1, frameLength msg⟩) := by
  have lower := holds.lower
  have least := frame_length_lower msg
  have total := holds_length tmp _ lo hi holds
  rw [List.length_append, frame_length] at total
  have fields := holds
  rw [frame_fields msg sendable rest] at fields
  have start : cell tmp lo = some PB_START := holds_cell tmp _ PB_START lo hi fields
  have length : getInt32FromNetByte tmp (lo + 1) = some (frameLength msg : Int) :=
    read_int tmp _ (lo + 1) hi _ ⟨by omega, by omega⟩ (holds_behind tmp [PB_START] _ lo _ hi fields rfl)
  have stop : cell tmp (lo + frameLength msg - 1) = some PB_END := by
    obtain ⟨body, shape, width⟩ := frame_last msg
    rw [shape, List.append_assoc] at holds
    exact holds_cell tmp rest PB_END _ hi (holds_behind tmp body _ lo _ hi holds (by omega))
  obtain ⟨left, count⟩ : ∃ left, (hi - lo).toNat = left + 1 := ⟨(hi - lo).toNat - 1, by omega⟩
  have sum : checked (lo + frameLength msg) = some (lo + frameLength msg) := checked_some _ ⟨by omega, by omega⟩
  have last : checked (lo + frameLength msg - 1) = some (lo + frameLength msg - 1) := checked_some _ ⟨by omega, by omega⟩
  have inside : lo + 1 < hi := by omega
  have before : ¬ lo + frameLength msg - 1 ≥ hi := by omega
  simp only [scan, count, scanFrom, start, length, sum, last, stop, inside, before, Option.bind_eq_bind, Option.bind_some,
    and_self, if_true, if_false]

theorem c_string_whole (capacity : Int) (text : Bytes) (fits : (text.length : Int) < capacity) (noNul : (0 : UInt8) ∉ text) :
    cString capacity text = some text := by
  rw [cString, if_pos (Or.inl fits)]
  congr 1
  rw [List.takeWhile_eq_self_iff]
  intro byte member
  have different : byte ≠ 0 := fun same => noNul (same ▸ member)
  simpa using different

-- The message that parsing a genuine frame pushes. Its body is a slice of the
-- vector that is 2 * errInfo.length bytes longer than the body of the frame.
def decodedAs (msg : TinyPBProtocol) (pbBody : Bytes) : TinyPBProtocol :=
  { msgId := msg.msgId, pkLength := frameLength msg, msgIdLen := msg.msgId.length, methodName := msg.methodName,
    methodNameLen := msg.methodName.length, errCode := msg.errCode, errInfo := msg.errInfo,
    errInfoLen := msg.errInfo.length, pbBody := pbBody, paraseSuccess := true }

def bodyIndex (msg : TinyPBProtocol) (start : Int) : Int :=
  start + 21 + msg.msgId.length + msg.methodName.length + msg.errInfo.length

section Stages

variable (tmp after : Bytes) (pos next hi endIndex : Int) (message : TinyPBProtocol)

theorem parse_err_info_field (errInfo : Bytes) (holds : Holds tmp pos hi (bigEndian errInfo.length ++ (errInfo ++ after)))
    (inside : pos < endIndex) (fits : errInfo.length ≤ 511) (noNul : (0 : UInt8) ∉ errInfo) :
    parseErrInfo tmp endIndex message pos = parsePbBody tmp (setErrInfo message errInfo) (pos + 4) := by
  have length := read_int tmp _ pos hi _ ⟨by omega, by omega⟩ holds
  have copied := copy_field tmp errInfo after 512 (pos + 4) hi (by omega) (holds_behind tmp _ _ pos _ hi holds rfl)
  have whole := c_string_whole 512 errInfo (by omega) noNul
  rw [parseErrInfo, if_neg (by omega), length, Option.bind_eq_bind, Option.bind_some, copied, Option.bind_eq_bind,
    Option.bind_some, whole]
  rfl

theorem parse_err_code_field (errCode : Int) (holds : Holds tmp pos hi (bigEndian errCode ++ after))
    (inside : pos < endIndex) (fits : InRange errCode) :
    parseErrCode tmp endIndex message pos = parseErrInfo tmp endIndex { message with errCode := errCode } (pos + 4) := by
  rw [parseErrCode, if_neg (by omega), read_int tmp _ pos hi _ fits holds]
  rfl

theorem parse_method_name_field (methodName : Bytes)
    (holds : Holds tmp pos hi (bigEndian methodName.length ++ (methodName ++ after))) (inside : pos < endIndex)
    (fits : methodName.length ≤ 512) :
    parseMethodName tmp endIndex message pos =
      parseErrCode tmp endIndex (setMethodName message methodName) (pos + 4 + methodName.length) := by
  have length := read_int tmp _ pos hi _ ⟨by omega, by omega⟩ holds
  have copied := copy_field tmp methodName after 512 (pos + 4) hi (by omega) (holds_behind tmp _ _ pos _ hi holds rfl)
  rw [parseMethodName, if_neg (by omega), length, Option.bind_eq_bind, Option.bind_some, copied]
  rfl

theorem parse_msg_id_field (msgId : Bytes) (holds : Holds tmp pos hi (bigEndian msgId.length ++ (msgId ++ after)))
    (inside : pos < endIndex) (fits : msgId.length ≤ 100) :
    parseMsgId tmp endIndex message pos =
      parseMethodName tmp endIndex { message with msgId := msgId, msgIdLen := msgId.length } (pos + 4 + msgId.length) := by
  have length := read_int tmp _ pos hi _ ⟨by omega, by omega⟩ holds
  have copied := copy_field tmp msgId after 100 (pos + 4) hi (by omega) (holds_behind tmp _ _ pos _ hi holds rfl)
  rw [parseMsgId, if_neg (by omega), length, Option.bind_eq_bind, Option.bind_some, copied]
  rfl

end Stages

theorem parse_pb_body_genuine (tmp : Bytes) (pos : Int) (msg : TinyPBProtocol)
    (room : frameLength msg + msg.errInfo.length < 2 ^ 31) :
    parsePbBody tmp (decodedAs msg []) (pos - msg.errInfo.length) =
      (slice tmp pos (msg.pbBody.length + 2 * msg.errInfo.length)).map (fun pbBody => some (decodedAs msg pbBody)) := by
  have size := frame_length_sum msg
  have sum : checked ((frameLength msg : Int) - msg.msgId.length - msg.methodName.length - -msg.errInfo.length) =
      some (26 + msg.pbBody.length + 2 * msg.errInfo.length : Int) := by
    rw [checked_eq_some]
    exact ⟨⟨by omega, by omega⟩, by omega⟩
  have width : (26 + msg.pbBody.length + 2 * msg.errInfo.length : Int) - 2 - 24 =
      msg.pbBody.length + 2 * msg.errInfo.length := by omega
  have index : pos - (msg.errInfo.length : Int) + msg.errInfo.length = pos := by omega
  simp only [parsePbBody, decodedAs, sum, width, index, Option.bind_eq_bind, Option.bind_some]
  cases slice tmp pos (msg.pbBody.length + 2 * msg.errInfo.length) with
  | none => rfl
  | some pbBody => rfl

theorem parse_frame_genuine (tmp rest : Bytes) (lo hi : Int) (msg : TinyPBProtocol) (sendable : Sendable msg)
    (holds : Holds tmp lo hi (frame msg ++ rest)) (textFits : msg.errInfo.length ≤ 511) (noNul : (0 : UInt8) ∉ msg.errInfo)
    (room : frameLength msg + msg.errInfo.length < 2 ^ 31) :
    parseFrame tmp ⟨lo, lo + frameLength msg - 1, frameLength msg⟩ =
      (slice tmp (bodyIndex msg lo) (msg.pbBody.length + 2 * msg.errInfo.length)).map
        (fun pbBody => some (decodedAs msg pbBody)) := by
  have idFits := sendable.idFits
  have methodFits := sendable.methodFits
  have size := frame_length_sum msg
  rw [frame_fields msg sendable rest] at holds
  have atIdLen := holds_behind tmp (bigEndian (frameLength msg)) _ (lo + 1) (lo + 1 + 4) hi
    (holds_behind tmp [PB_START] _ lo (lo + 1) hi holds rfl) rfl
  have atId := holds_behind tmp (bigEndian msg.msgId.length) _ _ (lo + 1 + 4 + 4) hi atIdLen rfl
  have atMethodLen := holds_behind tmp msg.msgId _ _ (lo + 1 + 4 + 4 + msg.msgId.length) hi atId rfl
  have atMethod := holds_behind tmp (bigEndian msg.methodName.length) _ _ (lo + 1 + 4 + 4 + msg.msgId.length + 4) hi
    atMethodLen rfl
  have atErrCode := holds_behind tmp msg.methodName _ _
    (lo + 1 + 4 + 4 + msg.msgId.length + 4 + msg.methodName.length) hi atMethod rfl
  have atErrLen := holds_behind tmp (bigEndian msg.errCode) _ _
    (lo + 1 + 4 + 4 + msg.msgId.length + 4 + msg.methodName.length + 4) hi atErrCode rfl
  have body := parse_pb_body_genuine tmp (bodyIndex msg lo) msg room
  have index : bodyIndex msg lo - msg.errInfo.length =
      lo + 1 + 4 + 4 + msg.msgId.length + 4 + msg.methodName.length + 4 + 4 := by
    rw [bodyIndex]
    omega
  rw [← body, index, parseFrame, parse_msg_id_field tmp _ _ hi _ _ _ atIdLen (by simp only; omega) idFits,
    parse_method_name_field tmp _ _ hi _ _ _ atMethodLen (by simp only; omega) methodFits,
    parse_err_code_field tmp _ _ hi _ _ _ atErrCode (by simp only; omega) sendable.codeFits,
    parse_err_info_field tmp _ _ hi _ _ _ atErrLen (by simp only; omega) textFits noNul]
  simp only [setErrInfo, setMethodName, narrow_length _ (by omega : msg.methodName.length < 2 ^ 31),
    narrow_length _ (by omega : msg.errInfo.length < 2 ^ 31)]
  rfl

theorem parse_frame_no_text (tmp rest : Bytes) (lo hi : Int) (msg : TinyPBProtocol) (sendable : Sendable msg)
    (noText : msg.errInfo = []) (holds : Holds tmp lo hi (frame msg ++ rest)) :
    parseFrame tmp ⟨lo, lo + frameLength msg - 1, frameLength msg⟩ = some (some (decodedAs msg msg.pbBody)) := by
  have fits := sendable.frameFits
  have body : Holds tmp (bodyIndex msg lo) hi (msg.pbBody ++ (bigEndian 1 ++ PB_END :: rest)) := by
    refine holds_behind tmp (PB_START :: (bigEndian (frameLength msg) ++ bigEndian msg.msgId.length ++ msg.msgId
      ++ bigEndian msg.methodName.length ++ msg.methodName ++ bigEndian msg.errCode ++ bigEndian msg.errInfo.length
      ++ msg.errInfo)) _ lo _ hi ?_ ?_
    · rw [frame_fields msg sendable rest] at holds
      simpa only [List.cons_append, List.append_assoc] using holds
    · simp only [bodyIndex, List.length_cons, List.length_append, big_endian_length]
      omega
  have found := holds_slice tmp msg.pbBody _ _ msg.pbBody.length hi body rfl
  rw [parse_frame_genuine tmp rest lo hi msg sendable holds (by simp [noText]) (by simp [noText]) (by simpa [noText])]
  have width : (msg.pbBody.length + 2 * msg.errInfo.length : Int) = msg.pbBody.length := by simp [noText]
  rw [width, found, Option.map_some]

theorem decode_turn_front (out : List TinyPBProtocol) (buf : TcpBuffer) (msg : TinyPBProtocol) (rest : Bytes)
    (ok : BufferOk buf) (space : buf.writeIndex < buf.size) (sendable : Sendable msg) (noText : msg.errInfo = [])
    (content : readable buf = frame msg ++ rest) :
    ∃ next, decodeTurn (out, buf) = some (.next (out ++ [decodedAs msg msg.pbBody], next)) ∧ BufferOk next ∧
      next.writeIndex < next.size ∧ readable next = rest := by
  have holds := readable_holds buf _ ok content
  have total := readable_length buf ok
  rw [content, List.length_append, frame_length] at total
  rw [readAble] at total
  have small := ok.fitsInt
  have scanned := scan_front buf.buffer rest buf.readIndex buf.writeIndex msg sendable (by omega) holds
  obtain ⟨next, moved, nextOk, left, sameSize, shorter⟩ :=
    move_read_index_spec buf (frameLength msg) ok (by omega) (by rw [readAble]; omega) (by omega)
  refine ⟨next, ?_, nextOk, by omega, ?_⟩
  · have count : buf.readIndex + (frameLength msg : Int) - 1 - buf.readIndex + 1 = frameLength msg := by omega
    have parsed := parse_frame_no_text buf.buffer rest _ _ msg sendable noText holds
    simp only [decodeTurn, scanned, count, moved, parsed, Option.bind_eq_bind, Option.bind_some]
  · rw [left, content, Int.toNat_natCast, ← frame_length msg, List.drop_left]

theorem decode_turn_empty (out : List TinyPBProtocol) (buf : TcpBuffer) (ok : BufferOk buf) (empty : readable buf = []) :
    decodeTurn (out, buf) = some (.stop (out, buf)) := by
  have same := (readable_empty buf ok).mp empty
  rw [readAble] at same
  have none : scan buf.buffer buf.readIndex buf.writeIndex = some none := by
    rw [scan, same]
    rfl
  simp only [decodeTurn, none, Option.bind_eq_bind, Option.bind_some]

def received (messages : List TinyPBProtocol) : List TinyPBProtocol :=
  messages.map (fun msg => decodedAs msg msg.pbBody)

def stream (messages : List TinyPBProtocol) : Bytes := (messages.map frame).flatten

def Plain (messages : List TinyPBProtocol) : Prop := ∀ msg ∈ messages, Sendable msg ∧ msg.errInfo = []

theorem encoded_bytes_plain (messages : List TinyPBProtocol) (plain : Plain messages) :
    encodedBytes messages = some (stream messages) := by
  induction messages with
  | nil => rfl
  | cons msg messages ih =>
      obtain ⟨sent, encoded⟩ := encode_sendable msg (plain msg List.mem_cons_self).1
      have rest := ih (fun other member => plain other (List.mem_cons_of_mem msg member))
      simp only [encodedBytes, encoded, rest, Option.bind_eq_bind, Option.bind_some, stream, List.map_cons,
        List.flatten_cons]

theorem decode_stream (messages out : List TinyPBProtocol) (buf : TcpBuffer) (plain : Plain messages) (ok : BufferOk buf)
    (space : buf.writeIndex < buf.size) (content : readable buf = stream messages) :
    ∃ last, Decodes out buf (out ++ received messages, last) ∧ readable last = [] := by
  induction messages generalizing out buf with
  | nil =>
      have stopped := decode_turn_empty out buf ok content
      refine ⟨buf, ?_, content⟩
      rw [received, List.map_nil, List.append_nil]
      exact returns_stop decodeTurn _ _ stopped
  | cons msg messages ih =>
      obtain ⟨sendable, noText⟩ := plain msg List.mem_cons_self
      obtain ⟨next, turn, nextOk, nextSpace, left⟩ :=
        decode_turn_front out buf msg (stream messages) ok space sendable noText content
      obtain ⟨last, ended, empty⟩ := ih (out ++ [decodedAs msg msg.pbBody]) next
        (fun other member => plain other (List.mem_cons_of_mem msg member)) nextOk nextSpace left
      refine ⟨last, returns_next decodeTurn _ _ _ turn ?_, empty⟩
      simpa only [received, Decodes, List.map_cons, List.append_assoc, List.singleton_append] using ended

structure WireContent where
  msgId : Bytes
  methodName : Bytes
  errCode : Int
  errInfo : Bytes
  pbBody : Bytes
deriving DecidableEq, Repr

def wireContent (msg : TinyPBProtocol) : WireContent :=
  ⟨msg.msgId, msg.methodName, msg.errCode, msg.errInfo, msg.pbBody⟩

theorem wire_content_received (messages : List TinyPBProtocol) :
    (received messages).map wireContent = messages.map wireContent := by
  simp only [received, List.map_map, List.map_inj_left]
  intro msg _
  rfl

theorem decode_encoded (messages out : List TinyPBProtocol) (buf : TcpBuffer)
    (sendable : ∀ msg ∈ messages, Sendable msg) (noText : ∀ msg ∈ messages, msg.errInfo = []) (ok : BufferOk buf)
    (space : buf.writeIndex < buf.size) (content : encodedBytes messages = some (readable buf)) :
    ∃ decoded last, Decodes out buf (out ++ decoded, last) ∧ decoded.map wireContent = messages.map wireContent ∧
      readable last = [] := by
  have plain : Plain messages := fun msg member => ⟨sendable msg member, noText msg member⟩
  have bytes : readable buf = stream messages :=
    Option.some.inj (content.symm.trans (encoded_bytes_plain messages plain))
  obtain ⟨last, ended, empty⟩ := decode_stream messages out buf plain ok space bytes
  exact ⟨received messages, last, ended, wire_content_received messages, empty⟩

def pingRequest : TinyPBProtocol := { msgId := [0x31], methodName := [0x70], pbBody := [0x02, 0x03, 0x00] }

theorem decode_encoded_ping :
    ∃ decoded last, Decodes [] ⟨2, 33, 40, [0, 0] ++ frame pingRequest ++ List.replicate 7 0⟩ ([] ++ decoded, last) ∧
      decoded.map wireContent = [pingRequest].map wireContent ∧ readable last = [] :=
  decode_encoded [pingRequest] [] _ (by decide) (by decide) (by decide) (by decide) (by decide)

end Rocket
