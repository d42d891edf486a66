import Rocket.DecodeBounds
import Rocket.FrameStream

set_option autoImplicit false

namespace Rocket

open Memory Word32 WhileLoop

-- Where the fields of a frame lie, as its own length fields give it.
def methodPos (bytes : Bytes) (start : Int) : Int := start + 9 + lengthAt bytes (start + 5)

def errCodePos (bytes : Bytes) (start : Int) : Int :=
  methodPos bytes start + 4 + lengthAt bytes (methodPos bytes start)

def textPos (bytes : Bytes) (start : Int) : Int := errCodePos bytes start + 4

def bodyPos (bytes : Bytes) (start : Int) : Int := textPos bytes start + 4 + lengthAt bytes (textPos bytes start)

def SameApartFromCheckNum (one other : Bytes) : Prop :=
  ∃ front oneCheck otherCheck stop, oneCheck.length = 4 ∧ otherCheck.length = 4 ∧ stop.length = 1 ∧
    one = front ++ oneCheck ++ stop ∧ other = front ++ otherCheck ++ stop

-- The documented format, for the bytes from the start byte to the end byte and
-- the message that was made of them.
structure WellFormed (bytes : Bytes) (message : TinyPBProtocol) : Prop where
  start : cell bytes 0 = some PB_START
  stop : cell bytes (bytes.length - 1) = some PB_END
  pkLen : (bytes.length : Int) = lengthAt bytes 1
  msgIdLen : 0 ≤ lengthAt bytes 5
  methodNameLen : 0 ≤ lengthAt bytes (methodPos bytes 0)
  errInfoLen : 0 ≤ lengthAt bytes (textPos bytes 0)
  fits : lengthAt bytes 5 + lengthAt bytes (methodPos bytes 0) + lengthAt bytes (textPos bytes 0) + 26 ≤ lengthAt bytes 1
  msgId : message.msgId = fieldAt bytes 5
  methodName : message.methodName = fieldAt bytes (methodPos bytes 0)
  errInfo : message.errInfo = fieldAt bytes (textPos bytes 0)
  pbBody : message.pbBody = window bytes (bodyPos bytes 0) (bytes.length - 5)
  reencodes : message.msgId ≠ [] → ∃ sent again, encodeTinyPB message = some (sent, again) ∧ SameApartFromCheckNum again bytes

-- What the field parse has made of an accepted frame. The text is cut at its
-- first NUL, and the length of what is left replaces the one on the wire.
structure Parsed (tmp : Bytes) (frame : Frame) (message : TinyPBProtocol) : Prop where
  longEnough : frame.startIndex + 5 < frame.endIndex
  msgIdField : FieldFits tmp tmp.length 100 (frame.startIndex + 5)
  methodField : FieldFits tmp tmp.length 512 (methodPos tmp frame.startIndex)
  textField : FieldFits tmp tmp.length 512 (textPos tmp frame.startIndex)
  msgId : message.msgId = fieldAt tmp (frame.startIndex + 5)
  methodName : message.methodName = fieldAt tmp (methodPos tmp frame.startIndex)
  errCode : message.errCode = lengthAt tmp (errCodePos tmp frame.startIndex)
  errInfo : message.errInfo = (fieldAt tmp (textPos tmp frame.startIndex)).takeWhile (· ≠ 0)
  pbBody : slice tmp (textPos tmp frame.startIndex + 4 + message.errInfo.length)
    (frame.pkLen - lengthAt tmp (frame.startIndex + 5) - lengthAt tmp (methodPos tmp frame.startIndex)
      + message.errInfo.length - 26) = some message.pbBody

theorem net_byte_some (tmp : Bytes) (pos value : Int) (read : getInt32FromNetByte tmp pos = some value) :
    0 ≤ pos ∧ pos + 4 ≤ tmp.length ∧ value = lengthAt tmp pos := by
  rw [getInt32FromNetByte, Option.map_eq_some_iff] at read
  obtain ⟨bytes, found, same⟩ := read
  obtain ⟨lower, _, upper, rfl⟩ := slice_some tmp bytes pos 4 found
  exact ⟨lower, upper, same.symm⟩

theorem read_field_some (tmp bytes : Bytes) (capacity pos length : Int) (read : getInt32FromNetByte tmp pos = some length)
    (copied : copyField tmp capacity (pos + 4) length = some bytes) :
    length = lengthAt tmp pos ∧ FieldFits tmp tmp.length capacity pos ∧ bytes = fieldAt tmp pos := by
  obtain ⟨_, prefixInside, same⟩ := net_byte_some tmp pos length read
  rw [copyField, same] at copied
  split at copied
  · rename_i small
    obtain ⟨_, lower, upper, bytesSame⟩ := slice_some tmp bytes _ _ copied
    exact ⟨same, ⟨prefixInside, lower, small, upper⟩, bytesSame⟩
  · cases copied

theorem c_string_some (capacity : Int) (copied text : Bytes) (made : cString capacity copied = some text) :
    text = copied.takeWhile (· ≠ 0) := by
  rw [cString] at made
  split at made
  · exact (Option.some.inj made).symm
  · cases made

theorem with_err_info_fields (msg : TinyPBProtocol) (errInfo : Bytes) (errInfoLen : Int) :
    let changed := { msg with errInfo := errInfo, errInfoLen := errInfoLen }
    changed.msgId = msg.msgId ∧ changed.methodName = msg.methodName ∧ changed.errCode = msg.errCode ∧
      changed.errInfo = errInfo :=
  ⟨rfl, rfl, rfl, rfl⟩

theorem set_err_info_fields (msg : TinyPBProtocol) (errInfo : Bytes) :
    (setErrInfo msg errInfo).msgId = msg.msgId ∧ (setErrInfo msg errInfo).methodName = msg.methodName ∧
      (setErrInfo msg errInfo).errCode = msg.errCode ∧ (setErrInfo msg errInfo).errInfo = errInfo :=
  with_err_info_fields msg errInfo (narrow errInfo.length)

theorem with_method_name_fields (msg : TinyPBProtocol) (methodName : Bytes) (methodNameLen : Int) :
    let changed := { msg with methodName := methodName, methodNameLen := methodNameLen }
    changed.msgId = msg.msgId ∧ changed.methodName = methodName :=
  ⟨rfl, rfl⟩

theorem set_method_name_fields (msg : TinyPBProtocol) (methodName : Bytes) :
    (setMethodName msg methodName).msgId = msg.msgId ∧ (setMethodName msg methodName).methodName = methodName :=
  with_method_name_fields msg methodName (narrow methodName.length)

section Stages

variable (tmp : Bytes) (endIndex pos : Int) (message parsed : TinyPBProtocol)

theorem parse_pb_body_some (made : parsePbBody tmp message pos = some (some parsed)) :
    slice tmp (pos + message.errInfoLen)
        (message.pkLength - message.msgIdLen - message.methodNameLen - -message.errInfoLen - 2 - 24) = some parsed.pbBody ∧
      parsed.msgId = message.msgId ∧ parsed.methodName = message.methodName ∧ parsed.errCode = message.errCode ∧
      parsed.errInfo = message.errInfo := by
  simp only [parsePbBody, Option.bind_eq_bind, Option.bind_eq_some_iff, checked_eq_some] at made
  obtain ⟨_, ⟨_, rfl⟩, body, found, same⟩ := made
  obtain rfl := Option.some.inj (Option.some.inj same)
  exact ⟨found, rfl, rfl, rfl, rfl⟩

theorem parse_err_info_some (made : parseErrInfo tmp endIndex message pos = some (some parsed)) :
    FieldFits tmp tmp.length 512 pos ∧ parsed.errInfo = (fieldAt tmp pos).takeWhile (· ≠ 0) ∧
      slice tmp (pos + 4 + parsed.errInfo.length)
        (message.pkLength - message.msgIdLen - message.methodNameLen + parsed.errInfo.length - 26) = some parsed.pbBody ∧
      parsed.msgId = message.msgId ∧ parsed.methodName = message.methodName ∧ parsed.errCode = message.errCode := by
  rw [parseErrInfo] at made
  split at made
  · cases made
  · simp only [Option.bind_eq_bind, Option.bind_eq_some_iff] at made
    obtain ⟨length, read, copied, found, text, cut, made⟩ := made
    obtain ⟨lower, _, _⟩ := net_byte_some tmp pos length read
    obtain ⟨_, fits, rfl⟩ := read_field_some tmp copied 512 pos length read found
    obtain rfl := c_string_some 512 _ text cut
    obtain ⟨body, msgId, methodName, errCode, errInfo⟩ := parse_pb_body_some tmp (pos + 4) _ parsed made
    obtain ⟨_, width⟩ := text_length_spec tmp tmp.length pos lower (Int.le_refl _) fits message
    rw [set_err_info_sum, width, textLength, Int.sub_sub, show (2 : Int) + 24 = 26 from rfl] at body
    obtain ⟨sameId, sameName, sameCode, sameText⟩ := set_err_info_fields message ((fieldAt tmp pos).takeWhile (· ≠ 0))
    rw [sameId] at msgId
    rw [sameName] at methodName
    rw [sameCode] at errCode
    rw [sameText] at errInfo
    rw [errInfo]
    exact ⟨fits, rfl, body, msgId, methodName, errCode⟩

theorem parse_err_code_some (made : parseErrCode tmp endIndex message pos = some (some parsed)) :
    FieldFits tmp tmp.length 512 (pos + 4) ∧ parsed.errInfo = (fieldAt tmp (pos + 4)).takeWhile (· ≠ 0) ∧
      slice tmp (pos + 4 + 4 + parsed.errInfo.length)
        (message.pkLength - message.msgIdLen - message.methodNameLen + parsed.errInfo.length - 26) = some parsed.pbBody ∧
      parsed.msgId = message.msgId ∧ parsed.methodName = message.methodName ∧ parsed.errCode = lengthAt tmp pos := by
  rw [parseErrCode] at made
  split at made
  · cases made
  · simp only [Option.bind_eq_bind, Option.bind_eq_some_iff] at made
    obtain ⟨errCode, read, made⟩ := made
    obtain ⟨_, _, same⟩ := net_byte_some tmp pos errCode read
    rw [same] at made
    have parts := parse_err_info_some tmp endIndex (pos + 4) _ parsed made
    dsimp only at parts
    exact parts

theorem parse_method_name_some (made : parseMethodName tmp endIndex message pos = some (some parsed)) :
    FieldFits tmp tmp.length 512 pos ∧ parsed.methodName = fieldAt tmp pos ∧
      FieldFits tmp tmp.length 512 (pos + 4 + lengthAt tmp pos + 4) ∧
      parsed.errInfo = (fieldAt tmp (pos + 4 + lengthAt tmp pos + 4)).takeWhile (· ≠ 0) ∧
      slice tmp (pos + 4 + lengthAt tmp pos + 4 + 4 + parsed.errInfo.length)
        (message.pkLength - message.msgIdLen - lengthAt tmp pos + parsed.errInfo.length - 26) = some parsed.pbBody ∧
      parsed.msgId = message.msgId ∧ parsed.errCode = lengthAt tmp (pos + 4 + lengthAt tmp pos) := by
  rw [parseMethodName] at made
  split at made
  · cases made
  · simp only [Option.bind_eq_bind, Option.bind_eq_some_iff] at made
    obtain ⟨length, read, copied, found, made⟩ := made
    obtain ⟨lower, _, _⟩ := net_byte_some tmp pos length read
    obtain ⟨same, fits, rfl⟩ := read_field_some tmp copied 512 pos length read found
    rw [same] at made
    obtain ⟨textFits, errInfo, body, msgId, methodName, errCode⟩ := parse_err_code_some tmp endIndex _ _ parsed made
    have width := field_at_length tmp tmp.length 512 pos lower (Int.le_refl _) fits
    have small := fits.lengthUpper
    obtain ⟨sameId, sameName⟩ := set_method_name_fields message (fieldAt tmp pos)
    rw [sameId] at msgId
    rw [sameName] at methodName
    rw [set_method_name_sum, narrow_length _ (by omega), width] at body
    exact ⟨fits, methodName, textFits, errInfo, body, msgId, errCode⟩

end Stages

theorem parse_frame_parsed (tmp : Bytes) (frame : Frame) (message : TinyPBProtocol)
    (made : parseFrame tmp frame = some (some message)) : Parsed tmp frame message := by
  have position : frame.startIndex + 1 + 4 = frame.startIndex + 5 := by omega
  have behind : frame.startIndex + 5 + 4 + lengthAt tmp (frame.startIndex + 5) = methodPos tmp frame.startIndex := by
    rw [methodPos]
    omega
  rw [parseFrame, position, parseMsgId] at made
  split at made
  · cases made
  · rename_i before
    simp only [Option.bind_eq_bind, Option.bind_eq_some_iff] at made
    obtain ⟨length, read, copied, found, made⟩ := made
    obtain ⟨same, fits, rfl⟩ := read_field_some tmp copied 100 _ length read found
    rw [same, behind] at made
    obtain ⟨methodFits, methodName, textFits, errInfo, body, msgId, errCode⟩ :=
      parse_method_name_some tmp frame.endIndex _ _ message made
    dsimp only at msgId body
    exact ⟨by omega, fits, methodFits, textFits, msgId, methodName, errCode, errInfo, body⟩

theorem length_at_inside (tmp : Bytes) (start stop pos : Int) (startLower : 0 ≤ start) (lower : 0 ≤ pos)
    (upper : start + pos + 4 ≤ stop) : lengthAt (window tmp start stop) pos = lengthAt tmp (start + pos) := by
  rw [lengthAt, lengthAt, window_inside tmp start stop pos (pos + 4) startLower lower (by omega), Int.add_assoc]

theorem field_at_inside (tmp : Bytes) (start stop pos : Int) (startLower : 0 ≤ start) (lower : 0 ≤ pos)
    (upper : start + pos + 4 ≤ stop) (fits : start + pos + 4 + lengthAt tmp (start + pos) ≤ stop) :
    fieldAt (window tmp start stop) pos = fieldAt tmp (start + pos) := by
  have left : start + (pos + 4) = start + pos + 4 := by omega
  have right : start + (pos + 4 + lengthAt tmp (start + pos)) = start + pos + 4 + lengthAt tmp (start + pos) := by omega
  rw [fieldAt, fieldAt, length_at_inside tmp start stop pos startLower lower upper,
    window_inside tmp start stop (pos + 4) _ startLower (by omega) (by omega), left, right]

theorem big_endian_at (tmp : Bytes) (pos : Int) (lower : 0 ≤ pos) (upper : pos + 4 ≤ tmp.length) :
    bigEndian (lengthAt tmp pos) = window tmp pos (pos + 4) := by
  have width := window_length tmp pos (pos + 4) lower (by omega) upper
  rw [lengthAt, big_endian_from _ (by omega)]

-- Read inside the frame alone, the length fields are the ones that the parser
-- has read in the whole vector.
structure SameFields (tmp : Bytes) (start : Int) (bytes : Bytes) : Prop where
  msgIdLen : lengthAt bytes 5 = lengthAt tmp (start + 5)
  methodPlace : start + methodPos bytes 0 = methodPos tmp start
  methodNameLen : lengthAt bytes (methodPos bytes 0) = lengthAt tmp (methodPos tmp start)
  textPlace : start + textPos bytes 0 = textPos tmp start
  errInfoLen : lengthAt bytes (textPos bytes 0) = lengthAt tmp (textPos tmp start)

theorem method_pos_front (bytes : Bytes) : methodPos bytes 0 = 9 + lengthAt bytes 5 := by
  rw [methodPos, Int.zero_add, Int.zero_add]

theorem text_pos_sum (bytes : Bytes) (start : Int) :
    textPos bytes start = methodPos bytes start + 4 + lengthAt bytes (methodPos bytes start) + 4 := by
  rw [textPos, errCodePos]

theorem same_fields (tmp : Bytes) (start stop : Int) (lower : 0 ≤ start) (idLower : 0 ≤ lengthAt tmp (start + 5))
    (methodLower : 0 ≤ lengthAt tmp (methodPos tmp start)) (long : start + 9 ≤ stop)
    (methodInside : methodPos tmp start + 4 ≤ stop) (textInside : textPos tmp start + 4 ≤ stop) :
    SameFields tmp start (window tmp start stop) := by
  have msgIdLen := length_at_inside tmp start stop 5 lower (by omega) (by omega)
  have methodFront := method_pos_front (window tmp start stop)
  have methodPlace : start + methodPos (window tmp start stop) 0 = methodPos tmp start := by
    rw [methodFront, msgIdLen, methodPos]
    omega
  have methodNameLen : lengthAt (window tmp start stop) (methodPos (window tmp start stop) 0) =
      lengthAt tmp (methodPos tmp start) := by
    rw [length_at_inside tmp start stop _ lower (by omega) (by omega), methodPlace]
  have textFront := text_pos_sum (window tmp start stop) 0
  have textPlace : start + textPos (window tmp start stop) 0 = textPos tmp start := by
    rw [textFront, methodNameLen, text_pos_sum]
    omega
  refine ⟨msgIdLen, methodPlace, methodNameLen, textPlace, ?_⟩
  rw [length_at_inside tmp start stop _ lower (by omega) (by omega), textPlace]

theorem field_at_span (tmp : Bytes) (pos : Int) (lower : 0 ≤ pos) (lengthLower : 0 ≤ lengthAt tmp pos)
    (upper : pos + 4 + lengthAt tmp pos ≤ tmp.length) :
    ((fieldAt tmp pos).length : Int) = lengthAt tmp pos ∧
      window tmp pos (pos + 4 + lengthAt tmp pos) = bigEndian (fieldAt tmp pos).length ++ fieldAt tmp pos := by
  have width := window_length tmp (pos + 4) (pos + 4 + lengthAt tmp pos) (by omega) (by omega) upper
  have count : ((fieldAt tmp pos).length : Int) = lengthAt tmp pos := by
    rw [fieldAt]
    omega
  rw [count, big_endian_at tmp pos lower (by omega), fieldAt]
  exact ⟨rfl, window_split tmp pos (pos + 4) _ lower (by omega) (by omega)⟩

-- A frame without a text is cut into its documented fields.
theorem frame_bytes_again (tmp : Bytes) (start stop : Int) (message : TinyPBProtocol) (upper : stop ≤ tmp.length)
    (first : cell tmp start = some PB_START) (last : cell tmp (stop - 1) = some PB_END)
    (pkLen : lengthAt tmp (start + 1) = stop - start) (small : stop - start < 2 ^ 31)
    (idLower : 0 ≤ lengthAt tmp (start + 5)) (methodLower : 0 ≤ lengthAt tmp (methodPos tmp start))
    (room : textPos tmp start + 4 ≤ stop - 5)
    (msgId : message.msgId = fieldAt tmp (start + 5)) (methodName : message.methodName = fieldAt tmp (methodPos tmp start))
    (errCode : message.errCode = lengthAt tmp (errCodePos tmp start)) (errInfo : message.errInfo = [])
    (noText : lengthAt tmp (textPos tmp start) = 0)
    (pbBody : message.pbBody = window tmp (textPos tmp start + 4) (stop - 5)) :
    (frameLength message : Int) = stop - start ∧
      SameApartFromCheckNum (frameBytes message (frameLength message)) (window tmp start stop) := by
  obtain ⟨lower, _, startByte⟩ := window_cell tmp start PB_START first
  obtain ⟨_, _, stopByte⟩ := window_cell tmp (stop - 1) PB_END last
  have methodPlace : methodPos tmp start = start + 5 + 4 + lengthAt tmp (start + 5) := by
    rw [methodPos]
    omega
  have codePlace : errCodePos tmp start = methodPos tmp start + 4 + lengthAt tmp (methodPos tmp start) := by rw [errCodePos]
  have textPlace : textPos tmp start = errCodePos tmp start + 4 := by rw [textPos]
  obtain ⟨idWidth, idSpan⟩ := field_at_span tmp (start + 5) (by omega) idLower (by omega)
  obtain ⟨methodWidth, methodSpan⟩ := field_at_span tmp (methodPos tmp start) (by omega) methodLower (by omega)
  have bodyWidth := window_length tmp (textPos tmp start + 4) (stop - 5) (by omega) (by omega) (by omega)
  rw [← msgId] at idWidth idSpan
  rw [← methodName] at methodWidth methodSpan
  rw [← methodPlace] at idSpan
  rw [← codePlace] at methodSpan
  rw [← pbBody] at bodyWidth
  have total : (frameLength message : Int) = stop - start := by
    have sum := frame_length_sum message
    rw [errInfo, List.length_nil] at sum
    omega
  have lengthSpan := big_endian_at tmp (start + 1) (by omega) (by omega)
  have codeSpan := big_endian_at tmp (errCodePos tmp start) (by omega) (by omega)
  have textSpan := big_endian_at tmp (textPos tmp start) (by omega) (by omega)
  have checkWidth := window_length tmp (stop - 5) (stop - 1) (by omega) (by omega) (by omega)
  rw [pkLen, ← total, show start + 1 + 4 = start + 5 by omega] at lengthSpan
  rw [← errCode, ← textPlace] at codeSpan
  rw [noText] at textSpan
  refine ⟨total, PB_START :: (bigEndian (frameLength message) ++ (bigEndian message.msgId.length ++ message.msgId
    ++ (bigEndian message.methodName.length ++ message.methodName ++ (bigEndian message.errCode
    ++ (bigEndian 0 ++ message.pbBody))))), bigEndian 1, window tmp (stop - 5) (stop - 1), [PB_END], rfl, by omega, rfl, ?_, ?_⟩
  · rw [frameBytes, narrow_length _ (by omega), narrow_length _ (by omega), errInfo]
    simp only [List.append_assoc, List.cons_append, List.append_nil, List.length_nil]
    rfl
  · rw [← idSpan, ← methodSpan, lengthSpan, codeSpan, textSpan, pbBody, ← stopByte]
    rw [window_split tmp start (start + 1) stop lower (by omega) (by omega), startByte,
      window_split tmp (start + 1) (start + 5) stop (by omega) (by omega) (by omega),
      window_split tmp (start + 5) (methodPos tmp start) stop (by omega) (by omega) (by omega),
      window_split tmp (methodPos tmp start) (errCodePos tmp start) stop (by omega) (by omega) (by omega),
      window_split tmp (errCodePos tmp start) (textPos tmp start) stop (by omega) (by omega) (by omega),
      window_split tmp (textPos tmp start) (textPos tmp start + 4) stop (by omega) (by omega) (by omega),
      window_split tmp (textPos tmp start + 4) (stop - 5) stop (by omega) (by omega) (by omega),
      window_split tmp (stop - 5) (stop - 1) stop (by omega) (by omega) (by omega)]
    simp only [List.append_assoc, List.cons_append, List.nil_append, show stop - 1 + 1 = stop by omega]

theorem well_formed_widths (bytes : Bytes) (message : TinyPBProtocol) (wellFormed : WellFormed bytes message) :
    (message.errInfo.length : Int) = lengthAt bytes (textPos bytes 0) ∧
      (message.pbBody.length : Int) = bytes.length - 26 - lengthAt bytes 5 - lengthAt bytes (methodPos bytes 0)
        - lengthAt bytes (textPos bytes 0) := by
  obtain ⟨_, _, whole, idLower, methodLower, textLower, fits, _, _, errInfo, pbBody, _⟩ := wellFormed
  have methodFront := method_pos_front bytes
  have textFront := text_pos_sum bytes 0
  have bodyFront : bodyPos bytes 0 = textPos bytes 0 + 4 + lengthAt bytes (textPos bytes 0) := by rw [bodyPos]
  have textRange := window_length bytes (textPos bytes 0 + 4) (textPos bytes 0 + 4 + lengthAt bytes (textPos bytes 0))
    (by omega) (by omega) (by omega)
  have bodyRange := window_length bytes (bodyPos bytes 0) (bytes.length - 5) (by omega) (by omega) (by omega)
  rw [← fieldAt, ← errInfo] at textRange
  rw [← pbBody] at bodyRange
  exact ⟨by omega, by omega⟩

-- The same when the bound is known of the length fields inside the frame.
theorem same_fields_fit (tmp : Bytes) (start stop : Int) (lower : 0 ≤ start) (idLower : 0 ≤ lengthAt tmp (start + 5))
    (methodLower : 0 ≤ lengthAt tmp (methodPos tmp start)) (bytes : Bytes) (same : bytes = window tmp start stop)
    (wireId : 0 ≤ lengthAt bytes 5) (wireMethod : 0 ≤ lengthAt bytes (methodPos bytes 0))
    (fits : start + lengthAt bytes 5 + lengthAt bytes (methodPos bytes 0) + 26 ≤ stop) : SameFields tmp start bytes := by
  have methodFront := method_pos_front bytes
  have methodBack : methodPos tmp start = start + 9 + lengthAt tmp (start + 5) := by rw [methodPos]
  have textBack := text_pos_sum tmp start
  have sameId : lengthAt bytes 5 = lengthAt tmp (start + 5) := by
    rw [same]
    exact length_at_inside tmp start stop 5 lower (by omega) (by omega)
  have methodPlace : start + methodPos bytes 0 = methodPos tmp start := by omega
  have sameMethod : lengthAt bytes (methodPos bytes 0) = lengthAt tmp (methodPos tmp start) := by
    have found := length_at_inside tmp start stop (methodPos bytes 0) lower (by omega) (by omega)
    rwa [← same, methodPlace] at found
  rw [same]
  exact same_fields tmp start stop lower idLower methodLower (by omega) (by omega) (by omega)

-- The text is added to the length of the body instead of being taken from it.
theorem text_adds_twice (text body msgId method wire pkLen : Int) (textWidth : text = wire)
    (bodyWidth : body = pkLen - 26 - msgId - method - wire) (taken : body = pkLen - msgId - method + text - 26) :
    wire = 0 := by
  omega

section Accepted

variable (tmp : Bytes) (hi : Int) (frame : Frame) (message : TinyPBProtocol)

theorem frame_span (isFrame : IsFrame tmp hi frame) (parsed : Parsed tmp frame message) :
    0 ≤ frame.startIndex ∧ frame.endIndex + 1 ≤ tmp.length ∧
      lengthAt tmp (frame.startIndex + 1) = frame.endIndex + 1 - frame.startIndex ∧
      frame.pkLen = frame.endIndex + 1 - frame.startIndex ∧
      ((window tmp frame.startIndex (frame.endIndex + 1)).length : Int) = frame.endIndex + 1 - frame.startIndex := by
  obtain ⟨lower, _, _⟩ := window_cell tmp _ _ isFrame.start
  obtain ⟨_, upper, _⟩ := window_cell tmp _ _ isFrame.last
  obtain ⟨_, _, same⟩ := net_byte_some tmp _ _ isFrame.length
  have ends := isFrame.endIndex
  have long := parsed.longEnough
  have width := window_length tmp frame.startIndex (frame.endIndex + 1) lower (by omega) (by omega)
  exact ⟨lower, by omega, by omega, by omega, width⟩

theorem well_formed_no_text (bytes : Bytes) (accepted : bytes = window tmp frame.startIndex (frame.endIndex + 1))
    (isFrame : IsFrame tmp hi frame) (parsed : Parsed tmp frame message) (wellFormed : WellFormed bytes message) :
    lengthAt tmp (textPos tmp frame.startIndex) = 0 := by
  obtain ⟨lower, upper, _, pkLen, width⟩ := frame_span tmp hi frame message isFrame parsed
  rw [← accepted] at width
  have whole := wellFormed.pkLen
  have fits := wellFormed.fits
  have wireText := wellFormed.errInfoLen
  have same := same_fields_fit tmp frame.startIndex (frame.endIndex + 1) lower parsed.msgIdField.lengthLower
    parsed.methodField.lengthLower bytes accepted wellFormed.msgIdLen wellFormed.methodNameLen (by omega)
  obtain ⟨textWidth, bodyWidth⟩ := well_formed_widths bytes message wellFormed
  have taken := slice_length tmp message.pbBody _ _ parsed.pbBody
  rw [same.errInfoLen] at textWidth bodyWidth
  rw [same.msgIdLen, same.methodNameLen, width] at bodyWidth
  rw [pkLen] at taken
  exact text_adds_twice _ _ _ _ _ _ textWidth bodyWidth taken

theorem no_text_body (parsed : Parsed tmp frame message)
    (pkLen : frame.pkLen = frame.endIndex + 1 - frame.startIndex) (noText : lengthAt tmp (textPos tmp frame.startIndex) = 0) :
    message.errInfo = [] ∧ textPos tmp frame.startIndex + 4 ≤ frame.endIndex + 1 - 5 ∧
      message.pbBody = window tmp (textPos tmp frame.startIndex + 4) (frame.endIndex + 1 - 5) := by
  have noBytes : fieldAt tmp (textPos tmp frame.startIndex) = [] := by rw [fieldAt, noText, Int.add_zero, window_empty]
  have errInfo : message.errInfo = [] := by rw [parsed.errInfo, noBytes, List.takeWhile_nil]
  have methodBack : methodPos tmp frame.startIndex = frame.startIndex + 9 + lengthAt tmp (frame.startIndex + 5) := by
    rw [methodPos]
  have textBack := text_pos_sum tmp frame.startIndex
  obtain ⟨_, bodyLower, _, pbBody⟩ := slice_some tmp message.pbBody _ _ parsed.pbBody
  rw [errInfo, List.length_nil, Int.natCast_zero, Int.add_zero] at bodyLower
  rw [errInfo, List.length_nil, Int.natCast_zero, Int.add_zero, Int.add_zero] at pbBody
  have room : textPos tmp frame.startIndex + 4 + (frame.pkLen - lengthAt tmp (frame.startIndex + 5)
      - lengthAt tmp (methodPos tmp frame.startIndex) - 26) = frame.endIndex + 1 - 5 := by omega
  rw [room] at pbBody
  exact ⟨errInfo, by omega, pbBody⟩

theorem no_text_reencodes (bytes : Bytes) (accepted : bytes = window tmp frame.startIndex (frame.endIndex + 1))
    (isFrame : IsFrame tmp hi frame) (parsed : Parsed tmp frame message)
    (noText : lengthAt tmp (textPos tmp frame.startIndex) = 0) (nonempty : message.msgId ≠ []) :
    ∃ sent again, encodeTinyPB message = some (sent, again) ∧ SameApartFromCheckNum again bytes := by
  obtain ⟨_, upper, wirePkLen, pkLen, _⟩ := frame_span tmp hi frame message isFrame parsed
  obtain ⟨errInfo, room, pbBody⟩ := no_text_body tmp frame message parsed pkLen noText
  have small := (net_byte_range tmp _ _ isFrame.length).2
  have stop : cell tmp (frame.endIndex + 1 - 1) = some PB_END := by
    rw [Int.add_sub_cancel]
    exact isFrame.last
  obtain ⟨total, again⟩ := frame_bytes_again tmp frame.startIndex (frame.endIndex + 1) message upper isFrame.start stop
    wirePkLen (by omega) parsed.msgIdField.lengthLower parsed.methodField.lengthLower room parsed.msgId parsed.methodName
    parsed.errCode errInfo noText pbBody
  have same := ensure_msg_id_same message nonempty
  obtain ⟨sent, encoded⟩ := encode_tiny_pb_defined message (by rw [same]; omega)
  rw [same] at encoded
  exact ⟨sent, _, encoded, accepted ▸ again⟩

theorem field_order (parsed : Parsed tmp frame message) :
    frame.startIndex + 9 + lengthAt tmp (frame.startIndex + 5) = methodPos tmp frame.startIndex ∧
      frame.startIndex + 9 ≤ methodPos tmp frame.startIndex ∧
      methodPos tmp frame.startIndex + 4 + lengthAt tmp (methodPos tmp frame.startIndex) + 4 = textPos tmp frame.startIndex ∧
      methodPos tmp frame.startIndex + 8 ≤ textPos tmp frame.startIndex := by
  have idLower := parsed.msgIdField.lengthLower
  have methodLower := parsed.methodField.lengthLower
  have methodBack : methodPos tmp frame.startIndex = frame.startIndex + 9 + lengthAt tmp (frame.startIndex + 5) := by
    rw [methodPos]
  have textBack := text_pos_sum tmp frame.startIndex
  exact ⟨methodBack.symm, by omega, textBack.symm, by omega⟩

theorem method_field_inside (start stop : Int) (bytes : Bytes) (accepted : bytes = window tmp start stop) (lower : 0 ≤ start)
    (same : SameFields tmp start bytes) (after : start ≤ methodPos tmp start) (inside : methodPos tmp start + 4 ≤ stop)
    (fits : methodPos tmp start + 4 + lengthAt tmp (methodPos tmp start) ≤ stop) :
    fieldAt bytes (methodPos bytes 0) = fieldAt tmp (methodPos tmp start) := by
  have place := same.methodPlace
  have found := field_at_inside tmp start stop (methodPos bytes 0) lower (by omega) (by omega) (by rw [place]; exact fits)
  rwa [← accepted, place] at found

theorem body_inside (start stop : Int) (bytes : Bytes) (accepted : bytes = window tmp start stop) (lower : 0 ≤ start)
    (same : SameFields tmp start bytes) (after : start ≤ textPos tmp start) (width : (bytes.length : Int) = stop - start)
    (noText : lengthAt tmp (textPos tmp start) = 0) :
    window bytes (bodyPos bytes 0) (bytes.length - 5) = window tmp (textPos tmp start + 4) (stop - 5) := by
  have place := same.textPlace
  have left : start + (textPos bytes 0 + 4) = textPos tmp start + 4 := by omega
  have right : start + ((bytes.length : Int) - 5) = stop - 5 := by omega
  have found := window_inside tmp start stop (textPos bytes 0 + 4) (bytes.length - 5) lower (by omega) (by omega)
  rw [← accepted, left, right] at found
  rw [bodyPos, same.errInfoLen, noText, Int.add_zero, found]

theorem no_text_well_formed (bytes : Bytes) (accepted : bytes = window tmp frame.startIndex (frame.endIndex + 1))
    (isFrame : IsFrame tmp hi frame) (parsed : Parsed tmp frame message)
    (noText : lengthAt tmp (textPos tmp frame.startIndex) = 0) : WellFormed bytes message := by
  obtain ⟨lower, -, wirePkLen, pkLen, width⟩ := frame_span tmp hi frame message isFrame parsed
  obtain ⟨errInfo, room, pbBody⟩ := no_text_body tmp frame message parsed pkLen noText
  clear pkLen
  obtain ⟨methodBack, methodAfter, textBack, textAfter⟩ := field_order tmp frame message parsed
  have idLower := parsed.msgIdField.lengthLower
  have methodLower := parsed.methodField.lengthLower
  have same := same_fields tmp frame.startIndex (frame.endIndex + 1) lower idLower methodLower (by omega) (by omega)
    (by omega)
  have sameLength := length_at_inside tmp frame.startIndex (frame.endIndex + 1) 1 lower (by omega) (by omega)
  rw [← accepted] at width same
  rw [← accepted, wirePkLen] at sameLength
  constructor
  · rw [accepted, cell_inside tmp _ _ 0 lower (by omega) (by omega), Int.add_zero, isFrame.start]
  · have place : frame.startIndex + ((bytes.length : Int) - 1) = frame.endIndex := by omega
    have found := cell_inside tmp frame.startIndex (frame.endIndex + 1) (bytes.length - 1) lower (by omega) (by omega)
    rw [← accepted, place] at found
    rw [found, isFrame.last]
  · rw [width, sameLength]
  · rw [same.msgIdLen]
    exact idLower
  · rw [same.methodNameLen]
    exact methodLower
  · exact Int.le_of_eq (same.errInfoLen.trans noText).symm
  · rw [same.msgIdLen, same.methodNameLen, same.errInfoLen, noText, sameLength]
    omega
  · rw [accepted, field_at_inside tmp _ _ 5 lower (by omega) (by omega) (by omega), parsed.msgId]
  · rw [method_field_inside tmp _ _ bytes accepted lower same (by omega) (by omega) (by omega), parsed.methodName]
  · rw [errInfo, fieldAt, same.errInfoLen, noText, Int.add_zero, window_empty]
  · rw [body_inside tmp _ _ bytes accepted lower same (by omega) width noText, pbBody]
  · exact no_text_reencodes tmp hi frame message bytes accepted isFrame parsed noText

end Accepted

def acceptedBytes (buf : TcpBuffer) (frame : Frame) : Bytes := window buf.buffer frame.startIndex (frame.endIndex + 1)

def errInfoLenField (buf : TcpBuffer) (frame : Frame) : Int := lengthAt buf.buffer (textPos buf.buffer frame.startIndex)

-- decode comes to the buffer, accepts the frame there and pushes the message.
structure Pushes (start : DecodeState) (buf : TcpBuffer) (frame : Frame) (message : TinyPBProtocol) : Prop where
  accepted : NextFrame buf frame
  pushed : ∃ out next, Reaches decodeTurn start (out, buf) ∧ decodeTurn (out, buf) = some (.next (out ++ [message], next))

theorem decode_turn_pushes (out : List TinyPBProtocol) (buf next : TcpBuffer) (frame : Frame) (message : TinyPBProtocol)
    (accepted : NextFrame buf frame) (turn : decodeTurn (out, buf) = some (.next (out ++ [message], next))) :
    parseFrame buf.buffer frame = some (some message) := by
  have scanned : scan buf.buffer buf.readIndex buf.writeIndex = some (some frame) := (scan_first_frame _ _ _ frame).mpr accepted
  simp only [decodeTurn, scanned, Option.bind_eq_bind, Option.bind_some, Option.bind_eq_some_iff] at turn
  obtain ⟨_, _, parsed, made, turn⟩ := turn
  cases parsed with
  | none =>
      obtain ⟨same, _⟩ := Prod.mk.inj (Flow.next.inj (Option.some.inj turn))
      exact absurd same (by simp)
  | some other =>
      obtain ⟨same, _⟩ := Prod.mk.inj (Flow.next.inj (Option.some.inj turn))
      rw [made, List.singleton_inj.mp (List.append_cancel_left same)]

theorem accepted_well_formed_iff (start : DecodeState) (buf : TcpBuffer) (frame : Frame) (message : TinyPBProtocol)
    (pushes : Pushes start buf frame message) :
    WellFormed (acceptedBytes buf frame) message ↔ errInfoLenField buf frame = 0 := by
  obtain ⟨accepted, out, next, _, turn⟩ := pushes
  have parsed := parse_frame_parsed buf.buffer frame message (decode_turn_pushes out buf next frame message accepted turn)
  constructor
  · exact well_formed_no_text buf.buffer buf.writeIndex frame message _ rfl accepted.isFrame parsed
  · exact no_text_well_formed buf.buffer buf.writeIndex frame message _ rfl accepted.isFrame parsed

theorem pushes_front (buf next : TcpBuffer) (frame : Frame) (message : TinyPBProtocol)
    (scanned : scan buf.buffer buf.readIndex buf.writeIndex = some (some frame))
    (turn : decodeTurn ([], buf) = some (.next ([message], next))) : Pushes ([], buf) buf frame message :=
  ⟨(scan_first_frame _ _ _ frame).mp scanned, [], next, reaches_refl decodeTurn _, turn⟩

theorem ping_well_formed : WellFormed (acceptedBytes pingBuffer ⟨0, 27, 28⟩) pingMessage :=
  (accepted_well_formed_iff ([], pingBuffer) pingBuffer ⟨0, 27, 28⟩ pingMessage
    (pushes_front pingBuffer { pingBuffer with readIndex := 28 } ⟨0, 27, 28⟩ pingMessage (by decide +kernel)
      (by decide +kernel))).mpr (by decide +kernel)

def errorReply : TinyPBProtocol := { msgId := [0x31], errCode := 10000002, errInfo := [0x78] }

def errorReplyBuffer : TcpBuffer := ⟨0, 28, 128, frame errorReply ++ List.replicate 100 0⟩

-- What is read of the frame above: its check number has become the body.
def errorReplyRead : TinyPBProtocol :=
  { msgId := [0x31], pkLength := 28, msgIdLen := 1, errCode := 10000002, errInfo := [0x78], errInfoLen := 1,
    pbBody := [0, 0], paraseSuccess := true }

-- A text of five bytes in a frame that has four of them left.
def longTextBuffer : TcpBuffer :=
  ⟨0, 26, 128, PB_START :: (bigEndian 26 ++ bigEndian 0 ++ bigEndian 0 ++ bigEndian 0 ++ bigEndian 5
    ++ [0x61, 0x62, 0x63, 0x64, PB_END]) ++ List.replicate 102 0⟩

def longTextRead : TinyPBProtocol :=
  { pkLength := 26, errInfo := [0x61, 0x62, 0x63, 0x64, PB_END], errInfoLen := 5, pbBody := [0, 0, 0, 0, 0],
    paraseSuccess := true }

theorem error_text_not_well_formed :
    (encodeTinyPB errorReply).map Prod.snd = some (frame errorReply) ∧
      Pushes ([], errorReplyBuffer) errorReplyBuffer ⟨0, 27, 28⟩ errorReplyRead ∧
      ¬ WellFormed (acceptedBytes errorReplyBuffer ⟨0, 27, 28⟩) errorReplyRead ∧
      Pushes ([], longTextBuffer) longTextBuffer ⟨0, 25, 26⟩ longTextRead ∧
      ¬ WellFormed (acceptedBytes longTextBuffer ⟨0, 25, 26⟩) longTextRead := by
  refine ⟨by decide +kernel, ?_, ?_, ?_, ?_⟩
  · exact pushes_front errorReplyBuffer { errorReplyBuffer with readIndex := 28 } _ _ (by decide +kernel) (by decide +kernel)
  · intro wellFormed
    exact absurd wellFormed.pbBody (by decide +kernel)
  · exact pushes_front longTextBuffer { longTextBuffer with readIndex := 26 } _ _ (by decide +kernel) (by decide +kernel)
  · intro wellFormed
    exact absurd wellFormed.fits (by decide +kernel)

end Rocket
