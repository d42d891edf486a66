import Rocket.DecodeTermination
import Rocket.Lib.AccessTrace

set_option autoImplicit false

namespace Rocket

open Memory Word32 WhileLoop AccessTrace

-- What decode touches, positions being indices of the copied vector. text is
-- std::string(error_info), which reads the local array up to a NUL.
inductive Access where
  | arithmetic (value : Int)
  | byte (pos : Int)
  | int32 (pos : Int)
  | field (capacity pos length : Int)
  | text (capacity : Int) (copied : Bytes)
  | body (pos length : Int)
deriving DecidableEq, Repr

def Allowed (lo hi : Int) : Access → Prop
  | .arithmetic value => InRange value
  | .byte pos => lo ≤ pos ∧ pos < hi
  | .int32 pos => lo ≤ pos ∧ pos + 4 ≤ hi
  | .field capacity pos length => 0 ≤ length ∧ length ≤ capacity ∧ lo ≤ pos ∧ pos + length ≤ hi
  | .text capacity copied => copied.length < capacity ∨ 0 ∈ copied
  | .body pos length => 0 ≤ length ∧ lo ≤ pos ∧ pos + length ≤ hi

instance allowedDecidable (lo hi : Int) : (kind : Access) → Decidable (Allowed lo hi kind)
  | .arithmetic value => inferInstanceAs (Decidable (InRange value))
  | .byte pos => inferInstanceAs (Decidable (lo ≤ pos ∧ pos < hi))
  | .int32 pos => inferInstanceAs (Decidable (lo ≤ pos ∧ pos + 4 ≤ hi))
  | .field capacity pos length =>
      inferInstanceAs (Decidable (0 ≤ length ∧ length ≤ capacity ∧ lo ≤ pos ∧ pos + length ≤ hi))
  | .text capacity copied => inferInstanceAs (Decidable ((copied.length : Int) < capacity ∨ 0 ∈ copied))
  | .body pos length => inferInstanceAs (Decidable (0 ≤ length ∧ lo ≤ pos ∧ pos + length ≤ hi))

def compute (value : Int) : Traced Access Int := access (.arithmetic value) (checked value)

def readByte (tmp : Bytes) (pos : Int) : Traced Access UInt8 := access (.byte pos) (cell tmp pos)

def readInt32 (tmp : Bytes) (index : Int) : Traced Access Int := access (.int32 index) (getInt32FromNetByte tmp index)

def readField (tmp : Bytes) (capacity index length : Int) : Traced Access Bytes :=
  access (.field capacity index length) (copyField tmp capacity index length)

def readText (capacity : Int) (copied : Bytes) : Traced Access Bytes :=
  access (.text capacity copied) (cString capacity copied)

def readBody (tmp : Bytes) (index length : Int) : Traced Access Bytes :=
  access (.body index length) (slice tmp index length)

def tracedScanFrom (tmp : Bytes) (writeIndex : Int) : Nat → Int → Traced Access (Option Frame)
  | 0, _ => return none
  | left + 1, i => do
      let byte ← readByte tmp i
      if byte = PB_START ∧ i + 1 < writeIndex then
        let pkLen ← readInt32 tmp (i + 1)
        let sum ← compute (i + pkLen)
        let j ← compute (sum - 1)
        if j ≥ writeIndex then tracedScanFrom tmp writeIndex left (i + 1)
        else do
          let last ← readByte tmp j
          if last = PB_END then return some ⟨i, j, pkLen⟩ else tracedScanFrom tmp writeIndex left (i + 1)
      else tracedScanFrom tmp writeIndex left (i + 1)

def tracedScan (tmp : Bytes) (startIndex writeIndex : Int) : Traced Access (Option Frame) :=
  tracedScanFrom tmp writeIndex (writeIndex - startIndex).toNat startIndex

def tracedPbBody (tmp : Bytes) (message : TinyPBProtocol) (errorInfoIndex : Int) :
    Traced Access (Option TinyPBProtocol) := do
  let sum ← compute (message.pkLength - message.msgIdLen - message.methodNameLen - -message.errInfoLen)
  let pbBody ← readBody tmp (errorInfoIndex + message.errInfoLen) (sum - 2 - 24)
  return some { message with pbBody := pbBody, paraseSuccess := true }

def tracedErrInfo (tmp : Bytes) (endIndex : Int) (message : TinyPBProtocol) (errorInfoLenIndex : Int) :
    Traced Access (Option TinyPBProtocol) :=
  if errorInfoLenIndex ≥ endIndex then return none
  else do
    let errorInfoLen ← readInt32 tmp errorInfoLenIndex
    let copied ← readField tmp 512 (errorInfoLenIndex + 4) errorInfoLen
    let errorInfo ← readText 512 copied
    tracedPbBody tmp (setErrInfo message errorInfo) (errorInfoLenIndex + 4)

def tracedErrCode (tmp : Bytes) (endIndex : Int) (message : TinyPBProtocol) (errCodeIndex : Int) :
    Traced Access (Option TinyPBProtocol) :=
  if errCodeIndex ≥ endIndex then return none
  else do
    let errCode ← readInt32 tmp errCodeIndex
    tracedErrInfo tmp endIndex { message with errCode := errCode } (errCodeIndex + 4)

def tracedMethodName (tmp : Bytes) (endIndex : Int) (message : TinyPBProtocol) (methodNameLenIndex : Int) :
    Traced Access (Option TinyPBProtocol) :=
  if methodNameLenIndex ≥ endIndex then return none
  else do
    let methodNameLen ← readInt32 tmp methodNameLenIndex
    let methodName ← readField tmp 512 (methodNameLenIndex + 4) methodNameLen
    tracedErrCode tmp endIndex (setMethodName message methodName) (methodNameLenIndex + 4 + methodNameLen)

def tracedMsgId (tmp : Bytes) (endIndex : Int) (message : TinyPBProtocol) (msgIdLenIndex : Int) :
    Traced Access (Option TinyPBProtocol) :=
  if msgIdLenIndex ≥ endIndex then return none
  else do
    let msgIdLen ← readInt32 tmp msgIdLenIndex
    let msgId ← readField tmp 100 (msgIdLenIndex + 4) msgIdLen
    tracedMethodName tmp endIndex { message with msgId := msgId, msgIdLen := msgIdLen } (msgIdLenIndex + 4 + msgIdLen)

def tracedFrame (tmp : Bytes) (frame : Frame) : Traced Access (Option TinyPBProtocol) :=
  tracedMsgId tmp frame.endIndex { pkLength := frame.pkLen } (frame.startIndex + 1 + 4)

-- The accesses of one iteration. Moving the read index works on the buffer
-- itself and not on the copied vector.
def tracedTurn (state : DecodeState) : Traced Access (Flow DecodeState DecodeState) := do
  let tmp := state.2.buffer
  match ← tracedScan tmp state.2.readIndex state.2.writeIndex with
  | none => return .stop state
  | some frame => do
      let buf ← lift (moveReadIndex state.2 (frame.endIndex - frame.startIndex + 1))
      match ← tracedFrame tmp frame with
      | none => return .next (state.1, buf)
      | some message => return .next (state.1 ++ [message], buf)

theorem traced_scan_from_value (tmp : Bytes) (hi pos : Int) (left : Nat) :
    (tracedScanFrom tmp hi left pos).value = scanFrom tmp hi left pos := by
  induction left generalizing pos with
  | zero => rfl
  | succ left ih =>
      simp only [tracedScanFrom, scanFrom, readByte, readInt32, compute, value_bind, value_access, apply_ite Traced.value,
        value_pure, ih, Option.bind_eq_bind]

theorem traced_frame_value (tmp : Bytes) (frame : Frame) : (tracedFrame tmp frame).value = parseFrame tmp frame := by
  simp only [tracedFrame, tracedMsgId, tracedMethodName, tracedErrCode, tracedErrInfo, tracedPbBody, parseFrame, parseMsgId,
    parseMethodName, parseErrCode, parseErrInfo, parsePbBody, readInt32, readField, readText, readBody, compute, value_bind,
    value_access, apply_ite Traced.value, value_pure, Option.bind_eq_bind]

theorem traced_turn_value (state : DecodeState) : (tracedTurn state).value = decodeTurn state := by
  obtain ⟨out, buf⟩ := state
  have scanned : (tracedScan buf.buffer buf.readIndex buf.writeIndex).value =
      scan buf.buffer buf.readIndex buf.writeIndex := traced_scan_from_value _ _ _ _
  simp only [tracedTurn, decodeTurn, value_bind, scanned, Option.bind_eq_bind]
  congr 1
  funext found
  cases found with
  | none => rfl
  | some frame =>
      simp only [value_bind, traced_frame_value]
      congr 1
      funext moved
      congr 1
      funext parsed
      cases parsed <;> rfl

def lengthAt (tmp : Bytes) (pos : Int) : Int := fromBigEndian (window tmp pos (pos + 4))

theorem net_byte_at (tmp : Bytes) (pos : Int) (lower : 0 ≤ pos) (upper : pos + 4 ≤ tmp.length) :
    getInt32FromNetByte tmp pos = some (lengthAt tmp pos) := by
  have bytes := slice_window tmp pos (pos + 4) lower (by omega) upper
  rw [show pos + 4 - pos = 4 by omega] at bytes
  rw [getInt32FromNetByte, bytes]
  rfl

theorem length_at_range (tmp : Bytes) (pos : Int) : InRange (lengthAt tmp pos) := by
  rw [lengthAt, fromBigEndian]
  exact narrow_range _

theorem cell_some (tmp : Bytes) (pos : Int) (lower : 0 ≤ pos) (upper : pos < tmp.length) :
    ∃ byte, cell tmp pos = some byte := by
  rw [cell, if_pos lower]
  exact ⟨_, List.getElem?_eq_getElem (by omega)⟩

def StartFits (tmp : Bytes) (lo hi pos : Int) : Prop :=
  cell tmp pos = some PB_START → pos + 1 < hi →
    pos + 4 < hi ∧ lo < pos + lengthAt tmp (pos + 1) ∧ pos + lengthAt tmp (pos + 1) < 2 ^ 31

def NoFrameAt (tmp : Bytes) (hi pos : Int) : Prop := ∀ frame, IsFrame tmp hi frame → frame.startIndex ≠ pos

-- The start bytes that the scan comes to are those up to the first frame.
def ScanFits (tmp : Bytes) (lo hi first : Int) : Prop :=
  ∀ pos, first ≤ pos → pos < hi → (∀ earlier, first ≤ earlier → earlier < pos → NoFrameAt tmp hi earlier) →
    StartFits tmp lo hi pos

theorem scan_fits_step (tmp : Bytes) (lo hi pos : Int) (inside : pos < hi) :
    ScanFits tmp lo hi pos ↔ StartFits tmp lo hi pos ∧ (NoFrameAt tmp hi pos → ScanFits tmp lo hi (pos + 1)) := by
  constructor
  · intro fits
    constructor
    · exact fits pos (Int.le_refl pos) inside (fun earlier lower upper => by omega)
    · intro none position lower upper before
      apply fits position (by omega) upper
      intro earlier least most
      obtain rfl | further : earlier = pos ∨ pos + 1 ≤ earlier := by omega
      · exact none
      · exact before earlier further most
  · rintro ⟨here, rest⟩ position lower upper before
    obtain rfl | further : position = pos ∨ pos + 1 ≤ position := by omega
    · exact here
    · exact rest (before pos (Int.le_refl pos) (by omega)) position further upper
        (fun earlier least most => before earlier (by omega) most)

theorem frame_at (tmp : Bytes) (hi pos pkLen : Int) (frame : Frame) (isFrame : IsFrame tmp hi frame)
    (here : frame.startIndex = pos) (length : getInt32FromNetByte tmp (pos + 1) = some pkLen) :
    frame.endIndex = pos + pkLen - 1 := by
  have same := isFrame.length
  rw [here, length] at same
  cases same
  rw [isFrame.endIndex, here]

theorem end_step_within (tmp : Bytes) (lo hi pos pkLen : Int) (lower : 0 ≤ lo) (upper : hi ≤ tmp.length)
    (start : cell tmp pos = some PB_START) (before : pos + 1 < hi) (length : getInt32FromNetByte tmp (pos + 1) = some pkLen)
    (sumRange : InRange (pos + pkLen)) (endRange : InRange (pos + pkLen - 1)) (inRegion : lo ≤ pos + pkLen - 1)
    (rest : Traced Access (Option Frame)) :
    Within (Allowed lo hi)
        (if pos + pkLen - 1 ≥ hi then rest
        else do
          let last ← readByte tmp (pos + pkLen - 1)
          if last = PB_END then return some ⟨pos, pos + pkLen - 1, pkLen⟩ else rest) ↔
      (NoFrameAt tmp hi pos → Within (Allowed lo hi) rest) := by
  by_cases behind : pos + pkLen - 1 ≥ hi
  · have none : NoFrameAt tmp hi pos := by
      intro frame isFrame here
      have bound := isFrame.before
      rw [frame_at tmp hi pos pkLen frame isFrame here length] at bound
      omega
    rw [if_pos behind]
    exact ⟨fun within _ => within, fun within => within none⟩
  · obtain ⟨last, found⟩ := cell_some tmp (pos + pkLen - 1) (by omega) (by omega)
    have allowed : Allowed lo hi (.byte (pos + pkLen - 1)) := ⟨inRegion, by omega⟩
    rw [if_neg behind, readByte, within_access_bind]
    simp only [allowed, found, Option.some.injEq, forall_eq', true_and]
    by_cases ends : last = PB_END
    · have frame : ¬ NoFrameAt tmp hi pos := by
        intro none
        apply none ⟨pos, pos + pkLen - 1, pkLen⟩ _ rfl
        exact ⟨start, before, length, sumRange, endRange, rfl, by simp only; omega, ends ▸ found⟩
      rw [if_pos ends]
      exact ⟨fun _ none => absurd none frame, fun _ => within_pure _ _⟩
    · have none : NoFrameAt tmp hi pos := by
        intro frame isFrame here
        have stop := isFrame.last
        rw [frame_at tmp hi pos pkLen frame isFrame here length, found] at stop
        cases stop
        exact ends rfl
      rw [if_neg ends]
      exact ⟨fun within _ => within, fun within => within none⟩

theorem start_step_within (tmp : Bytes) (lo hi pos : Int) (left : Nat) (lower : 0 ≤ lo) (inside : lo ≤ pos)
    (before : pos + 1 < hi) (upper : hi ≤ tmp.length) (start : cell tmp pos = some PB_START) :
    Within (Allowed lo hi) (tracedScanFrom tmp hi (left + 1) pos) ↔
      StartFits tmp lo hi pos ∧ (NoFrameAt tmp hi pos → Within (Allowed lo hi) (tracedScanFrom tmp hi left (pos + 1))) := by
  have startFits : StartFits tmp lo hi pos ↔
      pos + 4 < hi ∧ lo < pos + lengthAt tmp (pos + 1) ∧ pos + lengthAt tmp (pos + 1) < 2 ^ 31 :=
    ⟨fun fits => fits start before, fun fits _ _ => fits⟩
  have range := length_at_range tmp (pos + 1)
  rw [startFits]
  by_cases cut : pos + 4 < hi
  · have length := net_byte_at tmp (pos + 1) (by omega) (by omega)
    obtain ⟨pkLen, same⟩ : ∃ pkLen, pkLen = lengthAt tmp (pos + 1) := ⟨_, rfl⟩
    rw [← same] at length range ⊢
    rw [tracedScanFrom, readByte, within_access_bind]
    simp only [start, before, Option.some.injEq, forall_eq', and_self, if_true, readInt32, compute, within_access_bind, length]
    constructor
    · rintro ⟨_, _, sumRange, computed⟩
      obtain ⟨endRange, within⟩ := computed _ (checked_some _ sumRange)
      have within := within _ (checked_some _ endRange)
      have inRegion : lo ≤ pos + pkLen - 1 := by
        by_cases behind : pos + pkLen - 1 ≥ hi
        · omega
        · rw [if_neg behind, readByte, within_access_bind] at within
          exact within.1.1
      exact ⟨⟨cut, by omega, sumRange.2⟩, (end_step_within tmp lo hi pos pkLen lower upper start before length sumRange
        endRange inRegion _).mp within⟩
    · rintro ⟨⟨_, above, below⟩, rest⟩
      have sumRange : InRange (pos + pkLen) := ⟨by omega, below⟩
      have endRange : InRange (pos + pkLen - 1) := ⟨by omega, by omega⟩
      refine ⟨⟨inside, by omega⟩, ⟨by omega, by omega⟩, sumRange, ?_⟩
      intro sum summed
      rw [checked_some _ sumRange] at summed
      cases summed
      refine ⟨endRange, ?_⟩
      intro j subtracted
      rw [checked_some _ endRange] at subtracted
      cases subtracted
      exact (end_step_within tmp lo hi pos pkLen lower upper start before length sumRange endRange (by omega) _).mpr rest
  · rw [tracedScanFrom, readByte, within_access_bind]
    simp only [start, before, Option.some.injEq, forall_eq', and_self, if_true, readInt32, within_access_bind]
    constructor
    · rintro ⟨_, ⟨_, inFront⟩, _⟩
      omega
    · rintro ⟨⟨inFront, _⟩, _⟩
      exact absurd inFront cut

theorem scan_step_within (tmp : Bytes) (lo hi pos : Int) (left : Nat) (lower : 0 ≤ lo) (inside : lo ≤ pos)
    (before : pos < hi) (upper : hi ≤ tmp.length) :
    Within (Allowed lo hi) (tracedScanFrom tmp hi (left + 1) pos) ↔
      StartFits tmp lo hi pos ∧ (NoFrameAt tmp hi pos → Within (Allowed lo hi) (tracedScanFrom tmp hi left (pos + 1))) := by
  obtain ⟨byte, found⟩ := cell_some tmp pos (by omega) (by omega)
  by_cases starts : byte = PB_START ∧ pos + 1 < hi
  · exact start_step_within tmp lo hi pos left lower inside starts.2 upper (starts.1 ▸ found)
  · have here : StartFits tmp lo hi pos := by
      intro start further
      rw [found] at start
      cases start
      exact absurd ⟨rfl, further⟩ starts
    have none : NoFrameAt tmp hi pos := by
      intro frame isFrame same
      have start := isFrame.start
      have further := isFrame.inside
      rw [same, found] at start
      rw [same] at further
      cases start
      exact starts ⟨rfl, further⟩
    have allowed : Allowed lo hi (.byte pos) := ⟨inside, before⟩
    rw [tracedScanFrom, readByte, within_access_bind]
    simp only [allowed, found, Option.some.injEq, forall_eq', if_neg starts, true_and]
    exact ⟨fun within => ⟨here, fun _ => within⟩, fun ⟨_, within⟩ => within none⟩

theorem scan_within (tmp : Bytes) (lo hi pos : Int) (left : Nat) (lower : 0 ≤ lo) (inside : lo ≤ pos)
    (span : pos + left = hi) (upper : hi ≤ tmp.length) :
    Within (Allowed lo hi) (tracedScanFrom tmp hi left pos) ↔ ScanFits tmp lo hi pos := by
  induction left generalizing pos with
  | zero => exact ⟨fun _ position least most => by omega, fun _ => within_pure _ _⟩
  | succ left ih =>
      rw [scan_step_within tmp lo hi pos left lower inside (by omega) upper, scan_fits_step tmp lo hi pos (by omega),
        ih (pos + 1) (by omega) (by omega)]

structure FieldFits (tmp : Bytes) (hi capacity pos : Int) : Prop where
  prefixInside : pos + 4 ≤ hi
  lengthLower : 0 ≤ lengthAt tmp pos
  lengthUpper : lengthAt tmp pos ≤ capacity
  fieldInside : pos + 4 + lengthAt tmp pos ≤ hi

def fieldAt (tmp : Bytes) (pos : Int) : Bytes := window tmp (pos + 4) (pos + 4 + lengthAt tmp pos)

def textLength (tmp : Bytes) (pos : Int) : Int := ((fieldAt tmp pos).takeWhile (· ≠ 0)).length

-- spare is pk_len without the lengths of the fields before the text. The text
-- counts towards the body, and the body starts behind it.
structure TextFits (tmp : Bytes) (hi spare pos : Int) : Prop where
  field : FieldFits tmp hi 512 pos
  terminated : ((fieldAt tmp pos).length : Int) < 512 ∨ 0 ∈ fieldAt tmp pos
  sumUpper : spare + textLength tmp pos < 2 ^ 31
  bodyLower : 26 ≤ spare + textLength tmp pos
  bodyUpper : pos + spare + 2 * textLength tmp pos ≤ hi + 22

structure ErrCodeFits (tmp : Bytes) (hi endIndex spare pos : Int) : Prop where
  inside : pos + 4 ≤ hi
  text : pos + 4 < endIndex → TextFits tmp hi spare (pos + 4)

structure MethodNameFits (tmp : Bytes) (hi endIndex spare pos : Int) : Prop where
  field : FieldFits tmp hi 512 pos
  errCode : pos + 4 + lengthAt tmp pos < endIndex →
    ErrCodeFits tmp hi endIndex (spare - lengthAt tmp pos) (pos + 4 + lengthAt tmp pos)

structure MsgIdFits (tmp : Bytes) (hi endIndex spare pos : Int) : Prop where
  field : FieldFits tmp hi 100 pos
  methodName : pos + 4 + lengthAt tmp pos < endIndex →
    MethodNameFits tmp hi endIndex (spare - lengthAt tmp pos) (pos + 4 + lengthAt tmp pos)

def FrameFits (tmp : Bytes) (hi : Int) (frame : Frame) : Prop :=
  frame.startIndex + 5 < frame.endIndex → MsgIdFits tmp hi frame.endIndex frame.pkLen (frame.startIndex + 5)

theorem copy_field_some (tmp : Bytes) (hi capacity pos : Int) (lower : 0 ≤ pos) (upper : hi ≤ tmp.length)
    (fits : FieldFits tmp hi capacity pos) :
    copyField tmp capacity (pos + 4) (lengthAt tmp pos) = some (fieldAt tmp pos) := by
  obtain ⟨_, lengthLower, lengthUpper, fieldInside⟩ := fits
  have bytes := slice_window tmp (pos + 4) (pos + 4 + lengthAt tmp pos) (by omega) (by omega) (by omega)
  rw [show pos + 4 + lengthAt tmp pos - (pos + 4) = lengthAt tmp pos by omega] at bytes
  rw [copyField, if_pos lengthUpper, bytes]
  rfl

theorem field_within (tmp : Bytes) (lo hi capacity pos : Int) (lower : 0 ≤ lo) (inside : lo ≤ pos)
    (upper : hi ≤ tmp.length) (next : Int → Bytes → Traced Access (Option TinyPBProtocol)) :
    Within (Allowed lo hi) (do
        let length ← readInt32 tmp pos
        let copied ← readField tmp capacity (pos + 4) length
        next length copied) ↔
      FieldFits tmp hi capacity pos ∧ Within (Allowed lo hi) (next (lengthAt tmp pos) (fieldAt tmp pos)) := by
  rw [readInt32, within_access_bind]
  constructor
  · rintro ⟨⟨_, prefixInside⟩, within⟩
    have within := within _ (net_byte_at tmp pos (by omega) (by omega))
    rw [readField, within_access_bind] at within
    obtain ⟨⟨lengthLower, lengthUpper, _, fieldInside⟩, within⟩ := within
    have fits : FieldFits tmp hi capacity pos := ⟨prefixInside, lengthLower, lengthUpper, fieldInside⟩
    exact ⟨fits, within _ (copy_field_some tmp hi capacity pos (by omega) upper fits)⟩
  · rintro ⟨fits, within⟩
    have copied := copy_field_some tmp hi capacity pos (by omega) upper fits
    obtain ⟨prefixInside, lengthLower, lengthUpper, fieldInside⟩ := fits
    refine ⟨⟨inside, prefixInside⟩, ?_⟩
    intro length read
    rw [net_byte_at tmp pos (by omega) (by omega)] at read
    obtain rfl := Option.some.inj read
    rw [readField, within_access_bind]
    refine ⟨⟨lengthLower, lengthUpper, by omega, fieldInside⟩, ?_⟩
    intro bytes found
    rw [copied] at found
    cases found
    exact within

-- Over an arbitrary length, so that no proof looks into the conversion to int.
theorem with_err_info_sum (msg : TinyPBProtocol) (errInfo : Bytes) (errInfoLen : Int) :
    let changed := { msg with errInfo := errInfo, errInfoLen := errInfoLen }
    changed.pkLength - changed.msgIdLen - changed.methodNameLen - -changed.errInfoLen =
      msg.pkLength - msg.msgIdLen - msg.methodNameLen + changed.errInfoLen :=
  Int.sub_neg _ _

theorem set_err_info_sum (msg : TinyPBProtocol) (errInfo : Bytes) :
    (setErrInfo msg errInfo).pkLength - (setErrInfo msg errInfo).msgIdLen - (setErrInfo msg errInfo).methodNameLen -
      -(setErrInfo msg errInfo).errInfoLen =
      msg.pkLength - msg.msgIdLen - msg.methodNameLen + (setErrInfo msg errInfo).errInfoLen :=
  with_err_info_sum msg errInfo (narrow errInfo.length)

theorem with_method_name_sum (msg : TinyPBProtocol) (methodName : Bytes) (methodNameLen : Int) :
    let changed := { msg with methodName := methodName, methodNameLen := methodNameLen }
    changed.pkLength - changed.msgIdLen - changed.methodNameLen = msg.pkLength - msg.msgIdLen - methodNameLen :=
  rfl

theorem set_method_name_sum (msg : TinyPBProtocol) (methodName : Bytes) :
    (setMethodName msg methodName).pkLength - (setMethodName msg methodName).msgIdLen -
      (setMethodName msg methodName).methodNameLen = msg.pkLength - msg.msgIdLen - narrow methodName.length :=
  with_method_name_sum msg methodName (narrow methodName.length)

theorem with_msg_id_sum (msg : TinyPBProtocol) (msgId : Bytes) (msgIdLen : Int) :
    let changed := { msg with msgId := msgId, msgIdLen := msgIdLen }
    changed.pkLength - changed.msgIdLen = msg.pkLength - msgIdLen :=
  rfl

theorem field_at_length (tmp : Bytes) (hi capacity pos : Int) (lower : 0 ≤ pos) (upper : hi ≤ tmp.length)
    (field : FieldFits tmp hi capacity pos) : ((fieldAt tmp pos).length : Int) = lengthAt tmp pos := by
  obtain ⟨_, lengthLower, _, fieldInside⟩ := field
  rw [fieldAt, window_length _ _ _ (by omega) (by omega) (by omega)]
  omega

theorem text_length_spec (tmp : Bytes) (hi pos : Int) (lower : 0 ≤ pos) (upper : hi ≤ tmp.length)
    (field : FieldFits tmp hi 512 pos) (message : TinyPBProtocol) :
    0 ≤ textLength tmp pos ∧
      (setErrInfo message ((fieldAt tmp pos).takeWhile (· ≠ 0))).errInfoLen = textLength tmp pos := by
  have width := field_at_length tmp hi 512 pos lower upper field
  have short := field.lengthUpper
  have shorter : ((fieldAt tmp pos).takeWhile (· ≠ 0)).length ≤ (fieldAt tmp pos).length :=
    (List.takeWhile_prefix _).length_le
  constructor
  · rw [textLength]
    omega
  · simp only [setErrInfo]
    exact narrow_length _ (by omega)

theorem pb_body_within (tmp : Bytes) (lo hi pos spare : Int) (message : TinyPBProtocol) (inside : lo ≤ pos)
    (textLower : 0 ≤ message.errInfoLen)
    (sum : message.pkLength - message.msgIdLen - message.methodNameLen - -message.errInfoLen = spare + message.errInfoLen) :
    Within (Allowed lo hi) (tracedPbBody tmp message (pos + 4)) ↔
      spare + message.errInfoLen < 2 ^ 31 ∧ 26 ≤ spare + message.errInfoLen ∧
        pos + spare + 2 * message.errInfoLen ≤ hi + 22 := by
  rw [tracedPbBody, compute, within_access_bind, sum]
  constructor
  · rintro ⟨range, within⟩
    have within := within _ (checked_some _ range)
    rw [readBody, within_access_bind] at within
    obtain ⟨⟨lengthLower, _, bodyInside⟩, _⟩ := within
    exact ⟨range.2, by omega, by omega⟩
  · rintro ⟨sumUpper, bodyLower, bodyUpper⟩
    have range : InRange (spare + message.errInfoLen) := ⟨by omega, sumUpper⟩
    refine ⟨range, ?_⟩
    intro total summed
    rw [checked_some _ range] at summed
    obtain rfl := Option.some.inj summed
    rw [readBody, within_access_bind]
    exact ⟨⟨by omega, by omega, by omega⟩, fun _ _ => within_pure _ _⟩

theorem unless_at_end_within (lo hi pos endIndex : Int) (rest : Traced Access (Option TinyPBProtocol)) :
    Within (Allowed lo hi) (if pos ≥ endIndex then return none else rest) ↔
      (pos < endIndex → Within (Allowed lo hi) rest) := by
  by_cases reached : pos ≥ endIndex
  · rw [if_pos reached]
    exact ⟨fun _ inFront => absurd inFront (Int.not_lt.mpr reached), fun _ => within_pure _ _⟩
  · rw [if_neg reached]
    exact ⟨fun within _ => within, fun within => within (Int.not_le.mp reached)⟩

theorem err_info_within (tmp : Bytes) (lo hi endIndex pos spare : Int) (message : TinyPBProtocol) (lower : 0 ≤ lo)
    (inside : lo ≤ pos) (upper : hi ≤ tmp.length)
    (left : message.pkLength - message.msgIdLen - message.methodNameLen = spare) :
    Within (Allowed lo hi) (tracedErrInfo tmp endIndex message pos) ↔ (pos < endIndex → TextFits tmp hi spare pos) := by
  have body (field : FieldFits tmp hi 512 pos) :
      Within (Allowed lo hi) (tracedPbBody tmp (setErrInfo message ((fieldAt tmp pos).takeWhile (· ≠ 0))) (pos + 4)) ↔
        spare + textLength tmp pos < 2 ^ 31 ∧ 26 ≤ spare + textLength tmp pos ∧
          pos + spare + 2 * textLength tmp pos ≤ hi + 22 := by
    obtain ⟨textLower, width⟩ := text_length_spec tmp hi pos (by omega) upper field message
    have sum := set_err_info_sum message ((fieldAt tmp pos).takeWhile (· ≠ 0))
    rw [left] at sum
    rw [pb_body_within tmp lo hi pos spare _ inside (by rw [width]; exact textLower) sum, width]
  rw [tracedErrInfo, unless_at_end_within]
  apply imp_congr_right
  intro _
  rw [field_within tmp lo hi 512 pos lower inside upper, readText, within_access_bind]
  constructor
  · rintro ⟨field, terminated, within⟩
    obtain ⟨sumUpper, bodyLower, bodyUpper⟩ := (body field).mp (within _ (if_pos terminated))
    exact ⟨field, terminated, sumUpper, bodyLower, bodyUpper⟩
  · rintro ⟨field, terminated, sumUpper, bodyLower, bodyUpper⟩
    refine ⟨field, terminated, ?_⟩
    intro text found
    rw [cString, if_pos terminated] at found
    obtain rfl := Option.some.inj found
    exact (body field).mpr ⟨sumUpper, bodyLower, bodyUpper⟩

theorem err_code_within (tmp : Bytes) (lo hi endIndex pos spare : Int) (message : TinyPBProtocol) (lower : 0 ≤ lo)
    (inside : lo ≤ pos) (upper : hi ≤ tmp.length)
    (left : message.pkLength - message.msgIdLen - message.methodNameLen = spare) :
    Within (Allowed lo hi) (tracedErrCode tmp endIndex message pos) ↔
      (pos < endIndex → ErrCodeFits tmp hi endIndex spare pos) := by
  have text (errCode : Int) :=
    err_info_within tmp lo hi endIndex (pos + 4) spare { message with errCode := errCode } lower (by omega) upper left
  rw [tracedErrCode, unless_at_end_within]
  apply imp_congr_right
  intro _
  rw [readInt32, within_access_bind]
  constructor
  · rintro ⟨⟨_, inFront⟩, within⟩
    exact ⟨inFront, (text _).mp (within _ (net_byte_at tmp pos (by omega) (by omega)))⟩
  · rintro ⟨inFront, textFits⟩
    exact ⟨⟨inside, inFront⟩, fun errCode _ => (text errCode).mpr textFits⟩

theorem method_name_within (tmp : Bytes) (lo hi endIndex pos spare : Int) (message : TinyPBProtocol) (lower : 0 ≤ lo)
    (inside : lo ≤ pos) (upper : hi ≤ tmp.length) (left : message.pkLength - message.msgIdLen = spare) :
    Within (Allowed lo hi) (tracedMethodName tmp endIndex message pos) ↔
      (pos < endIndex → MethodNameFits tmp hi endIndex spare pos) := by
  have errCode (field : FieldFits tmp hi 512 pos) :
      Within (Allowed lo hi)
          (tracedErrCode tmp endIndex (setMethodName message (fieldAt tmp pos)) (pos + 4 + lengthAt tmp pos)) ↔
        (pos + 4 + lengthAt tmp pos < endIndex →
          ErrCodeFits tmp hi endIndex (spare - lengthAt tmp pos) (pos + 4 + lengthAt tmp pos)) := by
    have lengthLower := field.lengthLower
    have lengthUpper := field.lengthUpper
    have width := field_at_length tmp hi 512 pos (by omega) upper field
    have sum := set_method_name_sum message (fieldAt tmp pos)
    rw [left, narrow_length _ (by omega), width] at sum
    exact err_code_within tmp lo hi endIndex _ (spare - lengthAt tmp pos) _ lower (by omega) upper sum
  rw [tracedMethodName, unless_at_end_within]
  apply imp_congr_right
  intro _
  rw [field_within tmp lo hi 512 pos lower inside upper]
  constructor
  · rintro ⟨field, within⟩
    exact ⟨field, (errCode field).mp within⟩
  · rintro ⟨field, rest⟩
    exact ⟨field, (errCode field).mpr rest⟩

theorem msg_id_within (tmp : Bytes) (lo hi endIndex pos : Int) (message : TinyPBProtocol) (lower : 0 ≤ lo)
    (inside : lo ≤ pos) (upper : hi ≤ tmp.length) :
    Within (Allowed lo hi) (tracedMsgId tmp endIndex message pos) ↔
      (pos < endIndex → MsgIdFits tmp hi endIndex message.pkLength pos) := by
  have methodName (field : FieldFits tmp hi 100 pos) :
      Within (Allowed lo hi) (tracedMethodName tmp endIndex
          { message with msgId := fieldAt tmp pos, msgIdLen := lengthAt tmp pos } (pos + 4 + lengthAt tmp pos)) ↔
        (pos + 4 + lengthAt tmp pos < endIndex →
          MethodNameFits tmp hi endIndex (message.pkLength - lengthAt tmp pos) (pos + 4 + lengthAt tmp pos)) := by
    have lengthLower := field.lengthLower
    have sum := with_msg_id_sum message (fieldAt tmp pos) (lengthAt tmp pos)
    exact method_name_within tmp lo hi endIndex _ (message.pkLength - lengthAt tmp pos) _ lower (by omega) upper sum
  rw [tracedMsgId, unless_at_end_within]
  apply imp_congr_right
  intro _
  rw [field_within tmp lo hi 100 pos lower inside upper]
  constructor
  · rintro ⟨field, within⟩
    exact ⟨field, (methodName field).mp within⟩
  · rintro ⟨field, rest⟩
    exact ⟨field, (methodName field).mpr rest⟩

theorem frame_within (tmp : Bytes) (lo hi : Int) (frame : Frame) (lower : 0 ≤ lo) (inside : lo ≤ frame.startIndex)
    (upper : hi ≤ tmp.length) : Within (Allowed lo hi) (tracedFrame tmp frame) ↔ FrameFits tmp hi frame := by
  have position : frame.startIndex + 1 + 4 = frame.startIndex + 5 := by omega
  rw [tracedFrame, position]
  exact msg_id_within tmp lo hi frame.endIndex (frame.startIndex + 5) _ lower (by omega) upper

structure WireFits (buf : TcpBuffer) : Prop where
  scan : ScanFits buf.buffer buf.readIndex buf.writeIndex buf.readIndex
  frame : ∀ frame, NextFrame buf frame → FrameFits buf.buffer buf.writeIndex frame

theorem turn_within (state : DecodeState) (ok : BufferOk state.2) :
    Within (Allowed state.2.readIndex state.2.writeIndex) (tracedTurn state) ↔ WireFits state.2 := by
  obtain ⟨out, buf⟩ := state
  have lower : 0 ≤ buf.readIndex := ok.readLower
  have order : buf.readIndex ≤ buf.writeIndex := ok.ordered
  have upper : buf.writeIndex ≤ buf.buffer.length := ok.vector ▸ ok.writeUpper
  have scanned := scan_within buf.buffer buf.readIndex buf.writeIndex buf.readIndex
    (buf.writeIndex - buf.readIndex).toNat lower (Int.le_refl _) (by omega) upper
  rw [tracedTurn, within_bind, tracedScan, scanned, traced_scan_from_value]
  constructor
  · rintro ⟨scanFits, rest⟩
    refine ⟨scanFits, ?_⟩
    intro frame next
    have within := rest (some frame) ((scan_first_frame _ _ _ frame).mpr next)
    obtain ⟨moved, moves, _⟩ := next_frame_moves buf frame ok next
    rw [within_bind] at within
    have within := within.2 moved moves
    rw [within_bind] at within
    exact (frame_within _ _ _ frame lower next.lower upper).mp within.1
  · rintro ⟨scanFits, frameFits⟩
    refine ⟨scanFits, ?_⟩
    intro found scan
    cases found with
    | none => exact within_pure _ _
    | some frame =>
        have next := (scan_first_frame _ _ _ frame).mp scan
        rw [within_bind]
        refine ⟨within_lift _ _, ?_⟩
        intro moved _
        rw [within_bind]
        refine ⟨(frame_within _ _ _ frame lower next.lower upper).mpr (frameFits frame next), ?_⟩
        intro parsed _
        cases parsed with
        | none => exact within_pure _ _
        | some message => exact within_pure _ _

-- Every iteration reads in the region that was readable when it began.
def InBounds (state : DecodeState) : Prop :=
  ∀ later, Reaches (fun current => (tracedTurn current).value) state later →
    Within (Allowed later.2.readIndex later.2.writeIndex) (tracedTurn later)

theorem decode_in_bounds_iff (out : List TinyPBProtocol) (buf : TcpBuffer) (ok : BufferOk buf) :
    InBounds (out, buf) ↔ ∀ later, Reaches decodeTurn (out, buf) later → WireFits later.2 := by
  have same : (fun current => (tracedTurn current).value) = decodeTurn := funext traced_turn_value
  rw [InBounds, same]
  constructor
  · intro within later reached
    exact (turn_within later (decode_reaches_ok _ later ok reached)).mp (within later reached)
  · intro fits later reached
    exact (turn_within later (decode_reaches_ok _ later ok reached)).mpr (fits later reached)

theorem ping_in_bounds : BufferOk pingBuffer ∧ InBounds ([], pingBuffer) := by
  have ok : BufferOk pingBuffer := by decide +kernel
  refine ⟨ok, (decode_in_bounds_iff [] pingBuffer ok).mpr ?_⟩
  intro later reached
  have laterOk : BufferOk later.2 := decode_reaches_ok _ later ok reached
  apply (turn_within later laterOk).mp
  obtain rfl | rfl := ping_reaches later reached
  · decide +kernel
  · decide +kernel

-- A start byte with the length -1: the candidate end is read two bytes before it.
def negativeBuffer : TcpBuffer := ⟨0, 5, 128, [0x02, 0xFF, 0xFF, 0xFF, 0xFF] ++ List.replicate 123 0⟩

-- The frame of a message with the error text "abc" and nothing behind it.
def errorTextBuffer : TcpBuffer :=
  ⟨0, 31, 128, frameBytes { msgId := [0x31], methodName := [0x41], errCode := 1, errInfo := [0x61, 0x62, 0x63] } 31
    ++ List.replicate 97 0⟩

theorem negative_length_diverges :
    BufferOk negativeBuffer ∧ ¬ InBounds ([], negativeBuffer) ∧ BufferOk errorTextBuffer ∧
      ¬ InBounds ([], errorTextBuffer) := by
  refine ⟨by decide +kernel, ?_, by decide +kernel, ?_⟩
  · intro inBounds
    have within := inBounds _ (reaches_refl _ _)
    revert within
    decide +kernel
  · intro inBounds
    have within := inBounds _ (reaches_refl _ _)
    revert within
    decide +kernel

end Rocket
