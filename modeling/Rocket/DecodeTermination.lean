import Rocket.FrameScan

set_option autoImplicit false

namespace Rocket

open Memory Word32 WhileLoop

-- The frame that the next iteration of decode accepts.
def NextFrame (buf : TcpBuffer) (frame : Frame) : Prop :=
  FirstFrame buf.buffer buf.readIndex buf.writeIndex frame

theorem move_read_index_any (buf : TcpBuffer) (count : Int) (ok : BufferOk buf) (range : InRange (buf.readIndex + count))
    (upper : count ≤ readAble buf) :
    ∃ next, moveReadIndex buf count = some next ∧ BufferOk next ∧
      (readAble next < readAble buf ↔ 1 ≤ count ∧ buf.readIndex + count < buf.size) := by
  obtain ⟨rangeLower, rangeUpper⟩ := range
  have readLower := ok.readLower
  have order := ok.ordered
  have writeUpper := ok.writeUpper
  have vector := ok.vector
  rw [readAble] at upper
  rw [move_read_index_checked buf count ⟨rangeLower, rangeUpper⟩]
  by_cases negative : buf.readIndex + count < 0
  -- A negative index is a huge size_t and leaves the buffer as it is.
  · have huge : toSizeT (buf.readIndex + count) ≥ buf.buffer.length := by
      have fits := ok.fitsInt
      rw [toSizeT]
      omega
    rw [if_pos huge]
    exact ⟨buf, rfl, ok, by omega⟩
  · have index : toSizeT (buf.readIndex + count) = buf.readIndex + count :=
      to_size_t_small _ (by omega) rangeUpper
    rw [index]
    by_cases atEnd : buf.readIndex + count ≥ buf.buffer.length
    · rw [if_pos atEnd]
      exact ⟨buf, rfl, ok, by omega⟩
    · have movedOk : BufferOk { buf with readIndex := buf.readIndex + count } :=
        ⟨by simp only; omega, by simp only; omega, writeUpper, vector, ok.fitsInt⟩
      obtain ⟨next, adjusted, nextOk, content, _, _⟩ := adjust_buffer_spec _ movedOk
      rw [if_neg atEnd]
      refine ⟨next, adjusted, nextOk, ?_⟩
      have left := readable_length next nextOk
      rw [content, readable_length _ movedOk] at left
      simp only [readAble] at left ⊢
      omega

theorem next_frame_moves (buf : TcpBuffer) (frame : Frame) (ok : BufferOk buf) (next : NextFrame buf frame) :
    ∃ moved, moveReadIndex buf (frame.endIndex - frame.startIndex + 1) = some moved ∧ BufferOk moved ∧
      (readAble moved < readAble buf ↔ 1 ≤ frame.pkLen ∧ buf.readIndex + frame.pkLen < buf.size) := by
  obtain ⟨_, _, length, sumRange, _, endIndex, before, _⟩ := next.isFrame
  have lower := next.lower
  have readLower := ok.readLower
  have pkLen : frame.endIndex - frame.startIndex + 1 = frame.pkLen := by omega
  rw [pkLen]
  apply move_read_index_any buf frame.pkLen ok
  · obtain ⟨lengthLower, lengthUpper⟩ := net_byte_range _ _ _ length
    obtain ⟨_, sumUpper⟩ := sumRange
    exact ⟨by omega, by omega⟩
  · rw [readAble]
    omega

theorem decode_turn_next (out later : List TinyPBProtocol) (buf moved : TcpBuffer)
    (turn : decodeTurn (out, buf) = some (.next (later, moved))) :
    ∃ frame, NextFrame buf frame ∧ moveReadIndex buf (frame.endIndex - frame.startIndex + 1) = some moved := by
  simp only [decodeTurn, Option.bind_eq_bind, Option.bind_eq_some_iff] at turn
  obtain ⟨found, scanned, turn⟩ := turn
  cases found with
  | none => cases turn
  | some frame =>
      simp only [Option.bind_eq_some_iff] at turn
      obtain ⟨next, moves, parsed, _, turn⟩ := turn
      refine ⟨frame, (scan_first_frame _ _ _ frame).mp scanned, ?_⟩
      cases parsed with
      | none =>
          cases turn
          exact moves
      | some message =>
          cases turn
          exact moves

theorem decode_turn_ok (state later : DecodeState) (ok : BufferOk state.2)
    (turn : decodeTurn state = some (.next later)) : BufferOk later.2 := by
  obtain ⟨frame, next, moves⟩ := decode_turn_next state.1 later.1 state.2 later.2 turn
  obtain ⟨moved, movesTo, movedOk, _⟩ := next_frame_moves state.2 frame ok next
  cases movesTo.symm.trans moves
  exact movedOk

theorem decode_reaches_ok (state later : DecodeState) (ok : BufferOk state.2) (reached : Reaches decodeTurn state later) :
    BufferOk later.2 :=
  reaches_inv decodeTurn (fun current => BufferOk current.2) decode_turn_ok state later ok reached

def Shrinks (buf : TcpBuffer) : Prop :=
  ∀ frame, NextFrame buf frame →
    ∃ moved, moveReadIndex buf (frame.endIndex - frame.startIndex + 1) = some moved ∧ readAble moved < readAble buf

-- An iteration that reads outside the vector has no value; it counts as the
-- last one here.
structure Terminates (state : DecodeState) : Prop where
  finitely : Ends decodeTurn state
  shrinks : ∀ later, Reaches decodeTurn state later → Shrinks later.2

def Advances (buf : TcpBuffer) : Prop :=
  ∀ frame, NextFrame buf frame → 1 ≤ frame.pkLen ∧ buf.readIndex + frame.pkLen < buf.size

instance (buf : TcpBuffer) : Decidable (Advances buf) :=
  decidable_of_iff
    (∀ frame ∈ (scan buf.buffer buf.readIndex buf.writeIndex).getD none,
      1 ≤ frame.pkLen ∧ buf.readIndex + frame.pkLen < buf.size)
    ⟨fun accepted frame next => accepted frame (by rw [(scan_first_frame _ _ _ frame).mpr next]; rfl),
      fun advances frame found => advances frame ((scan_first_frame _ _ _ frame).mp (by
        cases scanned : scan buf.buffer buf.readIndex buf.writeIndex with
        | none => rw [scanned] at found; cases found
        | some result => rw [scanned] at found; exact congrArg some found))⟩

def FramesAdvance (state : DecodeState) : Prop := ∀ later, Reaches decodeTurn state later → Advances later.2

theorem shrinks_iff_advances (buf : TcpBuffer) (ok : BufferOk buf) : Shrinks buf ↔ Advances buf := by
  constructor
  · intro shrinks frame next
    obtain ⟨moved, movesTo, _, exactly⟩ := next_frame_moves buf frame ok next
    obtain ⟨other, same, less⟩ := shrinks frame next
    cases movesTo.symm.trans same
    exact exactly.mp less
  · intro advances frame next
    obtain ⟨moved, movesTo, _, exactly⟩ := next_frame_moves buf frame ok next
    exact ⟨moved, movesTo, exactly.mpr (advances frame next)⟩

theorem advancing_turn_decreases (state later : DecodeState) (inv : BufferOk state.2 ∧ FramesAdvance state)
    (turn : decodeTurn state = some (.next later)) :
    (BufferOk later.2 ∧ FramesAdvance later) ∧ (readAble later.2).toNat < (readAble state.2).toNat := by
  obtain ⟨ok, advance⟩ := inv
  obtain ⟨frame, next, moves⟩ := decode_turn_next state.1 later.1 state.2 later.2 turn
  obtain ⟨moved, movesTo, movedOk, exactly⟩ := next_frame_moves state.2 frame ok next
  cases movesTo.symm.trans moves
  constructor
  · exact ⟨movedOk, fun further reached => advance further (reaches_next decodeTurn state later further turn reached)⟩
  · have less := exactly.mpr (advance state (reaches_refl decodeTurn state) frame next)
    have order := movedOk.ordered
    have left : readAble later.2 = later.2.writeIndex - later.2.readIndex := rfl
    omega

theorem advancing_ends (state : DecodeState) (ok : BufferOk state.2) (advance : FramesAdvance state) :
    Ends decodeTurn state :=
  ends_of_measure decodeTurn (fun current => (readAble current.2).toNat)
    (fun current => BufferOk current.2 ∧ FramesAdvance current) advancing_turn_decreases state ⟨ok, advance⟩

theorem decode_terminates_iff (out : List TinyPBProtocol) (buf : TcpBuffer) (ok : BufferOk buf) :
    Terminates (out, buf) ↔ FramesAdvance (out, buf) := by
  constructor
  · intro terminates later reached
    exact (shrinks_iff_advances later.2 (decode_reaches_ok _ later ok reached)).mp (terminates.shrinks later reached)
  · intro advance
    constructor
    · exact advancing_ends (out, buf) ok advance
    · intro later reached
      exact (shrinks_iff_advances later.2 (decode_reaches_ok _ later ok reached)).mpr (advance later reached)

theorem advancing_returns (out : List TinyPBProtocol) (buf : TcpBuffer) (ok : BufferOk buf)
    (advance : FramesAdvance (out, buf))
    (defined : ∀ later, Reaches decodeTurn (out, buf) later → decodeTurn later ≠ none) :
    ∃ result, Decodes out buf result :=
  ends_returns decodeTurn (out, buf) (advancing_ends (out, buf) ok advance) defined

def pingMessage : TinyPBProtocol :=
  { msgId := [0x31], pkLength := 28, msgIdLen := 1, methodNameLen := 1, methodName := [0x41], paraseSuccess := true }

def pingBuffer : TcpBuffer := ⟨0, 28, 128, frameBytes pingMessage 28 ++ List.replicate 100 0⟩

theorem ping_reaches (later : DecodeState) (reached : Reaches decodeTurn ([], pingBuffer) later) :
    later = ([], pingBuffer) ∨ later = ([pingMessage], { pingBuffer with readIndex := 28 }) := by
  have turn : decodeTurn ([], pingBuffer) = some (.next ([pingMessage], { pingBuffer with readIndex := 28 })) := by
    decide +kernel
  have stops : decodeTurn ([pingMessage], { pingBuffer with readIndex := 28 }) =
      some (.stop ([pingMessage], { pingBuffer with readIndex := 28 })) := by
    decide +kernel
  obtain same | ⟨middle, goesOn, rest⟩ := reaches_cases decodeTurn _ later reached
  · exact Or.inl same
  · cases turn.symm.trans goesOn
    obtain same | ⟨further, goesOn, _⟩ := reaches_cases decodeTurn _ later rest
    · exact Or.inr same
    · cases stops.symm.trans goesOn

theorem ping_terminates : BufferOk pingBuffer ∧ Terminates ([], pingBuffer) := by
  have ok : BufferOk pingBuffer := by decide +kernel
  refine ⟨ok, (decode_terminates_iff [] pingBuffer ok).mpr ?_⟩
  intro later reached
  obtain rfl | rfl := ping_reaches later reached
  · show Advances pingBuffer
    decide +kernel
  · show Advances { pingBuffer with readIndex := 28 }
    decide +kernel

-- A start byte behind a stray PB_END, with a length field of 0.
def zeroLength : Bytes := [0x03, 0x02, 0x00, 0x00, 0x00, 0x00]

def zeroLengthBuffer : TcpBuffer := ⟨0, 6, 128, zeroLength ++ List.replicate 122 0⟩

theorem zero_length_diverges :
    ((newTcpBuffer 128).bind fun buf => writeToBuffer buf zeroLength) = some zeroLengthBuffer ∧
      BufferOk zeroLengthBuffer ∧ ¬ Terminates ([], zeroLengthBuffer) := by
  refine ⟨by decide +kernel, by decide +kernel, ?_⟩
  intro terminates
  apply repeating_never_ends decodeTurn ([], zeroLengthBuffer)
  · decide +kernel
  · exact terminates.finitely

end Rocket
