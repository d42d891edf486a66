import Rocket.InputPath
import Rocket.TinyPBProtocol

set_option autoImplicit false

namespace Rocket

open Memory Word32

-- The growth step of writeToBuffer, before the copy.
def growStep (buf : TcpBuffer) (count : Int) : Option TcpBuffer :=
  if count > writeAble buf then (growSize buf).bind (resizeBuffer buf) else some buf

theorem write_after_growth (buf : TcpBuffer) (data : Bytes) :
    writeToBuffer buf data = (growStep buf data.length).bind fun wide =>
      (blit wide.buffer wide.writeIndex data).bind fun cells =>
        some { wide with writeIndex := wide.writeIndex + data.length, buffer := cells } := by
  rw [growStep]
  by_cases full : (data.length : Int) > writeAble buf
  · simp only [writeToBuffer, Option.bind_eq_bind, if_pos full]
  · simp only [writeToBuffer, Option.bind_eq_bind, if_neg full]

structure RoomMade (buf : TcpBuffer) (data : Bytes) (wide next : TcpBuffer) : Prop where
  grown : growStep buf data.length = some wide
  room : wide.writeIndex + data.length ≤ wide.buffer.length
  written : writeToBuffer buf data = some next
  inside : next.writeIndex ≤ next.size
  vector : next.size = next.buffer.length

def MakesRoom (buf : TcpBuffer) (data : Bytes) : Prop := ∃ wide next, RoomMade buf data wide next

-- One and a half times the old size and write index, whatever is to be copied.
def Enough (buf : TcpBuffer) (count : Int) : Prop :=
  count ≤ buf.size - buf.writeIndex ∨ buf.writeIndex - buf.readIndex + count ≤ 3 * (buf.size + buf.writeIndex) / 2

theorem fits_iff_enough (buf : TcpBuffer) (count : Int) (ok : BufferOk buf) (small : buf.size < 2 ^ 29) :
    Fits buf count ↔ Enough buf count := by
  have readLower := ok.readLower
  have order := ok.ordered
  have upper := ok.writeUpper
  have grown : growSize buf = some (3 * (buf.size + buf.writeIndex) / 2) := by
    rw [growSize, checked_some _ ⟨by omega, by omega⟩, Option.bind_eq_bind, Option.bind_some,
      Int.tdiv_eq_ediv_of_nonneg (by omega), checked_some _ ⟨by omega, by omega⟩]
  rw [Fits, Enough, writeAble, readAble, grown]
  constructor
  · rintro (room | ⟨newSize, same, enough⟩)
    · exact Or.inl room
    · obtain rfl := Option.some.inj same
      exact Or.inr enough
  · rintro (room | enough)
    · exact Or.inl room
    · exact Or.inr ⟨_, rfl, enough⟩

theorem grow_step_room (buf : TcpBuffer) (count : Int) (ok : BufferOk buf) (fits : Fits buf count) :
    ∃ wide, growStep buf count = some wide ∧ wide.writeIndex + count ≤ wide.buffer.length := by
  by_cases full : count > writeAble buf
  · obtain room | ⟨newSize, grown, enough⟩ := fits
    · omega
    · obtain ⟨keeps, small⟩ := grow_size_bounds buf newSize ok grown
      obtain ⟨wide, resized, wideOk, _, width, start⟩ := resize_buffer_spec buf newSize ok keeps small
      refine ⟨wide, ?_, ?_⟩
      · rw [growStep, if_pos full, grown]
        exact resized
      · rw [start, ← wideOk.vector, width]
        exact enough
  · refine ⟨buf, if_neg full, ?_⟩
    rw [writeAble] at full
    rw [← ok.vector]
    omega

theorem makes_room_iff (buf : TcpBuffer) (data : Bytes) (ok : BufferOk buf) (small : buf.size < 2 ^ 29) :
    MakesRoom buf data ↔ Enough buf data.length := by
  rw [← fits_iff_enough buf data.length ok small]
  constructor
  · rintro ⟨wide, next, made⟩
    by_contra tooLong
    have overrun := write_to_buffer_overrun buf data ok tooLong
    cases overrun.symm.trans made.written
  · intro fits
    obtain ⟨wide, grown, room⟩ := grow_step_room buf data.length ok fits
    obtain ⟨next, written, nextOk, _⟩ := write_to_buffer_spec buf data ok fits
    exact ⟨wide, next, grown, room, written, nextOk.writeUpper, nextOk.vector⟩

def freshBuffer : TcpBuffer := ⟨0, 0, 128, List.replicate 128 0⟩

theorem grown_makes_room : BufferOk freshBuffer ∧ MakesRoom freshBuffer (List.replicate 150 7) := by
  have ok : BufferOk freshBuffer := by decide +kernel
  refine ⟨ok, (makes_room_iff freshBuffer (List.replicate 150 7) ok (by decide)).mpr ?_⟩
  exact Or.inr (by decide +kernel)

-- A reply with a body of 200 bytes; the growth step makes a vector of 192.
def longReply : TinyPBProtocol := { msgId := [0x31], methodName := [0x41], pbBody := List.replicate 200 0x61 }

theorem long_reply_diverges :
    newTcpBuffer 128 = some freshBuffer ∧ encodedBytes [longReply] = some (frameBytes longReply 228) ∧
      growStep freshBuffer 228 = some ⟨0, 0, 192, List.replicate 192 0⟩ ∧
      ¬ MakesRoom freshBuffer (frameBytes longReply 228) := by
  refine ⟨by decide +kernel, by decide +kernel, by decide +kernel, ?_⟩
  rintro ⟨wide, next, made⟩
  have overrun : writeToBuffer freshBuffer (frameBytes longReply 228) = none := by decide +kernel
  cases overrun.symm.trans made.written

theorem move_read_index_end (buf : TcpBuffer) (count : Int) (ok : BufferOk buf) (full : buf.readIndex + count = buf.size) :
    moveReadIndex buf count = some buf := by
  have fits := ok.fitsInt
  have lower := ok.readLower
  have order := ok.ordered
  have upper := ok.writeUpper
  rw [move_read_index_checked buf count ⟨by omega, by omega⟩, full, to_size_t_small _ (by omega) fits]
  exact if_pos (Int.le_of_eq ok.vector.symm)

structure SameRead (buf moved : TcpBuffer) (count : Int) (read : TcpBuffer × Bytes) (readBuf : Bytes) : Prop where
  moves : moveReadIndex buf count = some moved
  reads : readFromBuffer buf readBuf count = some read
  dropped : readable moved = (readable buf).drop count.toNat
  same : readable moved = readable read.1

def ReadAgrees (buf : TcpBuffer) (count : Int) (readBuf : Bytes) : Prop :=
  ∃ moved read, SameRead buf moved count read readBuf

structure SameWrite (buf : TcpBuffer) (data cells : Bytes) (moved written : TcpBuffer) : Prop where
  placed : blit buf.buffer buf.writeIndex data = some cells
  moves : moveWriteIndex { buf with buffer := cells } data.length = some moved
  writes : writeToBuffer buf data = some written
  appended : readable moved = readable buf ++ data
  same : readable moved = readable written

def WriteAgrees (buf : TcpBuffer) (data : Bytes) : Prop := ∃ cells moved written, SameWrite buf data cells moved written

theorem read_agrees_iff (buf : TcpBuffer) (count : Int) (readBuf : Bytes) (ok : BufferOk buf) (lower : 0 ≤ count)
    (upper : count ≤ readAble buf) :
    ReadAgrees buf count readBuf ↔ count = 0 ∨ buf.readIndex + count < buf.size := by
  obtain ⟨next, reads, nextOk, content⟩ := read_from_buffer_spec buf readBuf count ok lower
  have total := readable_length buf ok
  have writeUpper := ok.writeUpper
  by_cases inside : buf.readIndex + count < buf.size
  · obtain ⟨moved, moves, _, dropped, _, _⟩ := move_read_index_spec buf count ok lower upper inside
    exact ⟨fun _ => Or.inr inside, fun _ => ⟨moved, _, moves, reads, dropped, dropped.trans content.symm⟩⟩
  · have full : buf.readIndex + count = buf.size := by
      rw [readAble] at upper
      omega
    have stays := move_read_index_end buf count ok full
    constructor
    · rintro ⟨moved, read, agree⟩
      cases stays.symm.trans agree.moves
      have shorter := congrArg List.length agree.dropped
      rw [List.length_drop] at shorter
      omega
    · rintro (rfl | wrong)
      · exact ⟨buf, _, stays, reads, rfl, by rw [content]; rfl⟩
      · exact absurd wrong inside

theorem write_agrees_iff (buf : TcpBuffer) (data : Bytes) (ok : BufferOk buf) (room : data.length ≤ writeAble buf) :
    WriteAgrees buf data ↔ data = [] ∨ buf.writeIndex + data.length < buf.size := by
  obtain ⟨written, writes, _, content, _, _⟩ := write_to_buffer_room buf data ok room
  obtain ⟨cells, moved, placed, moves, _, whenFull, whenShort⟩ := read_data_spec buf data ok room
  by_cases inside : buf.writeIndex + data.length < buf.size
  · have appended := whenShort (by rw [writeAble]; omega)
    exact ⟨fun _ => Or.inr inside, fun _ => ⟨cells, moved, written, placed, moves, writes, appended,
      appended.trans content.symm⟩⟩
  · obtain ⟨kept, _⟩ := whenFull (by rw [writeAble] at room ⊢; omega)
    constructor
    · rintro ⟨otherCells, other, _, agree⟩
      cases placed.symm.trans agree.placed
      cases moves.symm.trans agree.moves
      have nothing := kept.symm.trans agree.appended
      exact Or.inl (List.self_eq_append_right.mp nothing)
    · rintro (rfl | wrong)
      · exact ⟨cells, moved, written, placed, moves, writes, by rw [kept, List.append_nil], by
          rw [kept, content, List.append_nil]⟩
      · exact absurd wrong inside

theorem index_moves_agree_iff (buf : TcpBuffer) (readBuf : Bytes) (ok : BufferOk buf) :
    (∀ count, 0 ≤ count → count ≤ readAble buf →
      (ReadAgrees buf count readBuf ↔ count = 0 ∨ buf.readIndex + count < buf.size)) ∧
      ∀ data : Bytes, data.length ≤ writeAble buf →
        (WriteAgrees buf data ↔ data = [] ∨ buf.writeIndex + data.length < buf.size) := by
  constructor
  · intro count lower upper
    exact read_agrees_iff buf count readBuf ok lower upper
  · intro data room
    exact write_agrees_iff buf data ok room

-- Three bytes in the middle of a vector of eight.
def middleBuffer : TcpBuffer := ⟨1, 4, 8, [0, 5, 6, 7, 0, 0, 0, 0]⟩

theorem middle_moves_agree :
    BufferOk middleBuffer ∧ ReadAgrees middleBuffer 2 [] ∧ WriteAgrees middleBuffer [8, 9] := by
  have ok : BufferOk middleBuffer := by decide
  obtain ⟨reads, writes⟩ := index_moves_agree_iff middleBuffer [] ok
  refine ⟨ok, ?_, ?_⟩
  · apply (reads 2 (by decide) (by decide)).mpr
    exact Or.inr (by decide)
  · apply (writes [8, 9] (by decide)).mpr
    exact Or.inr (by decide)

-- Two bytes at the end of a vector of four, and two free cells there.
def fullBuffer : TcpBuffer := ⟨2, 4, 4, [0, 0, 7, 8]⟩

def halfBuffer : TcpBuffer := ⟨0, 2, 4, [5, 6, 0, 0]⟩

theorem end_of_vector_diverges :
    BufferOk fullBuffer ∧ ¬ ReadAgrees fullBuffer 2 [] ∧ BufferOk halfBuffer ∧ ¬ WriteAgrees halfBuffer [7, 8] := by
  refine ⟨by decide, ?_, by decide, ?_⟩
  · rintro ⟨moved, read, agree⟩
    have stays : moveReadIndex fullBuffer 2 = some fullBuffer := by decide
    cases stays.symm.trans agree.moves
    have dropped := agree.dropped
    revert dropped
    decide
  · rintro ⟨cells, moved, written, agree⟩
    have placed : blit halfBuffer.buffer halfBuffer.writeIndex [7, 8] = some [5, 6, 7, 8] := by decide
    cases placed.symm.trans agree.placed
    have stays : moveWriteIndex { halfBuffer with buffer := [5, 6, 7, 8] } 2 = some ⟨0, 2, 4, [5, 6, 7, 8]⟩ := by decide
    cases stays.symm.trans agree.moves
    have appended := agree.appended
    revert appended
    decide

end Rocket
