import Rocket.Lib.Memory
import Rocket.Lib.Word32

set_option autoImplicit false

namespace Rocket

open Memory Word32

-- The indices are C++ ints. Nothing in the class keeps them ordered, so the
-- record admits every value and BufferOk is a separate statement.
structure TcpBuffer where
  readIndex : Int
  writeIndex : Int
  size : Int
  buffer : Bytes
deriving DecidableEq, Repr

-- std::vector<char>(n) is zero-filled and throws when n, read as a size_t, is
-- too large; a throw and undefined behaviour are both a missing value here.
def newVector (count : Int) : Option Bytes :=
  if 0 ≤ count then some (List.replicate count.toNat 0) else none

def newTcpBuffer (size : Int) : Option TcpBuffer := do
  let cells ← newVector size
  some ⟨0, 0, size, cells⟩

def readAble (buf : TcpBuffer) : Int := buf.writeIndex - buf.readIndex

def writeAble (buf : TcpBuffer) : Int := buf.size - buf.writeIndex

def resizeBuffer (buf : TcpBuffer) (newSize : Int) : Option TcpBuffer := do
  let tmp ← newVector newSize
  let count := min newSize (readAble buf)
  let kept ← slice buf.buffer buf.readIndex count
  let cells ← blit tmp 0 kept
  some ⟨0, count, newSize, cells⟩

def adjustBuffer (buf : TcpBuffer) : Option TcpBuffer :=
  if buf.readIndex < (buf.buffer.length / 3 : Nat) then some buf
  else do
    let count := readAble buf
    let cells ← if count > 0 then (slice buf.buffer buf.readIndex count).bind (blit buf.buffer 0) else some buf.buffer
    some { buf with readIndex := 0, writeIndex := count, buffer := cells }

-- (int)(1.5 * (m_size + m_write_index)): the sum is an int, the product is an
-- exact double, and the cast truncates towards zero.
def growSize (buf : TcpBuffer) : Option Int := do
  let sum ← checked (buf.size + buf.writeIndex)
  checked ((3 * sum).tdiv 2)

def writeToBuffer (buf : TcpBuffer) (data : Bytes) : Option TcpBuffer := do
  let buf ← if (data.length : Int) > writeAble buf then (growSize buf).bind (resizeBuffer buf) else some buf
  let cells ← blit buf.buffer buf.writeIndex data
  some { buf with writeIndex := buf.writeIndex + data.length, buffer := cells }

-- swap leaves the bytes that were read in the vector of the caller.
def readFromBuffer (buf : TcpBuffer) (readBuf : Bytes) (size : Int) : Option (TcpBuffer × Bytes) :=
  if readAble buf = 0 then some (buf, readBuf)
  else do
    let readSize := if readAble buf > size then size else readAble buf
    let tmp ← newVector readSize
    let data ← slice buf.buffer buf.readIndex readSize
    let filled ← blit tmp 0 data
    let next ← adjustBuffer { buf with readIndex := buf.readIndex + readSize }
    some (next, filled)

def toSizeT (value : Int) : Int := value % 2 ^ 64

def moveReadIndex (buf : TcpBuffer) (size : Int) : Option TcpBuffer := do
  let sum ← checked (buf.readIndex + size)
  let newSize := toSizeT sum
  if newSize ≥ buf.buffer.length then some buf
  else adjustBuffer { buf with readIndex := newSize }

def moveWriteIndex (buf : TcpBuffer) (size : Int) : Option TcpBuffer := do
  let sum ← checked (buf.writeIndex + size)
  let newSize := toSizeT sum
  if newSize ≥ buf.buffer.length then some buf
  else adjustBuffer { buf with writeIndex := newSize }

def readable (buf : TcpBuffer) : Bytes := window buf.buffer buf.readIndex buf.writeIndex

structure BufferOk (buf : TcpBuffer) : Prop where
  readLower : 0 ≤ buf.readIndex
  ordered : buf.readIndex ≤ buf.writeIndex
  writeUpper : buf.writeIndex ≤ buf.size
  vector : buf.size = buf.buffer.length
  fitsInt : buf.size < 2 ^ 31

instance (buf : TcpBuffer) : Decidable (BufferOk buf) :=
  decidable_of_iff (0 ≤ buf.readIndex ∧ buf.readIndex ≤ buf.writeIndex ∧ buf.writeIndex ≤ buf.size ∧
      buf.size = buf.buffer.length ∧ buf.size < 2 ^ 31)
    ⟨fun ⟨lower, order, upper, vector, fits⟩ => ⟨lower, order, upper, vector, fits⟩,
      fun ok => ⟨ok.readLower, ok.ordered, ok.writeUpper, ok.vector, ok.fitsInt⟩⟩

theorem new_vector_some (count : Int) (cells : Bytes) (made : newVector count = some cells) :
    0 ≤ count ∧ (cells.length : Int) = count := by
  rw [newVector] at made
  split at made
  · cases made
    simp only [List.length_replicate]
    omega
  · cases made

theorem new_tcp_buffer_ok (size : Int) (buf : TcpBuffer) (fits : size < 2 ^ 31) (made : newTcpBuffer size = some buf) :
    BufferOk buf ∧ readable buf = [] := by
  simp only [newTcpBuffer, Option.bind_eq_bind, Option.bind_eq_some_iff] at made
  obtain ⟨cells, vector, same⟩ := made
  obtain ⟨lower, width⟩ := new_vector_some size cells vector
  cases same
  exact ⟨⟨Int.le_refl 0, Int.le_refl 0, lower, width.symm, fits⟩, window_empty cells 0⟩

theorem new_tcp_buffer_made (size : Int) (lower : 0 ≤ size) : ∃ buf, newTcpBuffer size = some buf := by
  rw [newTcpBuffer, newVector, if_pos lower]
  exact ⟨_, rfl⟩

theorem readable_holds (buf : TcpBuffer) (content : Bytes) (ok : BufferOk buf) (same : readable buf = content) :
    Holds buf.buffer buf.readIndex buf.writeIndex content :=
  ⟨ok.readLower, ok.ordered, ok.vector ▸ ok.writeUpper, same⟩

theorem readable_length (buf : TcpBuffer) (ok : BufferOk buf) : ((readable buf).length : Int) = readAble buf :=
  window_length _ _ _ ok.readLower ok.ordered (ok.vector ▸ ok.writeUpper)

theorem readable_slice (buf : TcpBuffer) (ok : BufferOk buf) :
    slice buf.buffer buf.readIndex (readAble buf) = some (readable buf) :=
  slice_window _ _ _ ok.readLower ok.ordered (ok.vector ▸ ok.writeUpper)

theorem readable_empty (buf : TcpBuffer) (ok : BufferOk buf) : readable buf = [] ↔ readAble buf = 0 := by
  rw [← List.length_eq_zero_iff]
  have total := readable_length buf ok
  omega

theorem adjust_buffer_spec (buf : TcpBuffer) (ok : BufferOk buf) :
    ∃ next, adjustBuffer buf = some next ∧ BufferOk next ∧ readable next = readable buf ∧
      next.size = buf.size ∧ next.writeIndex ≤ buf.writeIndex := by
  have lower := ok.readLower
  have order := ok.ordered
  have upper := ok.writeUpper
  have count : readAble buf = buf.writeIndex - buf.readIndex := rfl
  by_cases early : buf.readIndex < (buf.buffer.length / 3 : Nat)
  · exact ⟨buf, if_pos early, ok, rfl, rfl, Int.le_refl _⟩
  · have total := readable_length buf ok
    by_cases nonempty : readAble buf > 0
    · have room : (0 : Int) + (readable buf).length ≤ buf.buffer.length := by
        have vector := ok.vector
        omega
      obtain ⟨cells, moved⟩ : ∃ cells, blit buf.buffer 0 (readable buf) = some cells :=
        ⟨_, blit_some buf.buffer (readable buf) 0 (Int.le_refl 0) room⟩
      refine ⟨{ buf with readIndex := 0, writeIndex := readAble buf, buffer := cells }, ?_,
        ⟨Int.le_refl 0, Int.le_of_lt nonempty, by simp only; omega, ?_, ok.fitsInt⟩, ?_, rfl, by simp only; omega⟩
      · rw [adjustBuffer, if_neg early, if_pos nonempty, readable_slice buf ok, Option.bind_some, moved]
        rfl
      · rw [blit_length _ _ _ _ moved, ← ok.vector]
      · simpa only [readable, ← total] using window_blit_start _ _ _ moved
    · have empty : readAble buf = 0 := by omega
      refine ⟨{ buf with readIndex := 0, writeIndex := readAble buf }, ?_,
        ⟨Int.le_refl 0, by simp only; omega, by simp only; omega, ok.vector, ok.fitsInt⟩, ?_, rfl, by simp only; omega⟩
      · rw [adjustBuffer, if_neg early, if_neg nonempty]
        rfl
      · rw [(readable_empty buf ok).mpr empty]
        simp only [readable, empty, window_empty]

theorem to_size_t_small (value : Int) (lower : 0 ≤ value) (upper : value < 2 ^ 31) : toSizeT value = value :=
  Int.emod_eq_of_lt lower (by omega)

theorem advance_read_spec (buf : TcpBuffer) (count : Int) (ok : BufferOk buf) (lower : 0 ≤ count)
    (upper : count ≤ readAble buf) :
    BufferOk { buf with readIndex := buf.readIndex + count } ∧
      readable { buf with readIndex := buf.readIndex + count } = (readable buf).drop count.toNat ∧
      slice buf.buffer buf.readIndex count = some ((readable buf).take count.toNat) := by
  have readLower := ok.readLower
  have vector := ok.vector
  have writeUpper := ok.writeUpper
  rw [readAble] at upper
  have left := window_length buf.buffer buf.readIndex (buf.readIndex + count) readLower (by omega) (by omega)
  have cut : count.toNat = (window buf.buffer buf.readIndex (buf.readIndex + count)).length := by omega
  have split := window_split buf.buffer buf.readIndex (buf.readIndex + count) buf.writeIndex readLower (by omega) (by omega)
  refine ⟨⟨by simp only; omega, by simp only; omega, writeUpper, vector, ok.fitsInt⟩, ?_, ?_⟩
  · simp only [readable]
    rw [split, cut, List.drop_left]
  · have front := slice_window buf.buffer buf.readIndex (buf.readIndex + count) readLower (by omega) (by omega)
    rw [show buf.readIndex + count - buf.readIndex = count by omega] at front
    rw [front, readable, split, cut, List.take_left]

theorem move_read_index_checked (buf : TcpBuffer) (count : Int) (range : InRange (buf.readIndex + count)) :
    moveReadIndex buf count = if toSizeT (buf.readIndex + count) ≥ buf.buffer.length then some buf
      else adjustBuffer { buf with readIndex := toSizeT (buf.readIndex + count) } := by
  rw [moveReadIndex, checked_some _ range]
  rfl

theorem move_read_index_spec (buf : TcpBuffer) (count : Int) (ok : BufferOk buf) (lower : 0 ≤ count)
    (upper : count ≤ readAble buf) (inside : buf.readIndex + count < buf.size) :
    ∃ next, moveReadIndex buf count = some next ∧ BufferOk next ∧ readable next = (readable buf).drop count.toNat ∧
      next.size = buf.size ∧ next.writeIndex ≤ buf.writeIndex := by
  have readLower := ok.readLower
  have fits := ok.fitsInt
  have index : toSizeT (buf.readIndex + count) = buf.readIndex + count := to_size_t_small _ (by omega) (by omega)
  obtain ⟨movedOk, left, _⟩ := advance_read_spec buf count ok lower upper
  obtain ⟨next, adjusted, nextOk, content, sameSize, shorter⟩ := adjust_buffer_spec _ movedOk
  refine ⟨next, ?_, nextOk, content.trans left, sameSize, shorter⟩
  rw [move_read_index_checked buf count ⟨by omega, by omega⟩, index, if_neg (by rw [← ok.vector]; omega)]
  exact adjusted

theorem read_from_buffer_spec (buf : TcpBuffer) (readBuf : Bytes) (size : Int) (ok : BufferOk buf) (lower : 0 ≤ size) :
    ∃ next, readFromBuffer buf readBuf size =
        some (next, if readable buf = [] then readBuf else (readable buf).take size.toNat) ∧
      BufferOk next ∧ readable next = (readable buf).drop size.toNat := by
  by_cases empty : readAble buf = 0
  · have nothing := (readable_empty buf ok).mpr empty
    refine ⟨buf, ?_, ok, by rw [nothing, List.drop_nil]⟩
    rw [readFromBuffer, if_pos empty, if_pos nothing]
  · have something : readable buf ≠ [] := fun nothing => empty ((readable_empty buf ok).mp nothing)
    have total := readable_length buf ok
    obtain ⟨count, counted⟩ : ∃ count, count = if readAble buf > size then size else readAble buf := ⟨_, rfl⟩
    have least : 0 ≤ count ∧ count ≤ readAble buf ∧
        (readable buf).take count.toNat = (readable buf).take size.toNat ∧
        (readable buf).drop count.toNat = (readable buf).drop size.toNat := by
      by_cases short : readAble buf > size
      · rw [if_pos short] at counted
        subst counted
        exact ⟨lower, by omega, rfl, rfl⟩
      · rw [if_neg short] at counted
        subst counted
        refine ⟨by omega, Int.le_refl _, ?_, ?_⟩
        · rw [List.take_of_length_le (by omega), List.take_of_length_le (by omega)]
        · rw [List.drop_of_length_le (by omega), List.drop_of_length_le (by omega)]
    obtain ⟨countLower, countUpper, front, back⟩ := least
    obtain ⟨movedOk, left, taken⟩ := advance_read_spec buf count ok countLower countUpper
    have made : newVector count = some (List.replicate count.toNat 0) := if_pos countLower
    have filled : blit (List.replicate count.toNat 0) 0 ((readable buf).take count.toNat) =
        some ((readable buf).take count.toNat) := by
      apply blit_replace
      simp only [List.length_take, List.length_replicate]
      omega
    obtain ⟨next, adjusted, nextOk, content, _, _⟩ := adjust_buffer_spec _ movedOk
    refine ⟨next, ?_, nextOk, by rw [content, left, back]⟩
    rw [if_neg something, ← front]
    simp only [readFromBuffer, if_neg empty, ← counted, made, taken, filled, adjusted, Option.bind_eq_bind, Option.bind_some]

theorem resize_buffer_spec (buf : TcpBuffer) (newSize : Int) (ok : BufferOk buf) (room : readAble buf ≤ newSize)
    (fits : newSize < 2 ^ 31) :
    ∃ next, resizeBuffer buf newSize = some next ∧ BufferOk next ∧ readable next = readable buf ∧
      next.size = newSize ∧ next.writeIndex = readAble buf := by
  have lower : 0 ≤ readAble buf := by
    have order := ok.ordered
    rw [readAble]
    omega
  have total := readable_length buf ok
  have made : newVector newSize = some (List.replicate newSize.toNat 0) := if_pos (by omega)
  obtain ⟨_, width⟩ := new_vector_some newSize _ made
  obtain ⟨cells, moved⟩ : ∃ cells, blit (List.replicate newSize.toNat 0) 0 (readable buf) = some cells :=
    ⟨_, blit_some _ (readable buf) 0 (Int.le_refl 0) (by omega)⟩
  refine ⟨⟨0, readAble buf, newSize, cells⟩, ?_, ⟨Int.le_refl 0, lower, room, ?_, fits⟩, ?_, rfl, rfl⟩
  · simp only [resizeBuffer, made, Int.min_eq_right room, readable_slice buf ok, Option.bind_eq_bind,
      Option.bind_some, moved]
  · rw [blit_length _ _ _ _ moved, width]
  · simpa only [readable, ← total] using window_blit_start _ _ _ moved

-- What the growth step leaves room for. Nothing compares the new capacity with
-- the number of bytes that are about to be copied.
def Fits (buf : TcpBuffer) (count : Int) : Prop :=
  count ≤ writeAble buf ∨ ∃ newSize, growSize buf = some newSize ∧ readAble buf + count ≤ newSize

instance (buf : TcpBuffer) (count : Int) : Decidable (Fits buf count) :=
  inferInstanceAs (Decidable (count ≤ writeAble buf ∨ ∃ newSize ∈ growSize buf, readAble buf + count ≤ newSize))

theorem grow_size_bounds (buf : TcpBuffer) (newSize : Int) (ok : BufferOk buf) (grown : growSize buf = some newSize) :
    readAble buf ≤ newSize ∧ newSize < 2 ^ 31 := by
  have readLower := ok.readLower
  have order := ok.ordered
  have upper := ok.writeUpper
  simp only [growSize, Option.bind_eq_bind, Option.bind_eq_some_iff, checked_eq_some] at grown
  obtain ⟨sum, ⟨_, rfl⟩, inside, rfl⟩ := grown
  refine ⟨?_, inside.2⟩
  rw [Int.tdiv_eq_ediv_of_nonneg (by omega)]
  rw [readAble]
  omega

theorem write_at_end_spec (buf : TcpBuffer) (data : Bytes) (ok : BufferOk buf) (room : data.length ≤ writeAble buf) :
    ∃ cells, blit buf.buffer buf.writeIndex data = some cells ∧
      BufferOk { buf with writeIndex := buf.writeIndex + data.length, buffer := cells } ∧
      readable { buf with writeIndex := buf.writeIndex + data.length, buffer := cells } = readable buf ++ data := by
  have readLower := ok.readLower
  have order := ok.ordered
  have upper := ok.writeUpper
  rw [writeAble] at room
  obtain ⟨cells, written⟩ : ∃ cells, blit buf.buffer buf.writeIndex data = some cells :=
    ⟨_, blit_some buf.buffer data buf.writeIndex (by omega) (by rw [← ok.vector]; omega)⟩
  refine ⟨cells, written, ⟨readLower, by simp only; omega, by simp only; omega, ?_, ok.fitsInt⟩, ?_⟩
  · rw [blit_length _ _ _ _ written, ← ok.vector]
  · exact window_blit_end _ _ _ _ _ readLower order written

theorem write_to_buffer_room (buf : TcpBuffer) (data : Bytes) (ok : BufferOk buf) (room : data.length ≤ writeAble buf) :
    ∃ next, writeToBuffer buf data = some next ∧ BufferOk next ∧ readable next = readable buf ++ data ∧
      next.size = buf.size ∧ next.writeIndex = buf.writeIndex + data.length := by
  obtain ⟨cells, written, nextOk, content⟩ := write_at_end_spec buf data ok room
  refine ⟨_, ?_, nextOk, content, rfl, rfl⟩
  simp only [writeToBuffer, if_neg (by omega : ¬ (data.length : Int) > writeAble buf), Option.bind_eq_bind,
    Option.bind_some, written]

theorem write_to_buffer_spec (buf : TcpBuffer) (data : Bytes) (ok : BufferOk buf) (fits : Fits buf data.length) :
    ∃ next, writeToBuffer buf data = some next ∧ BufferOk next ∧ readable next = readable buf ++ data := by
  by_cases room : (data.length : Int) ≤ writeAble buf
  · obtain ⟨next, written, nextOk, content, _, _⟩ := write_to_buffer_room buf data ok room
    exact ⟨next, written, nextOk, content⟩
  · obtain impossible | ⟨newSize, grown, enough⟩ := fits
    · exact absurd impossible room
    · obtain ⟨keeps, small⟩ := grow_size_bounds buf newSize ok grown
      obtain ⟨wide, resized, wideOk, kept, width, start⟩ := resize_buffer_spec buf newSize ok keeps small
      obtain ⟨cells, written, nextOk, content⟩ := write_at_end_spec wide data wideOk (by
        rw [writeAble]
        omega)
      refine ⟨_, ?_, nextOk, by rw [content, kept]⟩
      simp only [writeToBuffer, if_pos (by omega : (data.length : Int) > writeAble buf), grown, resized,
        Option.bind_eq_bind, Option.bind_some, written]

theorem write_to_buffer_overrun (buf : TcpBuffer) (data : Bytes) (ok : BufferOk buf)
    (tooLong : ¬ Fits buf data.length) : writeToBuffer buf data = none := by
  have full : (data.length : Int) > writeAble buf := by
    by_contra room
    exact tooLong (Or.inl (by omega))
  simp only [writeToBuffer, if_pos full, Option.bind_eq_bind]
  cases grown : growSize buf with
  | none => rfl
  | some newSize =>
      obtain ⟨keeps, small⟩ := grow_size_bounds buf newSize ok grown
      obtain ⟨wide, resized, wideOk, _, width, start⟩ := resize_buffer_spec buf newSize ok keeps small
      have outside : ¬ (0 ≤ wide.writeIndex ∧ wide.writeIndex + data.length ≤ wide.buffer.length) := by
        rintro ⟨_, inside⟩
        refine tooLong (Or.inr ⟨newSize, grown, ?_⟩)
        rw [← wideOk.vector, width, start] at inside
        exact inside
      simp only [Option.bind_some, resized, blit, if_neg outside, Option.bind_none]

end Rocket
