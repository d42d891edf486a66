import Rocket.TcpConnection

set_option autoImplicit false

namespace Rocket

open Memory Word32 WhileLoop

-- The first answer that is not an error brings less than the free space.
def FirstReadShort (room : Int) : List ReadResult → Prop
  | [] => True
  | .data bytes :: _ => bytes.length < room
  | .again :: _ => True
  | .failed :: results => FirstReadShort room results

-- While only full reads have happened nothing has been recorded: the same
-- free space is offered to every read.
structure ReadInv (start : TcpBuffer) (reading : Reading) : Prop where
  ok : BufferOk reading.inBuffer
  space : reading.inBuffer.writeIndex < reading.inBuffer.size
  sameRoom : writeAble reading.inBuffer = writeAble start
  content : readable reading.inBuffer = readable start

theorem move_write_index_end (buf : TcpBuffer) (count : Int) (ok : BufferOk buf) (full : buf.writeIndex + count = buf.size) :
    moveWriteIndex buf count = some buf := by
  have fits := ok.fitsInt
  have lower := ok.readLower
  have order := ok.ordered
  have upper := ok.writeUpper
  rw [moveWriteIndex, full, checked_some _ ⟨by omega, fits⟩, Option.bind_eq_bind, Option.bind_some,
    to_size_t_small _ (by omega) fits]
  exact if_pos (Int.le_of_eq ok.vector.symm)

theorem move_write_index_inside (buf : TcpBuffer) (count : Int) (ok : BufferOk buf) (lower : 0 ≤ count)
    (inside : buf.writeIndex + count < buf.size) :
    moveWriteIndex buf count = adjustBuffer { buf with writeIndex := buf.writeIndex + count } := by
  have fits := ok.fitsInt
  have readLower := ok.readLower
  have order := ok.ordered
  have vector := ok.vector
  rw [moveWriteIndex, checked_some _ ⟨by omega, by omega⟩, Option.bind_eq_bind, Option.bind_some,
    to_size_t_small _ (by omega) (by omega)]
  exact if_neg (by omega)

theorem read_data_spec (buf : TcpBuffer) (bytes : Bytes) (ok : BufferOk buf) (room : bytes.length ≤ writeAble buf) :
    ∃ cells moved, blit buf.buffer buf.writeIndex bytes = some cells ∧
      moveWriteIndex { buf with buffer := cells } bytes.length = some moved ∧ BufferOk moved ∧
      (bytes.length = writeAble buf → readable moved = readable buf ∧ moved.writeIndex = buf.writeIndex ∧
        moved.size = buf.size) ∧
      (bytes.length < writeAble buf → readable moved = readable buf ++ bytes) := by
  have lower := ok.readLower
  have order := ok.ordered
  obtain ⟨cells, written, grownOk, content⟩ := write_at_end_spec buf bytes ok room
  have cellsOk : BufferOk { buf with buffer := cells } :=
    ⟨ok.readLower, ok.ordered, ok.writeUpper, by rw [blit_length _ _ _ _ written]; exact ok.vector, ok.fitsInt⟩
  by_cases full : (bytes.length : Int) = writeAble buf
  · have reaches : buf.writeIndex + (bytes.length : Int) = buf.size := by
      rw [full, writeAble]
      omega
    refine ⟨cells, _, written, move_write_index_end _ _ cellsOk reaches, cellsOk, ?_, ?_⟩
    · intro _
      exact ⟨window_blit_behind _ _ _ _ _ _ lower order (Int.le_refl _) written, rfl, rfl⟩
    · intro short
      omega
  · have short : (bytes.length : Int) < writeAble buf := by omega
    have inside : buf.writeIndex + (bytes.length : Int) < buf.size := by
      rw [writeAble] at short
      omega
    obtain ⟨moved, adjusted, movedOk, kept, _⟩ := adjust_buffer_spec _ grownOk
    refine ⟨cells, moved, written, ?_, movedOk, fun same => absurd same full, fun _ => kept.trans content⟩
    rw [move_write_index_inside _ _ cellsOk (by omega) inside]
    exact adjusted

-- A turn that goes on has lost what it read, and one that ends in execute has
-- appended it.
theorem read_turn_spec (start : TcpBuffer) (reading : Reading) (result : ReadResult) (results : List ReadResult)
    (inv : ReadInv start reading) :
    (∃ later, readTurn reading result = some (.next later) ∧ ReadInv start later ∧
      (later.returned = [] ∧ FirstReadShort (writeAble start) results ↔
        reading.returned = [] ∧ FirstReadShort (writeAble start) (result :: results))) ∨
      (∃ last tail, readTurn reading result = some (.stop (.execute, ⟨last, reading.returned ++ tail⟩)) ∧
        readable last = readable start ++ tail ∧ FirstReadShort (writeAble start) (result :: results)) ∨
      ∃ last, readTurn reading result = some (.stop (.clear, last)) := by
  have positive : 0 < writeAble reading.inBuffer := by
    have space := inv.space
    rw [writeAble]
    omega
  have roomy : ¬ writeAble reading.inBuffer = 0 := by omega
  have sameRoom := inv.sameRoom
  cases result with
  | data bytes =>
      have width := List.length_take (i := (writeAble reading.inBuffer).toNat) (l := bytes)
      simp only [readTurn, if_neg roomy, Option.bind_eq_bind, Option.bind_some]
      generalize bytes.take (writeAble reading.inBuffer).toNat = chunk at width ⊢
      by_cases closed : chunk = []
      · exact Or.inr (Or.inr ⟨reading, by rw [if_pos closed]⟩)
      · obtain ⟨cells, moved, written, advanced, movedOk, whenFull, whenShort⟩ :=
          read_data_spec reading.inBuffer chunk inv.ok (by omega)
        simp only [if_neg closed, written, advanced, Option.bind_some]
        by_cases full : (chunk.length : Int) = writeAble reading.inBuffer
        · obtain ⟨kept, sameIndex, sameSize⟩ := whenFull full
          refine Or.inl ⟨⟨moved, reading.returned ++ chunk⟩, if_pos full, ⟨movedOk, ?_, ?_, kept.trans inv.content⟩, ?_⟩
          · simpa only [sameIndex, sameSize] using inv.space
          · simpa only [writeAble, sameIndex, sameSize] using sameRoom
          · constructor
            · rintro ⟨nothing, _⟩
              exact absurd (List.append_eq_nil_iff.mp nothing).2 closed
            · rintro ⟨_, short⟩
              rw [FirstReadShort, ← sameRoom] at short
              omega
        · have short : (bytes.length : Int) < writeAble reading.inBuffer := by omega
          refine Or.inr (Or.inl ⟨moved, chunk, if_neg full, ?_, sameRoom ▸ short⟩)
          rw [whenShort (by omega), inv.content]
  | again =>
      refine Or.inr (Or.inl ⟨reading.inBuffer, [], ?_, ?_, trivial⟩)
      · simp only [readTurn, if_neg roomy, Option.bind_eq_bind, Option.bind_some, List.append_nil]
      · rw [inv.content, List.append_nil]
  | failed =>
      refine Or.inl ⟨reading, ?_, inv, Iff.rfl⟩
      simp only [readTurn, if_neg roomy, Option.bind_eq_bind, Option.bind_some]

theorem read_run_spec (start : TcpBuffer) (results : List ReadResult) (reading : Reading) (inv : ReadInv start reading) :
    ∃ flow, run readTurn reading results = some flow ∧
      ∀ last, flow = .stop (.execute, last) → ∃ front tail, last.returned = front ++ tail ∧
        readable last.inBuffer = readable start ++ tail ∧
        (front = [] ↔ reading.returned = [] ∧ FirstReadShort (writeAble start) results) := by
  induction results generalizing reading with
  | nil => exact ⟨_, rfl, by intro last stopped; cases stopped⟩
  | cons result results ih =>
      rcases read_turn_spec start reading result results inv with
        ⟨later, goesOn, kept, same⟩ | ⟨last, tail, exit, content, short⟩ | ⟨last, exit⟩
      · rw [run_next readTurn reading later result results goesOn, ← same]
        exact ih later kept
      · rw [run_stop readTurn reading result results _ exit]
        refine ⟨_, rfl, ?_⟩
        intro final same
        cases same
        exact ⟨reading.returned, tail, rfl, content, fun nothing => ⟨nothing, short⟩, fun nothing => nothing.1⟩
      · rw [run_stop readTurn reading result results _ exit]
        refine ⟨_, rfl, ?_⟩
        intro final same
        cases same

theorem on_read_appends_iff (inBuffer : TcpBuffer) (results : List ReadResult) (ok : BufferOk inBuffer)
    (space : inBuffer.writeIndex < inBuffer.size) :
    ∃ flow, onRead .connected inBuffer results = some flow ∧ ∀ last, flow = .stop (.execute, last) →
      (readable last.inBuffer = readable inBuffer ++ last.returned ↔ FirstReadShort (writeAble inBuffer) results) := by
  obtain ⟨flow, ended, describes⟩ := read_run_spec inBuffer results ⟨inBuffer, []⟩ ⟨ok, space, rfl, rfl⟩
  refine ⟨flow, (if_neg (by simp)).trans ended, ?_⟩
  intro last stopped
  obtain ⟨front, tail, returned, content, nothing⟩ := describes last stopped
  have short : front = [] ↔ FirstReadShort (writeAble inBuffer) results := nothing.trans ⟨And.right, And.intro rfl⟩
  rw [content, returned, ← short]
  constructor
  · intro same
    have equal : tail = front ++ tail := List.append_cancel_left same
    simpa using congrArg List.length equal
  · intro empty
    rw [empty, List.nil_append]

theorem on_read_small :
    ∃ flow, onRead .connected ⟨0, 1, 4, [1, 0, 0, 0]⟩ [.data [7, 8], .again] = some flow ∧
      ∀ last, flow = .stop (.execute, last) →
        (readable last.inBuffer = readable ⟨0, 1, 4, [1, 0, 0, 0]⟩ ++ last.returned ↔
          FirstReadShort (writeAble ⟨0, 1, 4, [1, 0, 0, 0]⟩) [.data [7, 8], .again]) :=
  on_read_appends_iff ⟨0, 1, 4, [1, 0, 0, 0]⟩ [.data [7, 8], .again] (by decide) (by decide)

-- A read that fills the buffer, and then EAGAIN: both bytes are gone.
theorem on_read_full_diverges :
    onRead .connected ⟨0, 2, 4, [1, 2, 0, 0]⟩ [.data [7, 8], .again] =
      some (.stop (.execute, ⟨⟨0, 2, 4, [1, 2, 7, 8]⟩, [7, 8]⟩)) ∧
    readable ⟨0, 2, 4, [1, 2, 7, 8]⟩ ≠ readable ⟨0, 2, 4, [1, 2, 0, 0]⟩ ++ [7, 8] := by
  decide

end Rocket
