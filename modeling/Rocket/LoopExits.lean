import Rocket.InputPath
import Rocket.Sender

set_option autoImplicit false

namespace Rocket

open Memory Word32 WhileLoop

-- The buffer that read is called on.
def growBuffer (buf : TcpBuffer) : Option TcpBuffer :=
  if writeAble buf = 0 then resizeBuffer buf (narrow (2 * buf.buffer.length)) else some buf

-- A turn from the call of read on.
def readAnswer (returned : Bytes) (buf : TcpBuffer) : ReadResult → Option (Flow Reading (ReadEnd × Reading))
  | .data bytes =>
      let bytes := bytes.take (writeAble buf).toNat
      if bytes = [] then some (.stop (.clear, ⟨buf, returned⟩))
      else do
        let cells ← blit buf.buffer buf.writeIndex bytes
        let moved ← moveWriteIndex { buf with buffer := cells } bytes.length
        let later : Reading := ⟨moved, returned ++ bytes⟩
        if (bytes.length : Int) = writeAble buf then some (.next later) else some (.stop (.execute, later))
  | .again => some (.stop (.execute, ⟨buf, returned⟩))
  | .failed => some (.next ⟨buf, returned⟩)

theorem read_turn_grown (reading : Reading) (result : ReadResult) :
    readTurn reading result = (growBuffer reading.inBuffer).bind fun buf => readAnswer reading.returned buf result := by
  rw [growBuffer]
  by_cases full : writeAble reading.inBuffer = 0
  · rw [if_pos full]
    simp only [readTurn, if_pos full]
    cases result <;> rfl
  · rw [if_neg full]
    simp only [readTurn, if_neg full]
    cases result <;> rfl

def FullRead (room : Int) : ReadResult → Prop
  | .data bytes => 0 < room ∧ room ≤ bytes.length
  | .again => False
  | .failed => False

-- Every answer but a full read ends the loop on the spot.
def ReadLoopExits (inBuffer : TcpBuffer) (results : Nat → ReadResult) : Prop :=
  ∀ count reading buf, after readTurn results ⟨inBuffer, []⟩ count = some (.next reading) →
    growBuffer reading.inBuffer = some buf → ¬ FullRead (writeAble buf) (results count) →
    ∃ last, after readTurn results ⟨inBuffer, []⟩ (count + 1) = some (.stop last)

def readRoom (buf : TcpBuffer) : Int := if writeAble buf = 0 then 2 * buf.size - readAble buf else writeAble buf

-- The doubled size is not an int: the vector refuses it before any read.
def CannotGrow (buf : TcpBuffer) : Prop := writeAble buf = 0 ∧ 2 ^ 30 ≤ buf.size

-- Before the first error that is not EAGAIN another answer has ended the loop.
def ErrorsBehindExit (inBuffer : TcpBuffer) (results : Nat → ReadResult) : Prop :=
  ∀ count, results count = .failed → ∃ earlier < count, ¬ FullRead (readRoom inBuffer) (results earlier)

structure ReadsInto (room : Int) (reading : Reading) : Prop where
  ok : BufferOk reading.inBuffer
  grows : ¬ CannotGrow reading.inBuffer
  space : readRoom reading.inBuffer = room

def ReadPasses (room : Int) (result : ReadResult) : Prop := FullRead room result ∨ result = .failed

theorem full_read_chunk (room : Int) (bytes : Bytes) (full : FullRead room (.data bytes)) :
    bytes.take room.toNat ≠ [] ∧ ((bytes.take room.toNat).length : Int) = room := by
  obtain ⟨positive, enough⟩ := full
  have width := List.length_take (i := room.toNat) (l := bytes)
  have exact : ((bytes.take room.toNat).length : Int) = room := by omega
  refine ⟨?_, exact⟩
  intro nothing
  rw [nothing, List.length_nil] at exact
  omega

theorem chunk_full_read (room : Int) (bytes : Bytes) (some_read : bytes.take room.toNat ≠ [])
    (whole : ((bytes.take room.toNat).length : Int) = room) : FullRead room (.data bytes) := by
  have positive := List.length_pos_iff.mpr some_read
  have width := List.length_take (i := room.toNat) (l := bytes)
  exact ⟨by omega, by omega⟩

theorem narrow_doubled (length : Nat) (small : (length : Int) < 2 ^ 30) : narrow (2 * length) = 2 * (length : Int) :=
  narrow_of_range _ ⟨by omega, by omega⟩

theorem grow_buffer_spec (buf : TcpBuffer) (ok : BufferOk buf) (grows : ¬ CannotGrow buf) :
    ∃ next, growBuffer buf = some next ∧ writeAble next = readRoom buf ∧
      ∀ returned, ReadsInto (readRoom buf) ⟨next, returned⟩ := by
  by_cases full : writeAble buf = 0
  · have order := ok.ordered
    have lower := ok.readLower
    have upper := ok.writeUpper
    have vector := ok.vector
    have small : (buf.buffer.length : Int) < 2 ^ 30 := by
      by_contra large
      exact grows ⟨full, by omega⟩
    have doubled : readAble buf ≤ 2 * (buf.buffer.length : Int) := by
      rw [readAble]
      omega
    obtain ⟨next, resized, nextOk, _, nextSize, nextWrite⟩ := resize_buffer_spec buf _ ok doubled (by omega)
    have room : writeAble next = readRoom buf := by
      rw [readRoom, if_pos full, writeAble, nextSize, nextWrite, vector]
    refine ⟨next, ?_, room, fun returned => ⟨nextOk, ?_, ?_⟩⟩
    · rw [growBuffer, if_pos full, narrow_doubled _ small]
      exact resized
    · rintro ⟨none_left, large⟩
      rw [writeAble, nextSize, nextWrite, readAble] at none_left
      simp only [nextSize] at large
      omega
    · rw [readRoom]
      split
      · next none_left =>
          have nextOrder := nextOk.ordered
          have nextLower := nextOk.readLower
          simp only [writeAble, readAble, nextSize, nextWrite] at none_left room nextOrder ⊢
          omega
      · exact room
  · have room : writeAble buf = readRoom buf := (if_neg full).symm
    exact ⟨buf, if_neg full, room, fun returned => ⟨ok, grows, rfl⟩⟩

theorem read_turn_failed (reading : Reading) (buf : TcpBuffer) (grown : growBuffer reading.inBuffer = some buf) :
    readTurn reading .failed = some (.next { reading with inBuffer := buf }) := by
  rw [read_turn_grown, grown, Option.bind_some, readAnswer]

theorem read_turn_full (reading : Reading) (buf : TcpBuffer) (bytes : Bytes) (ok : BufferOk buf)
    (grown : growBuffer reading.inBuffer = some buf) (full : FullRead (writeAble buf) (.data bytes)) :
    ∃ moved, readTurn reading (.data bytes) =
        some (.next ⟨moved, reading.returned ++ bytes.take (writeAble buf).toNat⟩) ∧ BufferOk moved ∧
      writeAble moved = writeAble buf := by
  obtain ⟨something, whole⟩ := full_read_chunk _ bytes full
  rw [read_turn_grown, grown, Option.bind_some]
  simp only [readAnswer]
  generalize bytes.take (writeAble buf).toNat = chunk at something whole ⊢
  obtain ⟨cells, moved, written, advanced, movedOk, whenFull, _⟩ := read_data_spec buf chunk ok (Int.le_of_eq whole)
  obtain ⟨_, sameIndex, sameSize⟩ := whenFull whole
  refine ⟨moved, ?_, movedOk, by rw [writeAble, writeAble, sameIndex, sameSize]⟩
  simp only [if_neg something, written, advanced, Option.bind_eq_bind, Option.bind_some, if_pos whole]

theorem read_turn_exits (reading : Reading) (buf : TcpBuffer) (result : ReadResult) (ok : BufferOk buf)
    (grown : growBuffer reading.inBuffer = some buf) (ends : ¬ ReadPasses (writeAble buf) result) :
    ∃ last, readTurn reading result = some (.stop last) := by
  rw [read_turn_grown, grown, Option.bind_some]
  cases result with
  | data bytes =>
      have width := List.length_take (i := (writeAble buf).toNat) (l := bytes)
      have room : 0 ≤ writeAble buf := by
        have upper := ok.writeUpper
        rw [writeAble]
        omega
      have short := chunk_full_read (writeAble buf) bytes
      simp only [readAnswer]
      generalize bytes.take (writeAble buf).toNat = chunk at width short ⊢
      by_cases closed : chunk = []
      · exact ⟨_, if_pos closed⟩
      · have partly : ¬ (chunk.length : Int) = writeAble buf := fun whole => ends (Or.inl (short closed whole))
        obtain ⟨cells, moved, written, advanced, _⟩ := read_data_spec buf chunk ok (by omega)
        refine ⟨(.execute, ⟨moved, reading.returned ++ chunk⟩), ?_⟩
        simp only [if_neg closed, written, advanced, Option.bind_eq_bind, Option.bind_some, if_neg partly]
  | again => exact ⟨_, rfl⟩
  | failed => exact absurd (Or.inr rfl) ends

theorem read_turn_onward (room : Int) (reading : Reading) (result : ReadResult) (inv : ReadsInto room reading)
    (passes : ReadPasses room result) :
    ∃ later, readTurn reading result = some (.next later) ∧ ReadsInto room later := by
  obtain ⟨ok, grows, rfl⟩ := inv
  obtain ⟨buf, grown, sameRoom, kept⟩ := grow_buffer_spec reading.inBuffer ok grows
  rcases passes with full | rfl
  · cases result with
    | data bytes =>
        have positive := full.1
        rw [← sameRoom] at full positive ⊢
        obtain ⟨moved, taken, movedOk, movedRoom⟩ := read_turn_full reading buf bytes (kept []).ok grown full
        have roomy : ¬ writeAble moved = 0 := by omega
        exact ⟨_, taken, movedOk, fun refused => roomy refused.1, (if_neg roomy).trans movedRoom⟩
    | again => exact absurd full id
    | failed => exact absurd full id
  · exact ⟨_, read_turn_failed reading buf grown, kept reading.returned⟩

theorem read_turn_leaves (room : Int) (reading later : Reading) (result : ReadResult) (inv : ReadsInto room reading)
    (taken : readTurn reading result = some (.next later)) : ReadPasses room result := by
  obtain ⟨ok, grows, rfl⟩ := inv
  obtain ⟨buf, grown, sameRoom, kept⟩ := grow_buffer_spec reading.inBuffer ok grows
  by_contra ends
  rw [← sameRoom] at ends
  obtain ⟨last, exit⟩ := read_turn_exits reading buf result (kept []).ok grown ends
  rw [taken] at exit
  cases exit

-- The offered room is the same at every read, so the first error that nothing
-- else precedes is met by the loop and passed.
theorem read_loop_exits_iff (inBuffer : TcpBuffer) (results : Nat → ReadResult) (ok : BufferOk inBuffer)
    (grows : ¬ CannotGrow inBuffer) : ReadLoopExits inBuffer results ↔ ErrorsBehindExit inBuffer results := by
  have initial : ReadsInto (readRoom inBuffer) ⟨inBuffer, []⟩ := ⟨ok, grows, rfl⟩
  have onward := read_turn_onward (readRoom inBuffer)
  have leaves := fun reading result later => read_turn_leaves (readRoom inBuffer) reading later result
  constructor
  · intro exits count failed
    by_contra nothing
    have all (index : Nat) (before : index < count) : FullRead (readRoom inBuffer) (results index) := by
      by_contra short
      exact nothing ⟨index, before, short⟩
    obtain ⟨reading, reached, inv⟩ := after_passes readTurn (ReadPasses (readRoom inBuffer)) (ReadsInto (readRoom inBuffer))
      onward results _ initial count fun index before => Or.inl (all index before)
    obtain ⟨buf, grown, _⟩ := grow_buffer_spec reading.inBuffer inv.ok inv.grows
    obtain ⟨last, exit⟩ := exits count reading buf reached grown (by rw [failed]; exact id)
    rw [after_next readTurn results _ reading count reached, failed, read_turn_failed reading buf grown] at exit
    cases exit
  · intro behind count reading buf reached grown short
    obtain ⟨inv, passed⟩ := after_passed readTurn (ReadPasses (readRoom inBuffer)) (ReadsInto (readRoom inBuffer))
      onward leaves results _ reading initial count reached
    -- an error among the passed answers would have an earlier one before it
    have noError (index : Nat) (before : index ≤ count) : results index ≠ .failed := by
      induction index using Nat.strongRecOn with
      | ind index ih =>
          intro failed
          obtain ⟨earlier, earlierBefore, notFull⟩ := behind index failed
          rcases passed earlier (by omega) with full | failedEarlier
          · exact notFull full
          · exact ih earlier earlierBefore (by omega) failedEarlier
    obtain ⟨same, grownSame, _, kept⟩ := grow_buffer_spec reading.inBuffer inv.ok inv.grows
    obtain rfl := Option.some.inj (grown.symm.trans grownSame)
    rw [after_next readTurn results _ reading count reached]
    refine read_turn_exits reading buf (results count) (kept []).ok grown ?_
    rintro (full | failed)
    · exact short full
    · exact noError count (Nat.le_refl count) failed

theorem narrow_wrapped (length : Nat) (large : 2 ^ 30 ≤ (length : Int)) (fits : (length : Int) < 2 ^ 31) :
    narrow (2 * length) < 0 := by
  have wrapped : (2 * (length : Int)).bmod (2 ^ 32) = 2 * length - 2 ^ 32 := by
    rw [← Int.sub_bmod_right]
    exact Int.bmod_eq_of_le (by omega) (by omega)
  rw [narrow, wrapped]
  omega

theorem cannot_grow_exits (inBuffer : TcpBuffer) (results : Nat → ReadResult) (ok : BufferOk inBuffer)
    (refused : CannotGrow inBuffer) : ReadLoopExits inBuffer results := by
  obtain ⟨full, large⟩ := refused
  have vector := ok.vector
  have fits := ok.fitsInt
  have negative := narrow_wrapped inBuffer.buffer.length (by omega) (by omega)
  have thrown : growBuffer inBuffer = none := by
    rw [growBuffer, if_pos full, resizeBuffer, newVector, if_neg (by omega)]
    rfl
  intro count reading buf reached grown
  cases count with
  | zero =>
      cases reached
      rw [thrown] at grown
      cases grown
  | succ count =>
      have first := after_next readTurn results ⟨inBuffer, []⟩ _ 0 rfl
      rw [read_turn_grown, thrown] at first
      have gone (index : Nat) : after readTurn results ⟨inBuffer, []⟩ (index + 1) = none := by
        induction index with
        | zero => exact first
        | succ index ih => rw [after_succ, ih]
      rw [gone count] at reached
      cases reached

-- The write loop of onWrite, which hands its sender to what follows it.
def writeFlow (sender : Sender) (result : WriteResult) : Option (Flow Sender Sender) := do
  let later ← writeTurn sender result
  if later.phase = .writing then some (.next later) else some (.stop later)

def Positive : WriteResult → Prop
  | .accepted _ => True
  | .again => False
  | .failed => False

-- An empty buffer ends the loop before any call. Otherwise only the last call
-- may have failed, and at most readAble calls were positive.
def WriteLoopExits (sender : Sender) (results : Nat → WriteResult) : Prop :=
  ∃ count middle last, after writeFlow results sender count = some (.next middle) ∧
    after writeFlow results sender (count + 1) = some (.stop last) ∧
    (readAble sender.outBuffer ≠ 0 → (∀ index < count, Positive (results index)) ∧
      (count : Int) ≤ readAble sender.outBuffer ∧
      (Positive (results count) → (count : Int) + 1 ≤ readAble sender.outBuffer))

def PartialWrite (writeCount : Int) : WriteResult → Prop
  | .accepted count => (count : Int) < writeCount
  | .again => False
  | .failed => False

def WholeWrite (writeCount : Int) : WriteResult → Prop
  | .accepted count => writeCount ≤ count
  | .again => False
  | .failed => False

-- Only partial writes come before EAGAIN or a call that takes everything.
def SettledInTime (writeCount : Int) (results : Nat → WriteResult) : Prop :=
  writeCount = 0 ∨ ∃ count : Nat, (∀ index < count, PartialWrite writeCount (results index)) ∧
    ((count : Int) ≤ writeCount ∧ results count = .again ∨ (count : Int) < writeCount ∧ WholeWrite writeCount (results count))

structure WritesFrom (outBuffer : TcpBuffer) (sender : Sender) : Prop where
  sameBuffer : sender.outBuffer = outBuffer
  busy : sender.phase = .writing

def WritePasses (writeCount : Int) (result : WriteResult) : Prop :=
  writeCount ≠ 0 ∧ (PartialWrite writeCount result ∨ result = .failed)

theorem finish_write_phase (sender : Sender) : (finishWrite sender).phase ≠ .writing := by
  rw [finishWrite]
  split <;> (intro busy; cases busy)

theorem write_flow_finished (sender finished : Sender) (result : WriteResult)
    (turned : writeTurn sender result = some (finishWrite finished)) :
    writeFlow sender result = some (.stop (finishWrite finished)) := by
  simp only [writeFlow, turned, Option.bind_eq_bind, Option.bind_some, if_neg (finish_write_phase finished)]

theorem write_turn_count (sender : Sender) (count : Nat) (ok : BufferOk sender.outBuffer)
    (offered : readAble sender.outBuffer ≠ 0) :
    ∃ later, writeTurn sender (.accepted count) =
        some (if readAble sender.outBuffer ≤ count then finishWrite later else later) ∧
      later.outBuffer = sender.outBuffer ∧ later.phase = sender.phase := by
  have total := readable_length sender.outBuffer ok
  have width := List.length_take (i := count) (l := readable sender.outBuffer)
  simp only [writeTurn, if_neg offered, readable_slice sender.outBuffer ok, Option.bind_eq_bind, Option.bind_some]
  refine ⟨{ sender with
    accepted := sender.accepted ++ (readable sender.outBuffer).take count
    writes := sender.writes ++ [(sender.encoded.length - (readable sender.outBuffer).length,
      ((readable sender.outBuffer).take count).length)] }, ?_, rfl, rfl⟩
  by_cases whole : readAble sender.outBuffer ≤ count
  · rw [if_pos (by omega), if_pos whole]
  · rw [if_neg (by omega), if_neg whole]

theorem write_flow_onward (outBuffer : TcpBuffer) (ok : BufferOk outBuffer) (sender : Sender) (result : WriteResult)
    (inv : WritesFrom outBuffer sender) (passes : WritePasses (readAble outBuffer) result) :
    ∃ later, writeFlow sender result = some (.next later) ∧ WritesFrom outBuffer later := by
  obtain ⟨rfl, busy⟩ := inv
  obtain ⟨offered, partly | rfl⟩ := passes
  · cases result with
    | accepted count =>
        obtain ⟨later, turned, sameOut, samePhase⟩ := write_turn_count sender count ok offered
        have short : ¬ readAble sender.outBuffer ≤ count := Int.not_le.mpr partly
        rw [if_neg short] at turned
        have stillBusy := samePhase.trans busy
        refine ⟨later, ?_, sameOut, stillBusy⟩
        simp only [writeFlow, turned, Option.bind_eq_bind, Option.bind_some, if_pos stillBusy]
    | again => exact absurd partly id
    | failed => exact absurd partly id
  · have turned : writeTurn sender .failed = some sender := if_neg offered
    refine ⟨sender, ?_, rfl, busy⟩
    simp only [writeFlow, turned, Option.bind_eq_bind, Option.bind_some, if_pos busy]

theorem write_flow_exits (outBuffer : TcpBuffer) (ok : BufferOk outBuffer) (sender : Sender) (result : WriteResult)
    (inv : WritesFrom outBuffer sender) (ends : ¬ WritePasses (readAble outBuffer) result) :
    ∃ last, writeFlow sender result = some (.stop last) := by
  obtain ⟨rfl, busy⟩ := inv
  by_cases empty : readAble sender.outBuffer = 0
  · exact ⟨_, write_flow_finished sender sender result (if_pos empty)⟩
  · cases result with
    | accepted count =>
        have whole : readAble sender.outBuffer ≤ count := by
          by_contra short
          exact ends ⟨empty, Or.inl (Int.not_le.mp short)⟩
        obtain ⟨later, turned, _⟩ := write_turn_count sender count ok empty
        rw [if_pos whole] at turned
        exact ⟨_, write_flow_finished sender later _ turned⟩
    | again => exact ⟨_, write_flow_finished sender sender .again (if_neg empty)⟩
    | failed => exact absurd ⟨empty, Or.inr rfl⟩ ends

theorem write_flow_leaves (outBuffer : TcpBuffer) (ok : BufferOk outBuffer) (sender : Sender) (result : WriteResult)
    (later : Sender) (inv : WritesFrom outBuffer sender) (taken : writeFlow sender result = some (.next later)) :
    WritePasses (readAble outBuffer) result := by
  by_contra ends
  obtain ⟨last, exit⟩ := write_flow_exits outBuffer ok sender result inv ends
  rw [taken] at exit
  cases exit

theorem positive_settles (writeCount : Int) (result : WriteResult) (ends : ¬ WritePasses writeCount result)
    (offered : writeCount ≠ 0) : result = .again ∨ Positive result ∧ WholeWrite writeCount result := by
  cases result with
  | accepted count =>
      refine Or.inr ⟨trivial, ?_⟩
      by_contra short
      exact ends ⟨offered, Or.inl (Int.not_le.mp short)⟩
  | again => exact Or.inl rfl
  | failed => exact absurd ⟨offered, Or.inr rfl⟩ ends

theorem positive_partial (writeCount : Int) (result : WriteResult) (passes : WritePasses writeCount result)
    (positive : Positive result) : PartialWrite writeCount result := by
  rcases passes.2 with partly | failed
  · exact partly
  · rw [failed] at positive
    exact absurd positive id

theorem partial_positive (writeCount : Int) (result : WriteResult) (partly : PartialWrite writeCount result) :
    Positive result := by
  cases result with
  | accepted count => trivial
  | again => exact partly
  | failed => exact partly

theorem again_ends (writeCount : Int) : ¬ WritePasses writeCount .again := by
  rintro ⟨_, partly | failed⟩
  · exact partly
  · cases failed

theorem whole_ends (writeCount : Int) (result : WriteResult) (whole : WholeWrite writeCount result) :
    ¬ WritePasses writeCount result := by
  rintro ⟨_, partly | rfl⟩
  · cases result with
    | accepted count => exact absurd whole (Int.not_le.mpr partly)
    | again => exact partly
    | failed => exact partly
  · exact whole

-- The read index never moves, so the number of positive results bounds nothing:
-- what ends the loop is one answer.
theorem write_loop_exits_iff (sender : Sender) (results : Nat → WriteResult) (ok : BufferOk sender.outBuffer)
    (busy : sender.phase = .writing) :
    WriteLoopExits sender results ↔ SettledInTime (readAble sender.outBuffer) results := by
  obtain ⟨writeCount, counted⟩ : ∃ writeCount, writeCount = readAble sender.outBuffer := ⟨_, rfl⟩
  have initial : WritesFrom sender.outBuffer sender := ⟨rfl, busy⟩
  have onward := write_flow_onward sender.outBuffer ok
  have leaves := write_flow_leaves sender.outBuffer ok
  have exits := write_flow_exits sender.outBuffer ok
  rw [WriteLoopExits]
  rw [← counted] at onward leaves exits ⊢
  constructor
  · rintro ⟨count, middle, last, reached, exit, inTime⟩
    by_cases empty : writeCount = 0
    · exact Or.inl empty
    · obtain ⟨positive, bounded, lastBounded⟩ := inTime empty
      obtain ⟨kept, passed⟩ := after_passed writeFlow (WritePasses writeCount) (WritesFrom sender.outBuffer)
        onward leaves results sender middle initial count reached
      have ends : ¬ WritePasses writeCount (results count) := by
        intro passes
        obtain ⟨later, taken, _⟩ := onward middle (results count) kept passes
        rw [after_next writeFlow results sender middle count reached, taken] at exit
        cases exit
      refine Or.inr ⟨count, fun index before => positive_partial _ _ (passed index before) (positive index before), ?_⟩
      rcases positive_settles writeCount _ ends empty with again | ⟨isPositive, whole⟩
      · exact Or.inl ⟨bounded, again⟩
      · exact Or.inr ⟨by have room := lastBounded isPositive; omega, whole⟩
  · intro settled
    by_cases empty : writeCount = 0
    · obtain ⟨last, exit⟩ := exits sender (results 0) initial fun passes => passes.1 empty
      exact ⟨0, sender, last, rfl, (after_next writeFlow results sender sender 0 rfl).trans exit,
        fun offered => absurd empty offered⟩
    · obtain ⟨count, partly, ended⟩ := settled.resolve_left empty
      obtain ⟨middle, reached, kept⟩ := after_passes writeFlow (WritePasses writeCount) (WritesFrom sender.outBuffer)
        onward results sender initial count fun index before => ⟨empty, Or.inl (partly index before)⟩
      have positive (index : Nat) (before : index < count) : Positive (results index) :=
        partial_positive writeCount _ (partly index before)
      have ends : ¬ WritePasses writeCount (results count) := by
        rcases ended with ⟨_, again⟩ | ⟨_, whole⟩
        · rw [again]
          exact again_ends writeCount
        · exact whole_ends writeCount _ whole
      obtain ⟨last, exit⟩ := exits middle (results count) kept ends
      refine ⟨count, middle, last, reached, (after_next writeFlow results sender middle count reached).trans exit, ?_⟩
      rintro -
      rcases ended with ⟨bounded, again⟩ | ⟨bounded, _⟩
      · refine ⟨positive, bounded, ?_⟩
        rw [again]
        exact fun impossible => absurd impossible id
      · exact ⟨positive, by omega, fun _ => by omega⟩

theorem socket_loops_exit_iff (inBuffer : TcpBuffer) (reads : Nat → ReadResult) (sender : Sender)
    (writes : Nat → WriteResult) (inOk : BufferOk inBuffer) (outOk : BufferOk sender.outBuffer)
    (busy : sender.phase = .writing) :
    (ReadLoopExits inBuffer reads ↔ CannotGrow inBuffer ∨ ErrorsBehindExit inBuffer reads) ∧
      (WriteLoopExits sender writes ↔ SettledInTime (readAble sender.outBuffer) writes) := by
  refine ⟨?_, write_loop_exits_iff sender writes outOk busy⟩
  by_cases refused : CannotGrow inBuffer
  · exact ⟨fun _ => Or.inl refused, fun _ => cannot_grow_exits inBuffer reads inOk refused⟩
  · rw [read_loop_exits_iff inBuffer reads inOk refused, or_iff_right refused]

-- Two bytes are ready to be sent.
def twoBytesLeft : Sender :=
  { newSender .byServer ⟨0, 2, 4, [7, 8, 0, 0]⟩ with phase := .writing, encoded := [7, 8] }

theorem socket_loops_exit_blocked :
    ReadLoopExits spareBuffer (fun _ => .again) ∧
      WriteLoopExits twoBytesLeft (fun index => if index = 1 then .again else .accepted 1) := by
  obtain ⟨reading, writing⟩ := socket_loops_exit_iff spareBuffer (fun _ => .again) twoBytesLeft
    (fun index => if index = 1 then .again else .accepted 1) spare_buffer_ok (by decide) rfl
  constructor
  · refine reading.mpr (Or.inr ?_)
    intro count failed
    cases failed
  · refine writing.mpr (Or.inr ⟨1, ?_, Or.inl ⟨by decide, rfl⟩⟩)
    intro index before
    obtain rfl : index = 0 := by omega
    have short : ((1 : Nat) : Int) < readAble twoBytesLeft.outBuffer := by decide
    exact short

-- A reset connection is asked again and again, and so is one that takes a
-- byte at a time.
theorem lasting_error_spins :
    ¬ ReadLoopExits spareBuffer (fun _ => .failed) ∧ ¬ WriteLoopExits twoBytesLeft (fun _ => .failed) ∧
      ¬ WriteLoopExits twoBytesLeft (fun _ => .accepted 1) := by
  have roomy : ¬ writeAble spareBuffer = 0 := by decide
  have reading := read_loop_exits_iff spareBuffer (fun _ => .failed) spare_buffer_ok fun refused => roomy refused.1
  have failing := write_loop_exits_iff twoBytesLeft (fun _ => .failed) (by decide) rfl
  have trickling := write_loop_exits_iff twoBytesLeft (fun _ => .accepted 1) (by decide) rfl
  refine ⟨?_, ?_, ?_⟩
  · intro exits
    obtain ⟨earlier, before, _⟩ := reading.mp exits 0 rfl
    exact absurd before (Nat.not_lt_zero earlier)
  · intro exits
    obtain empty | ⟨count, _, ⟨_, again⟩ | ⟨_, whole⟩⟩ := failing.mp exits
    · exact absurd empty (by decide)
    · cases again
    · exact whole
  · intro exits
    obtain empty | ⟨count, _, ⟨_, again⟩ | ⟨_, whole⟩⟩ := trickling.mp exits
    · exact absurd empty (by decide)
    · cases again
    · have short : ¬ readAble twoBytesLeft.outBuffer ≤ ((1 : Nat) : Int) := by decide
      exact short whole

end Rocket
