import Rocket.TcpBuffer
import Rocket.Lib.Trace

set_option autoImplicit false

namespace Rocket

open Memory Word32 Trace

inductive BufferAction where
  | write (data : Bytes)
  | read (readBuf : Bytes) (size : Int)
  | adjust
  | resize (newSize : Int)
deriving DecidableEq, Repr

-- handedOut joins what the calls of readFromBuffer have stored for their callers.
structure BufferUse where
  buf : TcpBuffer
  handedOut : Bytes := []
deriving DecidableEq, Repr

-- readFromBuffer returns early from an empty buffer and stores nothing.
def bufferStep (use : BufferUse) : BufferAction → Option BufferUse
  | .write data => do
      let next ← writeToBuffer use.buf data
      some { use with buf := next }
  | .read readBuf size => do
      let (next, out) ← readFromBuffer use.buf readBuf size
      some ⟨next, if readAble use.buf = 0 then use.handedOut else use.handedOut ++ out⟩
  | .adjust => do
      let next ← adjustBuffer use.buf
      some { use with buf := next }
  | .resize newSize => do
      let next ← resizeBuffer use.buf newSize
      some { use with buf := next }

structure ByteQueue where
  content : Bytes := []
  handedOut : Bytes := []
deriving DecidableEq, Repr

def queueStep (queue : ByteQueue) : BufferAction → ByteQueue
  | .write data => { queue with content := queue.content ++ data }
  | .read _ size => ⟨queue.content.drop size.toNat, queue.handedOut ++ queue.content.take size.toNat⟩
  | .adjust => queue
  | .resize _ => queue

def writtenBytes : BufferAction → Bytes
  | .write data => data
  | _ => []

def BufferGuard (use : BufferUse) : BufferAction → Prop
  | .write data => Fits use.buf data.length
  | .read _ size => 0 ≤ size
  | .adjust => True
  | .resize newSize => readAble use.buf ≤ newSize ∧ 1 ≤ newSize ∧ newSize < 2 ^ 31

instance (use : BufferUse) (action : BufferAction) : Decidable (BufferGuard use action) := by
  unfold BufferGuard
  split <;> infer_instance

structure Represents (use : BufferUse) (queue : ByteQueue) : Prop where
  ok : BufferOk use.buf
  content : readable use.buf = queue.content
  handedOut : use.handedOut = queue.handedOut

theorem queue_run_conserves (actions : List BufferAction) (queue : ByteQueue) :
    (actions.foldl queueStep queue).handedOut ++ (actions.foldl queueStep queue).content =
      queue.handedOut ++ queue.content ++ actions.flatMap writtenBytes := by
  induction actions generalizing queue with
  | nil => simp only [List.foldl_nil, List.flatMap_nil, List.append_nil]
  | cons action actions ih =>
      rw [List.foldl_cons, ih, List.flatMap_cons]
      cases action with
      | write data => simp only [queueStep, writtenBytes, List.append_assoc]
      | read readBuf size =>
          simp only [queueStep, writtenBytes, List.append_assoc, List.take_append_drop, List.nil_append]
      | adjust => rfl
      | resize newSize => rfl

theorem buffer_step_represents (use : BufferUse) (queue : ByteQueue) (action : BufferAction) (rep : Represents use queue)
    (guard : BufferGuard use action) :
    ∃ later, bufferStep use action = some later ∧ Represents later (queueStep queue action) := by
  cases action with
  | write data =>
      obtain ⟨next, written, ok, content⟩ := write_to_buffer_spec use.buf data rep.ok guard
      refine ⟨{ use with buf := next }, ?_, ok, ?_, rep.handedOut⟩
      · simp only [bufferStep, written, Option.bind_eq_bind, Option.bind_some]
      · simp only [queueStep, content, rep.content]
  | read readBuf size =>
      obtain ⟨next, taken, ok, content⟩ := read_from_buffer_spec use.buf readBuf size rep.ok guard
      refine ⟨⟨next, if readAble use.buf = 0 then use.handedOut else use.handedOut ++ queue.content.take size.toNat⟩, ?_,
        ok, ?_, ?_⟩
      · have same := readable_empty use.buf rep.ok
        by_cases empty : readAble use.buf = 0
        · simp only [bufferStep, taken, Option.bind_eq_bind, Option.bind_some, if_pos empty]
        · rw [if_neg (fun nothing => empty (same.mp nothing)), rep.content] at taken
          simp only [bufferStep, taken, Option.bind_eq_bind, Option.bind_some, if_neg empty]
      · rw [content, rep.content]
        rfl
      · by_cases empty : readAble use.buf = 0
        · have nothing := rep.content.symm.trans ((readable_empty use.buf rep.ok).mpr empty)
          simp only [if_pos empty, queueStep, nothing, List.take_nil, List.append_nil, rep.handedOut]
        · simp only [if_neg empty, queueStep, rep.handedOut]
  | adjust =>
      obtain ⟨next, adjusted, ok, content, _, _⟩ := adjust_buffer_spec use.buf rep.ok
      refine ⟨{ use with buf := next }, ?_, ok, content.trans rep.content, rep.handedOut⟩
      simp only [bufferStep, adjusted, Option.bind_eq_bind, Option.bind_some]
  | resize newSize =>
      obtain ⟨next, resized, ok, content, _, _⟩ := resize_buffer_spec use.buf newSize rep.ok guard.1 guard.2.2
      refine ⟨{ use with buf := next }, ?_, ok, content.trans rep.content, rep.handedOut⟩
      simp only [bufferStep, resized, Option.bind_eq_bind, Option.bind_some]

theorem represents_reads (use : BufferUse) (queue : ByteQueue) (readBuf : Bytes) (count : Int) (rep : Represents use queue)
    (lower : 0 ≤ count) (something : readable use.buf ≠ []) :
    ∃ next, readFromBuffer use.buf readBuf count =
      some (next, (readable use.buf).take (min count (readAble use.buf)).toNat) := by
  obtain ⟨next, taken, _, _⟩ := read_from_buffer_spec use.buf readBuf count rep.ok lower
  refine ⟨next, ?_⟩
  have total := readable_length use.buf rep.ok
  rw [taken, if_neg something]
  by_cases short : count ≤ readAble use.buf
  · rw [Int.min_eq_left short]
  · rw [Int.min_eq_right (by omega), List.take_of_length_le (by omega), List.take_of_length_le (by omega)]

theorem buffer_refines_queue (size : Int) (positive : 1 ≤ size) (fits : size < 2 ^ 31) :
    ∃ buf, newTcpBuffer size = some buf ∧
      ∀ actions, Guarded bufferStep BufferGuard ⟨buf, []⟩ actions → ∀ done, done <+: actions →
        ∃ use, run bufferStep ⟨buf, []⟩ done = some use ∧ BufferOk use.buf ∧
          readable use.buf = (done.foldl queueStep {}).content ∧
          use.handedOut = (done.foldl queueStep {}).handedOut ∧
          use.handedOut ++ readable use.buf = done.flatMap writtenBytes ∧
          ∀ readBuf count, 0 ≤ count → readable use.buf ≠ [] →
            ∃ next, readFromBuffer use.buf readBuf count =
              some (next, (readable use.buf).take (min count (readAble use.buf)).toNat) := by
  obtain ⟨buf, made⟩ := new_tcp_buffer_made size (by omega)
  obtain ⟨ok, empty⟩ := new_tcp_buffer_ok size buf fits made
  refine ⟨buf, made, ?_⟩
  intro actions guarded done isPrefix
  obtain ⟨use, reached, rep⟩ := guarded_simulates bufferStep queueStep Represents BufferGuard buffer_step_represents
    ⟨buf, []⟩ {} actions ⟨ok, empty, rfl⟩ guarded done isPrefix
  refine ⟨use, reached, rep.ok, rep.content, rep.handedOut, ?_, ?_⟩
  · rw [rep.handedOut, rep.content]
    exact queue_run_conserves done {}
  · exact fun readBuf count lower something => represents_reads use _ readBuf count rep lower something

theorem four_byte_buffer_refines :
    ∃ buf use, newTcpBuffer 4 = some buf ∧
      run bufferStep ⟨buf, []⟩ [.write [7, 8], .read [] 1, .write [9], .adjust] = some use ∧
      BufferOk use.buf ∧ readable use.buf = [8, 9] ∧ use.handedOut = [7] := by
  obtain ⟨buf, made, refines⟩ := buffer_refines_queue 4 (by decide) (by decide)
  refine ⟨buf, ?_⟩
  cases made
  obtain ⟨use, reached, ok, content, handedOut, _, _⟩ :=
    refines [.write [7, 8], .read [] 1, .write [9], .adjust] (by decide) _ (List.prefix_refl _)
  exact ⟨use, rfl, reached, ok, content, handedOut⟩

end Rocket
