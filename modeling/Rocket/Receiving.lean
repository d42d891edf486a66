import Rocket.InputPath
import Rocket.StreamSplit

set_option autoImplicit false

namespace Rocket

open Memory Word32 Trace WhileLoop

-- The input side of a connection: a whole onRead, or one turn of decode.
inductive ReceiveAction where
  | onRead (results : List ReadResult)
  | turn
deriving DecidableEq, Repr

-- The socket hands out the bytes under way in order, so other answers of read
-- are no step; nor is the end of the connection.
def feedReceive (feed : Feed) (results : List ReadResult) : Option Feed :=
  if feed.decoding = true then some feed
  else do
    match ← onRead .connected feed.buf results with
    | .stop (.execute, last) =>
        if last.returned <+: feed.incoming then
          some { feed with
            incoming := feed.incoming.drop last.returned.length, buf := last.inBuffer, decoding := true }
        else some feed
    | _ => some feed

def receiveStep (feed : Feed) : ReceiveAction → Option Feed
  | .onRead results => feedReceive feed results
  | .turn => feedTurn feed

instance firstReadDecidable (room : Int) : (results : List ReadResult) → Decidable (FirstReadShort room results)
  | [] => isTrue trivial
  | .data bytes :: _ => inferInstanceAs (Decidable ((bytes.length : Int) < room))
  | .again :: _ => isTrue trivial
  | .failed :: results => firstReadDecidable room results

-- The first bytes that onRead gets leave free space behind them. A read that
-- fills the buffer is not recorded.
def ReceiveGuard (messages : List TinyPBProtocol) (feed : Feed) : ReceiveAction → Prop
  | .onRead results => feed.decoding = false → FirstReadShort (writeAble feed.buf) results
  | .turn => FeedGuard messages feed .turn

instance (messages : List TinyPBProtocol) (feed : Feed) (action : ReceiveAction) :
    Decidable (ReceiveGuard messages feed action) :=
  match action with
  | .onRead results => inferInstanceAs (Decidable (feed.decoding = false → FirstReadShort (writeAble feed.buf) results))
  | .turn => inferInstanceAs (Decidable (FeedGuard messages feed .turn))

theorem short_read_space (buf : TcpBuffer) (bytes : Bytes) (ok : BufferOk buf) (short : bytes.length < writeAble buf) :
    ∃ cells moved, blit buf.buffer buf.writeIndex bytes = some cells ∧
      moveWriteIndex { buf with buffer := cells } bytes.length = some moved ∧ BufferOk moved ∧
      moved.writeIndex < moved.size ∧ readable moved = readable buf ++ bytes := by
  obtain ⟨cells, written, grownOk, content⟩ := write_at_end_spec buf bytes ok (Int.le_of_lt short)
  have cellsOk : BufferOk { buf with buffer := cells } :=
    ⟨ok.readLower, ok.ordered, ok.writeUpper, by rw [blit_length _ _ _ _ written]; exact ok.vector, ok.fitsInt⟩
  have inside : buf.writeIndex + (bytes.length : Int) < buf.size := by
    rw [writeAble] at short
    omega
  obtain ⟨moved, adjusted, movedOk, kept, sameSize, earlier⟩ := adjust_buffer_spec _ grownOk
  refine ⟨cells, moved, written, ?_, movedOk, ?_, kept.trans content⟩
  · rw [move_write_index_inside _ _ cellsOk (by omega) inside]
    exact adjusted
  · rw [sameSize]
    exact lt_of_le_of_lt earlier inside

theorem short_read_turn (buf : TcpBuffer) (bytes : Bytes) (ok : BufferOk buf) (short : (bytes.length : Int) < writeAble buf) :
    readTurn ⟨buf, []⟩ (.data bytes) = some (.stop (.clear, ⟨buf, []⟩)) ∨
      ∃ moved, readTurn ⟨buf, []⟩ (.data bytes) = some (.stop (.execute, ⟨moved, bytes⟩)) ∧ BufferOk moved ∧
        moved.writeIndex < moved.size ∧ readable moved = readable buf ++ bytes := by
  have roomy : ¬ writeAble buf = 0 := by omega
  have whole : bytes.take (writeAble buf).toNat = bytes := by
    refine List.take_of_length_le ?_
    omega
  by_cases closed : bytes = []
  · refine Or.inl ?_
    simp only [readTurn, if_neg roomy, Option.bind_eq_bind, Option.bind_some, whole, if_pos closed]
  · obtain ⟨cells, moved, written, advanced, movedOk, movedSpace, content⟩ := short_read_space buf bytes ok short
    refine Or.inr ⟨moved, ?_, movedOk, movedSpace, content⟩
    simp only [readTurn, if_neg roomy, Option.bind_eq_bind, Option.bind_some, whole, if_neg closed, written, advanced,
      if_neg (ne_of_lt short), List.nil_append]

-- Behind errors that read nothing comes the read that ends the loop.
theorem short_reads_append (buf : TcpBuffer) (results : List ReadResult) (ok : BufferOk buf)
    (space : buf.writeIndex < buf.size) (short : FirstReadShort (writeAble buf) results) :
    ∃ flow, onRead .connected buf results = some flow ∧ ∀ last, flow = .stop (.execute, last) →
      BufferOk last.inBuffer ∧ last.inBuffer.writeIndex < last.inBuffer.size ∧
        readable last.inBuffer = readable buf ++ last.returned := by
  have started : onRead .connected buf results = run readTurn ⟨buf, []⟩ results := if_neg (not_not_intro rfl)
  have roomy : ¬ writeAble buf = 0 := by
    rw [writeAble]
    omega
  rw [started]
  clear started
  induction results with
  | nil =>
      refine ⟨_, rfl, ?_⟩
      intro last stopped
      cases stopped
  | cons result results ih =>
      cases result with
      | data bytes =>
          obtain closed | ⟨moved, taken, appended⟩ := short_read_turn buf bytes ok short
          · refine ⟨_, run_stop readTurn _ _ results _ closed, ?_⟩
            intro last stopped
            cases stopped
          · refine ⟨_, run_stop readTurn _ _ results _ taken, ?_⟩
            intro last stopped
            cases stopped
            exact appended
      | again =>
          refine ⟨.stop (.execute, ⟨buf, []⟩), run_stop readTurn _ _ results _ ?_, ?_⟩
          · simp only [readTurn, if_neg roomy, Option.bind_eq_bind, Option.bind_some]
          · intro last stopped
            cases stopped
            exact ⟨ok, space, (List.append_nil _).symm⟩
      | failed =>
          have again : readTurn ⟨buf, []⟩ .failed = some (.next ⟨buf, []⟩) := by
            simp only [readTurn, if_neg roomy, Option.bind_eq_bind, Option.bind_some]
          rw [run_next readTurn _ _ _ results again]
          exact ih short

theorem feed_receive_keeps (messages : List TinyPBProtocol) (feed : Feed) (results : List ReadResult)
    (inv : Feeding messages feed) (guard : ReceiveGuard messages feed (.onRead results)) :
    ∃ later, feedReceive feed results = some later ∧ Feeding messages later := by
  by_cases busy : feed.decoding = true
  · exact ⟨feed, if_pos busy, inv⟩
  · obtain ⟨flow, ended, appends⟩ :=
      short_reads_append feed.buf results inv.ok inv.space (guard (by simpa using busy))
    simp only [feedReceive, if_neg busy, ended, Option.bind_eq_bind, Option.bind_some]
    match flow, appends with
    | .next _, _ => exact ⟨feed, rfl, inv⟩
    | .stop (.clear, _), _ => exact ⟨feed, rfl, inv⟩
    | .stop (.execute, last), appends =>
        obtain ⟨ok, space, content⟩ := appends last rfl
        by_cases inOrder : last.returned <+: feed.incoming
        · refine ⟨_, if_pos inOrder, ok, space, ?_⟩
          obtain ⟨done, left, split, out, bytes, _⟩ := inv.inStep
          obtain ⟨behind, whole⟩ := inOrder
          refine ⟨done, left, split, out, ?_, by intro idle; cases idle⟩
          rw [← bytes, ← whole, List.drop_left, content, List.append_assoc]
        · exact ⟨feed, if_neg inOrder, inv⟩

theorem receive_step_keeps (messages : List TinyPBProtocol) (plain : Plain messages) (feed : Feed) (action : ReceiveAction)
    (inv : Feeding messages feed) (guard : ReceiveGuard messages feed action) :
    ∃ later, receiveStep feed action = some later ∧ Feeding messages later := by
  cases action with
  | onRead results => exact feed_receive_keeps messages feed results inv guard
  | turn =>
      obtain ⟨later, taken, kept, _⟩ := feed_turn_keeps messages plain feed inv guard
      exact ⟨later, taken, kept⟩

theorem decode_turn_stops (out later : List TinyPBProtocol) (buf next : TcpBuffer)
    (turn : decodeTurn (out, buf) = some (.stop (later, next))) : later = out := by
  simp only [decodeTurn, Option.bind_eq_bind, Option.bind_eq_some_iff] at turn
  obtain ⟨found, _, turn⟩ := turn
  cases found with
  | none =>
      cases turn
      rfl
  | some frame =>
      simp only [Option.bind_eq_some_iff] at turn
      obtain ⟨moved, _, parsed, _, turn⟩ := turn
      cases parsed with
      | none => cases turn
      | some message => cases turn

theorem receive_step_grows (feed later : Feed) (action : ReceiveAction) (taken : receiveStep feed action = some later) :
    feed.outMessage <+: later.outMessage := by
  cases action with
  | onRead results =>
      simp only [receiveStep, feedReceive, Option.bind_eq_bind] at taken
      split at taken
      · cases taken
        exact List.prefix_refl _
      · obtain ⟨flow, _, taken⟩ := Option.bind_eq_some_iff.mp taken
        split at taken
        · split at taken
          · cases taken
            exact List.prefix_refl _
          · cases taken
            exact List.prefix_refl _
        · cases taken
          exact List.prefix_refl _
  | turn =>
      simp only [receiveStep, feedTurn] at taken
      split at taken
      · split at taken
        · cases taken
        · rename_i out buf turn
          cases taken
          obtain ⟨added, longer⟩ := decode_turn_appends feed.outMessage out feed.buf buf turn
          exact ⟨added, longer.symm⟩
        · rename_i out buf turn
          cases taken
          rw [decode_turn_stops feed.outMessage out feed.buf buf turn]
      · cases taken
        exact List.prefix_refl _

-- Two bytes for two free cells: they leave the socket and are not there.
example : (receiveStep ⟨[7, 8], ⟨0, 2, 4, [1, 2, 0, 0]⟩, [], false⟩ (.onRead [.data [7, 8], .again])).map
    (fun feed => (feed.incoming, readable feed.buf)) = some ([], [1, 2]) := by
  decide

end Rocket
