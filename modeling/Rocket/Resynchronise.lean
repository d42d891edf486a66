import Rocket.FrameStream

set_option autoImplicit false

namespace Rocket

open Memory Word32 WhileLoop

theorem scan_from_skip (tmp skipped rest : Bytes) (hi pos : Int) (left : Nat) (noStart : PB_START ∉ skipped)
    (holds : Holds tmp pos hi (skipped ++ rest)) :
    scanFrom tmp hi (skipped.length + left) pos = scanFrom tmp hi left (pos + skipped.length) := by
  induction skipped generalizing pos with
  | nil => simp
  | cons byte skipped ih =>
      obtain ⟨different, behind⟩ := List.ne_and_not_mem_of_not_mem_cons noStart
      have here : cell tmp pos = some byte := holds_cell tmp _ byte pos hi holds
      have next := ih (pos + 1) behind (holds_behind tmp [byte] _ pos (pos + 1) hi holds rfl)
      have other : ¬ (byte = PB_START ∧ pos + 1 < hi) := fun starts => different starts.1.symm
      have position : pos + ((byte :: skipped).length : Int) = pos + 1 + skipped.length := by
        rw [List.length_cons]
        omega
      rw [position, ← next, List.length_cons, Nat.add_right_comm, scanFrom, here, Option.bind_eq_bind, Option.bind_some,
        if_neg other]

theorem decode_turn_no_start (out : List TinyPBProtocol) (buf : TcpBuffer) (ok : BufferOk buf)
    (noStart : PB_START ∉ readable buf) : decodeTurn (out, buf) = some (.stop (out, buf)) := by
  have total := readable_length buf ok
  rw [readAble] at total
  have holds := readable_holds buf (readable buf ++ []) ok (List.append_nil _).symm
  have none : scan buf.buffer buf.readIndex buf.writeIndex = some none := by
    have skipped := scan_from_skip buf.buffer _ [] buf.writeIndex buf.readIndex 0 noStart holds
    rwa [Nat.add_zero, show (readable buf).length = (buf.writeIndex - buf.readIndex).toNat by omega] at skipped
  simp only [decodeTurn, none, Option.bind_eq_bind, Option.bind_some]

theorem scan_behind (tmp garbage rest : Bytes) (lo hi : Int) (msg : TinyPBProtocol) (sendable : Sendable msg)
    (small : hi < 2 ^ 31) (noStart : PB_START ∉ garbage) (holds : Holds tmp lo hi (garbage ++ (frame msg ++ rest))) :
    scan tmp lo hi = some (some ⟨lo + garbage.length, lo + garbage.length + frameLength msg - 1, frameLength msg⟩) := by
  have total := holds_length tmp _ lo hi holds
  rw [List.length_append] at total
  have front := scan_front tmp rest _ hi msg sendable small (holds_behind tmp garbage _ lo _ hi holds rfl)
  have count : (hi - lo).toNat = garbage.length + (hi - (lo + garbage.length)).toNat := by omega
  rw [scan, count, scan_from_skip tmp garbage _ hi lo _ noStart holds]
  exact front

-- The frame is found behind the garbage, but the read index moves by the length
-- of the frame from where it was, which is the front of the garbage.
theorem decode_turn_behind (out : List TinyPBProtocol) (buf : TcpBuffer) (msg : TinyPBProtocol) (garbage rest : Bytes)
    (ok : BufferOk buf) (space : buf.writeIndex < buf.size) (sendable : Sendable msg) (noText : msg.errInfo = [])
    (noStart : PB_START ∉ garbage) (content : readable buf = garbage ++ (frame msg ++ rest)) :
    ∃ next, decodeTurn (out, buf) = some (.next (out ++ [decodedAs msg msg.pbBody], next)) ∧ BufferOk next ∧
      next.writeIndex < next.size ∧ readable next = (garbage ++ (frame msg ++ rest)).drop (frameLength msg) := by
  have holds := readable_holds buf _ ok content
  have total := readable_length buf ok
  rw [content, List.length_append, List.length_append, frame_length] at total
  rw [readAble] at total
  have small := ok.fitsInt
  have scanned := scan_behind buf.buffer garbage rest _ _ msg sendable (by omega) noStart holds
  obtain ⟨next, moved, nextOk, left, sameSize, shorter⟩ :=
    move_read_index_spec buf (frameLength msg) ok (by omega) (by rw [readAble]; omega) (by omega)
  refine ⟨next, ?_, nextOk, by omega, ?_⟩
  · have parsed := parse_frame_no_text buf.buffer rest _ _ msg sendable noText
      (holds_behind buf.buffer garbage _ _ _ _ holds rfl)
    have count : buf.readIndex + garbage.length + (frameLength msg : Int) - 1 - (buf.readIndex + garbage.length) + 1 =
        frameLength msg := by omega
    simp only [decodeTurn, scanned, count, moved, parsed, Option.bind_eq_bind, Option.bind_some]
  · rw [left, content, Int.toNat_natCast]

-- The part of the frame that is still readable when as many bytes of garbage
-- stood in front of it, whole lengths of the frame not counted.
def torn (msg : TinyPBProtocol) (garbage : Bytes) : Bytes :=
  (frame msg).drop (frameLength msg - garbage.length % frameLength msg)

-- Each whole length of the frame in the garbage has the frame decoded once more.
theorem garbage_repeats (out : List TinyPBProtocol) (buf : TcpBuffer) (msg : TinyPBProtocol) (garbage tail : Bytes)
    (ok : BufferOk buf) (space : buf.writeIndex < buf.size) (sendable : Sendable msg) (noText : msg.errInfo = [])
    (noStart : PB_START ∉ garbage) (content : readable buf = garbage ++ (frame msg ++ tail)) :
    ∃ last, turns decodeTurn (garbage.length / frameLength msg + 1) (out, buf) =
        some (.next (out ++ List.replicate (garbage.length / frameLength msg + 1) (decodedAs msg msg.pbBody), last)) ∧
      BufferOk last ∧ last.writeIndex < last.size ∧ readable last = torn msg garbage ++ tail := by
  have least := frame_length_lower msg
  have width := frame_length msg
  obtain ⟨again, counted⟩ : ∃ again, again = garbage.length / frameLength msg := ⟨_, rfl⟩
  rw [← counted]
  induction again generalizing out buf garbage with
  | zero =>
      have short : garbage.length < frameLength msg := (Nat.div_eq_zero_iff_lt (by omega)).mp counted.symm
      obtain ⟨next, turn, nextOk, nextSpace, left⟩ :=
        decode_turn_behind out buf msg garbage tail ok space sendable noText noStart content
      refine ⟨next, turns_succ decodeTurn 0 _ _ turn, nextOk, nextSpace, ?_⟩
      rw [left, torn, Nat.mod_eq_of_lt short, List.drop_append, List.drop_of_length_le (by omega), List.nil_append,
        List.drop_append_of_le_length (by omega)]
  | succ again ih =>
      have long : frameLength msg ≤ garbage.length := by
        by_contra short
        rw [Nat.div_eq_of_lt (by omega)] at counted
        cases counted
      have remaining : (garbage.drop (frameLength msg)).length = garbage.length - frameLength msg := List.length_drop
      obtain ⟨next, turn, nextOk, nextSpace, left⟩ :=
        decode_turn_behind out buf msg garbage tail ok space sendable noText noStart content
      rw [List.drop_append_of_le_length long] at left
      have fewer : again = (garbage.drop (frameLength msg)).length / frameLength msg := by
        rw [remaining, Nat.div_eq_sub_div (by omega) long] at *
        omega
      obtain ⟨last, turned, lastOk, lastSpace, rest⟩ := ih (out ++ [decodedAs msg msg.pbBody]) next
        (garbage.drop (frameLength msg)) nextOk nextSpace (fun member => noStart (List.mem_of_mem_drop member)) left fewer
      refine ⟨last, ?_, lastOk, lastSpace, ?_⟩
      · rw [turns_succ decodeTurn _ _ _ turn, turned, List.append_assoc]
        rfl
      · rw [rest, torn, torn, remaining, Nat.mod_eq_sub_mod long]

theorem garbage_result (out : List TinyPBProtocol) (buf : TcpBuffer) (msg : TinyPBProtocol) (garbage tail : Bytes)
    (ok : BufferOk buf) (space : buf.writeIndex < buf.size) (sendable : Sendable msg) (noText : msg.errInfo = [])
    (noStart : PB_START ∉ garbage) (noneLeft : PB_START ∉ torn msg garbage ++ tail)
    (content : readable buf = garbage ++ (frame msg ++ tail)) :
    ∃ last, Decodes out buf
        (out ++ List.replicate (garbage.length / frameLength msg + 1) (decodedAs msg msg.pbBody), last) ∧
      readable last = torn msg garbage ++ tail := by
  obtain ⟨last, turned, lastOk, _, rest⟩ := garbage_repeats out buf msg garbage tail ok space sendable noText noStart content
  have stopped := decode_turn_no_start
    (out ++ List.replicate (garbage.length / frameLength msg + 1) (decodedAs msg msg.pbBody)) last lastOk (rest ▸ noneLeft)
  exact ⟨last, reaches_returns decodeTurn _ _ _ ⟨_, turned⟩ (returns_stop decodeTurn _ _ stopped), rest⟩

-- The message is pushed once, and from then on exactly the tail is readable.
structure Resynchronises (out : List TinyPBProtocol) (buf : TcpBuffer) (msg : TinyPBProtocol) (tail : Bytes) : Prop where
  once : ∃ last, Decodes out buf (out ++ [decodedAs msg msg.pbBody], last) ∧ readable last = tail
  behindEnd : ∀ later, Reaches decodeTurn (out, buf) later → later.1 ≠ out → readable later.2 = tail

theorem resynchronises_at_front (out : List TinyPBProtocol) (buf next : TcpBuffer) (msg : TinyPBProtocol) (tail : Bytes)
    (turn : decodeTurn (out, buf) = some (.next (out ++ [decodedAs msg msg.pbBody], next))) (nextOk : BufferOk next)
    (noStart : PB_START ∉ tail) (left : readable next = tail) : Resynchronises out buf msg tail := by
  have stopped := decode_turn_no_start (out ++ [decodedAs msg msg.pbBody]) next nextOk (left.symm ▸ noStart)
  constructor
  · exact ⟨next, returns_next decodeTurn _ _ _ turn (returns_stop decodeTurn _ _ stopped), left⟩
  · intro later reached pushed
    obtain rfl | ⟨middle, goesOn, rest⟩ := reaches_cases decodeTurn _ later reached
    · exact absurd rfl pushed
    · cases turn.symm.trans goesOn
      obtain rfl | ⟨further, goesOn, _⟩ := reaches_cases decodeTurn _ later rest
      · exact left
      · cases stopped.symm.trans goesOn

theorem resynchronises_iff (out : List TinyPBProtocol) (buf : TcpBuffer) (msg sent : TinyPBProtocol)
    (garbage bytes tail : Bytes) (ok : BufferOk buf) (space : buf.writeIndex < buf.size) (sendable : Sendable msg)
    (noText : msg.errInfo = []) (encoded : encodeTinyPB msg = some (sent, bytes)) (garbageNoStart : PB_START ∉ garbage)
    (tailNoStart : PB_START ∉ tail) (content : readable buf = garbage ++ bytes ++ tail) :
    Resynchronises out buf msg tail ↔ garbage = [] := by
  obtain ⟨_, genuine⟩ := encode_sendable msg sendable
  obtain ⟨_, rfl⟩ := Prod.mk.inj (Option.some.inj (genuine.symm.trans encoded))
  rw [List.append_assoc] at content
  obtain ⟨next, turn, nextOk, _, left⟩ :=
    decode_turn_behind out buf msg garbage tail ok space sendable noText garbageNoStart content
  constructor
  · intro resynchronises
    have exactly := resynchronises.behindEnd _ (reaches_next decodeTurn _ _ _ turn (reaches_refl decodeTurn _)) (by simp)
    rw [left] at exactly
    have widths := congrArg List.length exactly
    rw [List.length_drop, List.length_append, List.length_append, frame_length] at widths
    exact List.length_eq_zero_iff.mp (by omega)
  · rintro rfl
    rw [List.nil_append, ← frame_length, List.drop_left] at left
    exact resynchronises_at_front out buf next msg tail turn nextOk tailNoStart left

def cleanBuffer : TcpBuffer := ⟨2, 33, 40, [0, 0] ++ frame pingRequest ++ List.replicate 7 0⟩

def encodedPing : TinyPBProtocol :=
  { pingRequest with pkLength := 31, msgIdLen := 1, methodNameLen := 1, paraseSuccess := true }

theorem resynchronises_clean : Resynchronises [] cleanBuffer pingRequest [] :=
  (resynchronises_iff [] cleanBuffer pingRequest encodedPing [] (frame pingRequest) [] (by decide) (by decide) (by decide)
    rfl (by decide +kernel) (by decide) (by decide) (by decide +kernel)).mpr rfl

-- One stray byte leaves the end byte of the frame behind; as many stray bytes
-- as the frame is long have it decoded twice.
def strayBuffer (count : Nat) : TcpBuffer :=
  ⟨0, count + 31, 128, List.replicate count 0 ++ frame pingRequest ++ List.replicate (97 - count) 0⟩

theorem stray_diverges :
    Sendable pingRequest ∧ BufferOk (strayBuffer 1) ∧ readable (strayBuffer 1) = [0] ++ frame pingRequest ++ [] ∧
      ¬ Resynchronises [] (strayBuffer 1) pingRequest [] ∧
      (∃ last, Decodes [] (strayBuffer 1) ([decodedAs pingRequest pingRequest.pbBody], last) ∧ readable last = [PB_END]) ∧
      BufferOk (strayBuffer 31) ∧ readable (strayBuffer 31) = List.replicate 31 0 ++ frame pingRequest ++ [] ∧
      ∃ last, Decodes [] (strayBuffer 31) (List.replicate 2 (decodedAs pingRequest pingRequest.pbBody), last) ∧
        readable last = [] := by
  have sendable : Sendable pingRequest := by decide
  have ok : BufferOk (strayBuffer 1) := by decide +kernel
  have content : readable (strayBuffer 1) = [0] ++ (frame pingRequest ++ []) := by decide +kernel
  have longOk : BufferOk (strayBuffer 31) := by decide +kernel
  have longContent : readable (strayBuffer 31) = List.replicate 31 0 ++ (frame pingRequest ++ []) := by decide +kernel
  obtain ⟨next, turn, _, _, left⟩ := decode_turn_behind [] (strayBuffer 1) pingRequest [0] [] ok (by decide +kernel) sendable
    rfl (by decide) content
  refine ⟨sendable, ok, content, ?_, ?_, longOk, longContent, ?_⟩
  · intro resynchronises
    have exactly := resynchronises.behindEnd _ (reaches_next decodeTurn _ _ _ turn (reaches_refl decodeTurn _)) (by simp)
    rw [left] at exactly
    exact absurd exactly (by decide +kernel)
  · exact garbage_result [] (strayBuffer 1) pingRequest [0] [] ok (by decide +kernel) sendable rfl (by decide)
      (by decide +kernel) content
  · exact garbage_result [] (strayBuffer 31) pingRequest (List.replicate 31 0) [] longOk (by decide +kernel) sendable rfl
      (by decide +kernel) (by decide +kernel) longContent

end Rocket
