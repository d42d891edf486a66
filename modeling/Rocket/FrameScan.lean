import Rocket.TinyPBDecoder

set_option autoImplicit false

namespace Rocket

open Memory Word32

theorem net_byte_range (tmp : Bytes) (index value : Int) (read : getInt32FromNetByte tmp index = some value) :
    InRange value := by
  rw [getInt32FromNetByte, Option.map_eq_some_iff] at read
  obtain ⟨bytes, _, rfl⟩ := read
  exact narrow_range _

-- The bytes at the start of the frame are what the scan stops for. Nothing
-- bounds the length from below.
structure IsFrame (tmp : Bytes) (hi : Int) (frame : Frame) : Prop where
  start : cell tmp frame.startIndex = some PB_START
  inside : frame.startIndex + 1 < hi
  length : getInt32FromNetByte tmp (frame.startIndex + 1) = some frame.pkLen
  sumRange : InRange (frame.startIndex + frame.pkLen)
  endRange : InRange (frame.startIndex + frame.pkLen - 1)
  endIndex : frame.endIndex = frame.startIndex + frame.pkLen - 1
  before : frame.endIndex < hi
  last : cell tmp frame.endIndex = some PB_END

-- A start byte is passed over when its length leads behind the data or to a
-- byte other than PB_END.
structure NoFrame (tmp : Bytes) (hi pos pkLen : Int) : Prop where
  length : getInt32FromNetByte tmp (pos + 1) = some pkLen
  sumRange : InRange (pos + pkLen)
  endRange : InRange (pos + pkLen - 1)
  noEnd : pos + pkLen - 1 ≥ hi ∨ ∃ last, cell tmp (pos + pkLen - 1) = some last ∧ last ≠ PB_END

def PassedOver (tmp : Bytes) (hi pos : Int) : Prop :=
  ∃ byte, cell tmp pos = some byte ∧ (byte = PB_START ∧ pos + 1 < hi → ∃ pkLen, NoFrame tmp hi pos pkLen)

structure FirstFrame (tmp : Bytes) (lo hi : Int) (frame : Frame) : Prop where
  isFrame : IsFrame tmp hi frame
  lower : lo ≤ frame.startIndex
  earlier : ∀ pos, lo ≤ pos → pos < frame.startIndex → PassedOver tmp hi pos

theorem scan_from_frame (tmp : Bytes) (hi : Int) (left : Nat) (frame : Frame) (isFrame : IsFrame tmp hi frame) :
    scanFrom tmp hi (left + 1) frame.startIndex = some (some frame) := by
  obtain ⟨start, inside, length, sumRange, endRange, same, before, last⟩ := isFrame
  rw [same] at before last
  have inFront : ¬ frame.startIndex + frame.pkLen - 1 ≥ hi := by omega
  simp only [scanFrom, start, inside, length, checked_some _ sumRange, checked_some _ endRange, last, inFront,
    Option.bind_eq_bind, Option.bind_some, and_self, if_true, if_false]
  rw [← same]

theorem scan_from_passed (tmp : Bytes) (hi pos : Int) (left : Nat) (passed : PassedOver tmp hi pos) :
    scanFrom tmp hi (left + 1) pos = scanFrom tmp hi left (pos + 1) := by
  obtain ⟨byte, found, noFrame⟩ := passed
  simp only [scanFrom, found, Option.bind_eq_bind, Option.bind_some]
  by_cases starts : byte = PB_START ∧ pos + 1 < hi
  · obtain ⟨pkLen, length, sumRange, endRange, noEnd⟩ := noFrame starts
    simp only [if_pos starts, length, checked_some _ sumRange, checked_some _ endRange, Option.bind_some]
    by_cases behind : pos + pkLen - 1 ≥ hi
    · rw [if_pos behind]
    · obtain ⟨last, atEnd, other⟩ := noEnd.resolve_left behind
      simp only [if_neg behind, atEnd, Option.bind_some, if_neg other]
  · rw [if_neg starts]

theorem scan_from_cases (tmp : Bytes) (hi pos : Int) (left : Nat) (found : Option Frame)
    (scanned : scanFrom tmp hi (left + 1) pos = some found) :
    (∃ frame, found = some frame ∧ frame.startIndex = pos ∧ IsFrame tmp hi frame) ∨ PassedOver tmp hi pos := by
  simp only [scanFrom, Option.bind_eq_bind, Option.bind_eq_some_iff] at scanned
  obtain ⟨byte, first, scanned⟩ := scanned
  by_cases starts : byte = PB_START ∧ pos + 1 < hi
  · simp only [if_pos starts, Option.bind_eq_some_iff, checked_eq_some] at scanned
    obtain ⟨pkLen, length, sum, ⟨sumRange, rfl⟩, j, ⟨endRange, rfl⟩, scanned⟩ := scanned
    by_cases behind : pos + pkLen - 1 ≥ hi
    · exact Or.inr ⟨byte, first, fun _ => ⟨pkLen, length, sumRange, endRange, Or.inl behind⟩⟩
    · simp only [if_neg behind, Option.bind_eq_some_iff] at scanned
      obtain ⟨last, atEnd, scanned⟩ := scanned
      by_cases ends : last = PB_END
      · rw [if_pos ends] at scanned
        cases scanned
        refine Or.inl ⟨_, rfl, rfl, ?_⟩
        exact ⟨starts.1 ▸ first, starts.2, length, sumRange, endRange, rfl, by simp only; omega, ends ▸ atEnd⟩
      · exact Or.inr ⟨byte, first, fun _ => ⟨pkLen, length, sumRange, endRange, Or.inr ⟨last, atEnd, ends⟩⟩⟩
  · exact Or.inr ⟨byte, first, fun wrong => absurd wrong starts⟩

theorem scan_from_first (tmp : Bytes) (hi pos : Int) (left : Nat) (frame : Frame)
    (scanned : scanFrom tmp hi left pos = some (some frame)) : FirstFrame tmp pos hi frame := by
  induction left generalizing pos with
  | zero => cases scanned
  | succ left ih =>
      obtain ⟨other, same, here, isFrame⟩ | passed := scan_from_cases tmp hi pos left (some frame) scanned
      · cases same
        exact ⟨isFrame, Int.le_of_eq here.symm, fun earlier lower upper => by omega⟩
      · rw [scan_from_passed tmp hi pos left passed] at scanned
        obtain ⟨isFrame, lower, earlier⟩ := ih (pos + 1) scanned
        refine ⟨isFrame, by omega, ?_⟩
        intro position atLeast upper
        obtain rfl | further : position = pos ∨ pos + 1 ≤ position := by omega
        · exact passed
        · exact earlier position further upper

theorem first_frame_scan_from (tmp : Bytes) (hi pos : Int) (left : Nat) (frame : Frame)
    (first : FirstFrame tmp pos hi frame) (room : frame.startIndex < pos + left) :
    scanFrom tmp hi left pos = some (some frame) := by
  induction left generalizing pos with
  | zero =>
      have lower := first.lower
      omega
  | succ left ih =>
      obtain here | further : frame.startIndex = pos ∨ pos + 1 ≤ frame.startIndex := by
        have lower := first.lower
        omega
      · rw [← here]
        exact scan_from_frame tmp hi left frame first.isFrame
      · rw [scan_from_passed tmp hi pos left (first.earlier pos (Int.le_refl pos) (by omega))]
        apply ih
        · exact ⟨first.isFrame, further, fun position lower upper => first.earlier position (by omega) upper⟩
        · omega

theorem scan_first_frame (tmp : Bytes) (lo hi : Int) (frame : Frame) :
    scan tmp lo hi = some (some frame) ↔ FirstFrame tmp lo hi frame := by
  constructor
  · exact scan_from_first tmp hi lo (hi - lo).toNat frame
  · intro first
    apply first_frame_scan_from tmp hi lo _ frame first
    have inside := first.isFrame.inside
    have lower := first.lower
    omega

end Rocket
