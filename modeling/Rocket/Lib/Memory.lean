import Mathlib.Data.List.Basic

set_option autoImplicit false

namespace Memory

variable {α : Type}

-- Positions and counts are integers because C++ computes them with signed
-- arithmetic. An access outside the allocated cells has no defined result.
def cell (cells : List α) (pos : Int) : Option α :=
  if 0 ≤ pos then cells[pos.toNat]? else none

def slice (cells : List α) (pos count : Int) : Option (List α) :=
  if 0 ≤ pos ∧ 0 ≤ count ∧ pos + count ≤ cells.length then
    some ((cells.drop pos.toNat).take count.toNat)
  else none

def blit (cells : List α) (pos : Int) (data : List α) : Option (List α) :=
  if 0 ≤ pos ∧ pos + data.length ≤ cells.length then
    some (cells.take pos.toNat ++ data ++ cells.drop (pos.toNat + data.length))
  else none

def window (cells : List α) (lo hi : Int) : List α :=
  (cells.drop lo.toNat).take (hi - lo).toNat

@[simp] theorem window_empty (cells : List α) (lo : Int) : window cells lo lo = [] := by
  simp [window]

theorem window_length (cells : List α) (lo hi : Int) (lower : 0 ≤ lo) (order : lo ≤ hi)
    (upper : hi ≤ cells.length) : ((window cells lo hi).length : Int) = hi - lo := by
  simp only [window, List.length_take, List.length_drop]
  omega

theorem slice_window (cells : List α) (lo hi : Int) (lower : 0 ≤ lo) (order : lo ≤ hi)
    (upper : hi ≤ cells.length) : slice cells lo (hi - lo) = some (window cells lo hi) := by
  rw [slice, if_pos ⟨lower, by omega, by omega⟩]
  rfl

theorem window_split (cells : List α) (lo mid hi : Int) (lower : 0 ≤ lo) (left : lo ≤ mid)
    (right : mid ≤ hi) : window cells lo hi = window cells lo mid ++ window cells mid hi := by
  have total : (hi - lo).toNat = (mid - lo).toNat + (hi - mid).toNat := by omega
  have start : mid.toNat = lo.toNat + (mid - lo).toNat := by omega
  simp only [window, total, start, List.take_add, List.drop_drop]

theorem slice_length (cells data : List α) (pos count : Int) (found : slice cells pos count = some data) :
    (data.length : Int) = count := by
  rw [slice] at found
  split at found
  · cases found
    simp only [List.length_take, List.length_drop]
    omega
  · cases found

theorem slice_some (cells data : List α) (pos count : Int) (found : slice cells pos count = some data) :
    0 ≤ pos ∧ 0 ≤ count ∧ pos + count ≤ cells.length ∧ data = window cells pos (pos + count) := by
  rw [slice] at found
  split at found
  · rename_i inside
    cases found
    have width : pos + count - pos = count := by omega
    exact ⟨inside.1, inside.2.1, inside.2.2, by rw [window, width]⟩
  · cases found

theorem window_cell (cells : List α) (pos : Int) (value : α) (found : cell cells pos = some value) :
    0 ≤ pos ∧ pos < cells.length ∧ window cells pos (pos + 1) = [value] := by
  rw [cell] at found
  split at found
  · rename_i lower
    obtain ⟨inside, rfl⟩ := List.getElem?_eq_some_iff.mp found
    refine ⟨lower, by omega, ?_⟩
    have width : (pos + 1 - pos).toNat = 1 := by omega
    rw [window, width, List.drop_eq_getElem_cons inside, List.take_succ_cons, List.take_zero]
  · cases found

theorem window_inside (cells : List α) (start stop lo hi : Int) (startLower : 0 ≤ start) (lower : 0 ≤ lo)
    (upper : start + hi ≤ stop) : window (window cells start stop) lo hi = window cells (start + lo) (start + hi) := by
  have count : start + hi - (start + lo) = hi - lo := by omega
  have from_start : start.toNat + lo.toNat = (start + lo).toNat := by omega
  simp only [window, List.drop_take, List.take_take, List.drop_drop, from_start, count]
  congr 1
  omega

theorem cell_inside (cells : List α) (start stop pos : Int) (startLower : 0 ≤ start) (lower : 0 ≤ pos)
    (before : start + pos < stop) : cell (window cells start stop) pos = cell cells (start + pos) := by
  have place : start.toNat + pos.toNat = (start + pos).toNat := by omega
  rw [cell, cell, if_pos lower, if_pos (by omega : 0 ≤ start + pos), window, List.getElem?_take_of_lt (by omega),
    List.getElem?_drop, place]

-- The cells from pos to hi hold the given content. A parser reads a field at
-- the front of it and goes on behind the field.
structure Holds (cells : List α) (pos hi : Int) (content : List α) : Prop where
  lower : 0 ≤ pos
  order : pos ≤ hi
  upper : hi ≤ cells.length
  content : window cells pos hi = content

theorem holds_length (cells content : List α) (pos hi : Int) (holds : Holds cells pos hi content) :
    (content.length : Int) = hi - pos := by
  rw [← holds.content]
  exact window_length cells pos hi holds.lower holds.order holds.upper

theorem holds_split (cells data after : List α) (pos hi : Int) (holds : Holds cells pos hi (data ++ after)) :
    Holds cells pos (pos + data.length) data ∧ Holds cells (pos + data.length) hi after := by
  have total := holds_length cells _ pos hi holds
  rw [List.length_append] at total
  have lower := holds.lower
  have upper := holds.upper
  have parts := window_split cells pos (pos + data.length) hi lower (by omega) (by omega)
  rw [holds.content] at parts
  have width := window_length cells pos (pos + data.length) lower (by omega) (by omega)
  obtain ⟨left, right⟩ := List.append_inj parts (by omega)
  exact ⟨⟨lower, by omega, by omega, left.symm⟩, ⟨by omega, by omega, upper, right.symm⟩⟩

theorem holds_behind (cells data after : List α) (pos next hi : Int) (holds : Holds cells pos hi (data ++ after))
    (position : next = pos + data.length) : Holds cells next hi after := by
  rw [position]
  exact (holds_split cells data after pos hi holds).2

theorem holds_slice (cells data after : List α) (pos count hi : Int) (holds : Holds cells pos hi (data ++ after))
    (width : count = data.length) : slice cells pos count = some data := by
  obtain ⟨field, _⟩ := holds_split cells data after pos hi holds
  have found := slice_window cells pos (pos + data.length) field.lower field.order field.upper
  have span : pos + (data.length : Int) - pos = count := by omega
  rwa [span, field.content] at found

theorem holds_cell (cells after : List α) (value : α) (pos hi : Int) (holds : Holds cells pos hi (value :: after)) :
    cell cells pos = some value := by
  have total := holds_length cells _ pos hi holds
  have lower := holds.lower
  have upper := holds.upper
  rw [List.length_cons] at total
  have inside : pos.toNat < cells.length := by omega
  have head := congrArg List.head? holds.content
  simp only [window, List.head?_take, List.head?_drop, List.head?_cons] at head
  rw [if_neg (by omega), List.getElem?_eq_getElem inside] at head
  rw [cell, if_pos lower, List.getElem?_eq_getElem inside]
  exact head

theorem blit_some (cells data : List α) (pos : Int) (lower : 0 ≤ pos)
    (upper : pos + data.length ≤ cells.length) :
    blit cells pos data = some (cells.take pos.toNat ++ data ++ cells.drop (pos.toNat + data.length)) :=
  if_pos ⟨lower, upper⟩

theorem blit_replace (cells data : List α) (same : data.length = cells.length) : blit cells 0 data = some data := by
  rw [blit_some cells data 0 (Int.le_refl 0) (by omega)]
  simp [same]

theorem blit_length (cells data fresh : List α) (pos : Int) (written : blit cells pos data = some fresh) :
    fresh.length = cells.length := by
  rw [blit] at written
  split at written
  · cases written
    simp only [List.length_append, List.length_take, List.length_drop]
    omega
  · cases written

theorem blit_bounds (cells data fresh : List α) (pos : Int) (written : blit cells pos data = some fresh) :
    0 ≤ pos ∧ pos + data.length ≤ cells.length := by
  rw [blit] at written
  split at written
  · assumption
  · cases written

theorem blit_parts (cells data fresh : List α) (pos : Int) (written : blit cells pos data = some fresh) :
    fresh = cells.take pos.toNat ++ data ++ cells.drop (pos.toNat + data.length) ∧
      (cells.take pos.toNat).length = pos.toNat ∧ pos.toNat + data.length ≤ cells.length := by
  obtain ⟨lower, upper⟩ := blit_bounds cells data fresh pos written
  rw [blit_some cells data pos lower upper] at written
  refine ⟨(Option.some.inj written).symm, ?_, by omega⟩
  rw [List.length_take]
  omega

theorem window_blit_end (cells data fresh : List α) (lo pos : Int) (lower : 0 ≤ lo) (order : lo ≤ pos)
    (written : blit cells pos data = some fresh) :
    window fresh lo (pos + data.length) = window cells lo pos ++ data := by
  obtain ⟨rfl, prefixLength, inside⟩ := blit_parts cells data fresh pos written
  have total : (pos + (data.length : Int) - lo).toNat = (pos - lo).toNat + data.length := by omega
  have width : pos.toNat - lo.toNat = (pos - lo).toNat := by omega
  simp only [window, List.append_assoc, total]
  rw [List.drop_append_of_le_length (by omega), List.drop_take, width, ← List.append_assoc,
    List.take_append_of_le_length (by simp only [List.length_append, List.length_take, List.length_drop]; omega)]
  apply List.take_of_length_le
  simp only [List.length_append, List.length_take, List.length_drop]
  omega

theorem window_blit_behind (cells data fresh : List α) (lo hi pos : Int) (lower : 0 ≤ lo) (order : lo ≤ hi)
    (behind : hi ≤ pos) (written : blit cells pos data = some fresh) :
    window fresh lo hi = window cells lo hi := by
  obtain ⟨rfl, prefixLength, inside⟩ := blit_parts cells data fresh pos written
  simp only [window, List.append_assoc]
  rw [List.drop_append_of_le_length (by omega), List.take_append_of_le_length
    (by simp only [List.length_drop, prefixLength]; omega), List.drop_take, List.take_take]
  congr 1
  omega

theorem window_blit_start (cells data fresh : List α) (written : blit cells 0 data = some fresh) :
    window fresh 0 data.length = data := by
  simpa using window_blit_end cells data fresh 0 0 (by omega) (by omega) written

end Memory
