import Mathlib.Data.List.Sort

set_option autoImplicit false

namespace MultiMap

variable {α κ : Type} [LinearOrder κ] (key : α → κ)

-- A multimap as its list of entries. A new entry goes behind the ones that have
-- its key already.
def emplace (entry : α) (entries : List α) : List α :=
  entries.orderedInsert (fun left right => key left < key right) entry

theorem emplace_perm (entry : α) (entries : List α) : (emplace key entry entries).Perm (entry :: entries) :=
  List.perm_orderedInsert _ entry entries

theorem mem_emplace (entry other : α) (entries : List α) :
    other ∈ emplace key entry entries ↔ other = entry ∨ other ∈ entries :=
  List.mem_orderedInsert _

-- By key, and among equal keys by age.
def Earlier (older : α → α → Prop) (left right : α) : Prop :=
  key left < key right ∨ key left = key right ∧ older left right

theorem earlier_le (older : α → α → Prop) (left right : α) (earlier : Earlier key older left right) :
    key left ≤ key right := by
  rcases earlier with less | ⟨same, _⟩
  · exact le_of_lt less
  · exact le_of_eq same

theorem emplace_ordered (older : α → α → Prop) (entry : α) (entries : List α)
    (ordered : entries.Pairwise (Earlier key older)) (latest : ∀ other ∈ entries, older other entry) :
    (emplace key entry entries).Pairwise (Earlier key older) := by
  induction entries with
  | nil => exact List.pairwise_singleton _ entry
  | cons head tail ih =>
      have here := latest head List.mem_cons_self
      obtain ⟨first, rest⟩ := List.pairwise_cons.mp ordered
      by_cases before : key entry < key head
      · rw [emplace, List.orderedInsert_cons, if_pos before]
        refine List.pairwise_cons.mpr ⟨?_, ordered⟩
        intro other member
        rcases List.mem_cons.mp member with same | inTail
        · exact Or.inl (same ▸ before)
        · exact Or.inl (lt_of_lt_of_le before (earlier_le key older head other (first other inTail)))
      · rw [emplace, List.orderedInsert_cons, if_neg before]
        refine List.pairwise_cons.mpr ⟨?_, ih rest (fun other inTail => latest other (List.mem_cons_of_mem head inTail))⟩
        intro other member
        rcases (mem_emplace key entry other tail).mp member with same | inTail
        · subst same
          rcases lt_or_eq_of_le (le_of_not_gt before) with less | same
          · exact Or.inl less
          · exact Or.inr ⟨same, here⟩
        · exact first other inTail

theorem take_bounded (bound : κ) (entries : List α) (ordered : entries.Pairwise (fun left right => key left ≤ key right)) :
    entries.takeWhile (fun entry => decide (key entry ≤ bound)) = entries.filter (fun entry => decide (key entry ≤ bound)) ∧
      entries.dropWhile (fun entry => decide (key entry ≤ bound)) =
        entries.filter (fun entry => decide (bound < key entry)) := by
  induction entries with
  | nil => exact ⟨rfl, rfl⟩
  | cons head tail ih =>
      obtain ⟨first, rest⟩ := List.pairwise_cons.mp ordered
      obtain ⟨taken, dropped⟩ := ih rest
      by_cases inside : key head ≤ bound
      · have kept : ¬ bound < key head := not_lt_of_ge inside
        simp [inside, kept, taken, dropped]
      · -- Behind an entry above the bound there are only such entries.
        have above : ∀ other ∈ tail, bound < key other :=
          fun other member => lt_of_lt_of_le (lt_of_not_ge inside) (first other member)
        have none : tail.filter (fun entry => decide (key entry ≤ bound)) = [] :=
          List.filter_eq_nil_iff.mpr (fun other member => by simpa using above other member)
        have all : tail.filter (fun entry => decide (bound < key entry)) = tail :=
          List.filter_eq_self.mpr (fun other member => by simpa using above other member)
        simp [inside, lt_of_not_ge inside, none, all]

end MultiMap
