import Mathlib.Data.List.Basic

set_option autoImplicit false

namespace Ownership

variable {α : Type} (holds : α → Bool)

-- The references to one shared object: a local variable may hold one, and so
-- may each object of a table.
def references (temporary : Bool) (table : List α) : Nat := temporary.toNat + table.countP holds

theorem references_append (temporary : Bool) (table : List α) (fresh : α) :
    references holds temporary (table ++ [fresh]) = references holds temporary table + (holds fresh).toNat := by
  cases held : holds fresh with
  | false => simp [references, held]
  | true => simp [references, held, Nat.add_assoc]

theorem references_replace (temporary : Bool) (table : List α) (index : Nat) (old fresh : α)
    (access : table[index]? = some old) :
    references holds temporary (table.set index fresh) + (holds old).toNat =
      references holds temporary table + (holds fresh).toNat := by
  obtain ⟨inside, same⟩ := List.getElem?_eq_some_iff.mp access
  have count := List.countP_set (p := holds) (a := fresh) inside
  have positive : holds old = true → 0 < table.countP holds := by
    intro held
    exact List.countP_pos_iff.mpr ⟨old, List.mem_of_getElem? access, held⟩
  rw [same] at count
  simp only [references, count]
  cases before : holds old with
  | false =>
      cases after : holds fresh with
      | false => simp
      | true => simp [Nat.add_assoc]
  | true =>
      have least := positive before
      cases after : holds fresh with
      | false =>
          simp only [if_true, Bool.false_eq_true, if_false, Bool.toNat_true, Bool.toNat_false]
          omega
      | true =>
          simp only [if_true, Bool.toNat_true]
          omega

theorem references_held (temporary : Bool) (table : List α) (index : Nat) (object : α)
    (access : table[index]? = some object) (held : holds object = true) :
    ∃ others, references holds temporary table = others + 1 := by
  have positive := List.countP_pos_iff.mpr ⟨object, List.mem_of_getElem? access, held⟩
  refine Nat.exists_eq_succ_of_ne_zero ?_
  rw [references]
  omega

theorem references_temporary (table : List α) :
    references holds true table = references holds false table + 1 := by
  rw [references, references, Bool.toNat_true, Bool.toNat_false]
  omega

theorem references_none (temporary : Bool) (table : List α) :
    references holds temporary table = 0 ↔ temporary = false ∧ ∀ object ∈ table, holds object = false := by
  rw [references, Nat.add_eq_zero_iff, List.countP_eq_zero]
  simp

end Ownership
