import Mathlib.Data.List.Induction
import Mathlib.Data.Nat.Digits.Defs

set_option autoImplicit false

namespace Numeral

-- Positional numerals with the most significant digit first.
def value (base : Nat) (digits : List Nat) : Nat := Nat.ofDigits base digits.reverse

theorem value_append (base : Nat) (high low : List Nat) :
    value base (high ++ low) = value base low + base ^ low.length * value base high := by
  rw [value, List.reverse_append, Nat.ofDigits_append, List.length_reverse]
  rfl

theorem value_cons (base digit : Nat) (low : List Nat) :
    value base (digit :: low) = value base low + base ^ low.length * digit := by
  rw [show digit :: low = [digit] ++ low from rfl, value_append, value, value, List.reverse_singleton, Nat.ofDigits_singleton]

theorem value_zeros (base count : Nat) : value base (List.replicate count 0) = 0 := by
  rw [value, List.reverse_replicate, Nat.ofDigits_replicate_zero]

theorem value_last (base count : Nat) (positive : 0 < base) :
    value base (List.replicate count (base - 1)) + 1 = base ^ count := by
  induction count with
  | zero => rfl
  | succ count ih =>
      obtain ⟨less, rfl⟩ : ∃ less, base = less + 1 := ⟨base - 1, by omega⟩
      rw [List.replicate_succ, value_cons, List.length_replicate, Nat.add_right_comm, ih, Nat.add_sub_cancel, Nat.pow_succ,
        Nat.mul_add, Nat.mul_one, Nat.add_comm]

-- The last digits roll over and the digit in front of them goes up by one.
theorem value_carry (base digit count : Nat) (high : List Nat) (positive : 0 < base) :
    value base (high ++ (digit + 1) :: List.replicate count 0) =
      value base (high ++ digit :: List.replicate count (base - 1)) + 1 := by
  have last := value_last base count positive
  rw [value_append, value_append, value_cons, value_cons, value_zeros]
  simp only [List.length_cons, List.length_replicate]
  rw [Nat.mul_add, Nat.mul_one, ← last]
  omega

theorem trailing_cases {α : Type} (last : α) (digits : List α) :
    digits = List.replicate digits.length last ∨
      ∃ high digit count, digit ≠ last ∧ digits = high ++ digit :: List.replicate count last := by
  induction digits using List.reverseRecOn with
  | nil => exact Or.inl rfl
  | append_singleton digits digit ih =>
      by_cases same : digit = last
      · subst digit
        obtain all | ⟨high, digit, count, different, shape⟩ := ih
        · refine Or.inl ?_
          rw [List.length_append, List.length_singleton, List.replicate_succ', ← all]
        · refine Or.inr ⟨high, digit, count + 1, different, ?_⟩
          rw [shape, List.replicate_succ', List.append_assoc, List.cons_append]
      · exact Or.inr ⟨digits, digit, 0, same, rfl⟩

end Numeral
