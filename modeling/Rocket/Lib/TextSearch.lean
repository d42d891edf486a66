import Mathlib.Data.List.Infix

set_option autoImplicit false

namespace TextSearch

variable {α : Type}

-- Two occurrences never overlap.
def Borderless (pattern : List α) : Prop :=
  pattern ≠ [] ∧ ∀ border ∈ pattern.inits, border <:+ pattern → border = [] ∨ border = pattern

-- An element that is not in the pattern keeps what stands on its two sides
-- apart.
theorem free_behind (pattern front back : List α) (c : α) (last : front.getLast? = some c) (outside : c ∉ pattern)
    (frontFree : ¬pattern <:+: front) (backFree : ¬pattern <:+: back) : ¬pattern <:+: front ++ back := by
  intro inside
  rcases List.infix_append_iff.mp inside with before | behind | ⟨first, second, rfl, ends, begins⟩
  · exact frontFree before
  · exact backFree behind
  · rcases List.eq_nil_or_concat first with rfl | ⟨rest, d, rfl⟩
    · exact backFree begins.isInfix
    · obtain ⟨passed, rfl⟩ := ends
      rw [List.concat_eq_append, ← List.append_assoc, List.getLast?_concat] at last
      cases last
      simp at outside

theorem free_before (pattern front back : List α) (c : α) (first : back.head? = some c) (outside : c ∉ pattern)
    (frontFree : ¬pattern <:+: front) (backFree : ¬pattern <:+: back) : ¬pattern <:+: front ++ back := by
  intro inside
  rcases List.infix_append_iff.mp inside with before | behind | ⟨ends, begins, rfl, suffix, starts⟩
  · exact frontFree before
  · exact backFree behind
  · cases begins with
    | nil =>
        rw [List.append_nil] at frontFree
        exact frontFree suffix.isInfix
    | cons d ds =>
        obtain ⟨passed, rfl⟩ := starts
        cases first
        exact outside (List.mem_append_right ends List.mem_cons_self)

theorem infix_trailing (pattern front : List α) (c : α) (last : pattern.getLast? ≠ some c) (inside : pattern <:+: front ++ [c]) :
    pattern <:+: front := by
  rcases List.infix_concat_iff.mp inside with ends | before
  · rcases List.suffix_concat_iff.mp ends with empty | ⟨rest, same, _⟩
    · rw [empty]
      exact List.nil_infix
    · rw [same, List.getLast?_concat] at last
      exact absurd rfl last
  · exact before

-- An occurrence that begins in front would overlap the one behind it.
theorem not_prefix_overlap (pattern front back : List α) (borderless : Borderless pattern) (free : ¬pattern <:+: front)
    (nonempty : front ≠ []) : ¬pattern <+: front ++ (pattern ++ back) := by
  intro begins
  by_cases short : pattern.length ≤ front.length
  · exact free (List.prefix_of_prefix_length_le begins (List.prefix_append front _) short).isInfix
  · obtain ⟨border, rfl⟩ := List.prefix_of_prefix_length_le (List.prefix_append front _) begins (by omega)
    have overlaps : border <+: front ++ border := by
      have further := (List.prefix_append_right_inj front).mp begins
      exact List.prefix_of_prefix_length_le further (List.prefix_append _ back) (by simp)
    rcases borderless.2 border ((List.mem_inits _ _).mpr overlaps) (List.suffix_append front border) with empty | whole
    · rw [empty, List.append_nil] at short
      exact short (Nat.le_refl _)
    · exact nonempty (List.self_eq_append_left.mp whole)

variable [DecidableEq α]

instance (pattern : List α) : Decidable (Borderless pattern) :=
  inferInstanceAs (Decidable (pattern ≠ [] ∧ ∀ border ∈ pattern.inits, border <:+ pattern → border = [] ∨ border = pattern))

-- The index at which the pattern begins for the first time.
def find (pattern : List α) : List α → Option Nat
  | [] => if pattern = [] then some 0 else none
  | c :: cs => if pattern <+: c :: cs then some 0 else (find pattern cs).map (· + 1)

-- Occurrences are replaced from the left, and what replaces one is not looked
-- at again. skip counts the elements of an occurrence that are still to pass.
def replaceFrom (old new : List α) : Nat → List α → List α
  | _, [] => []
  | skip + 1, _ :: cs => replaceFrom old new skip cs
  | 0, c :: cs =>
      if old <+: c :: cs then new ++ replaceFrom old new (old.length - 1) cs else c :: replaceFrom old new 0 cs

def replace (old new text : List α) : List α := replaceFrom old new 0 text

theorem find_none (pattern text : List α) (free : ¬pattern <:+: text) : find pattern text = none := by
  induction text with
  | nil =>
      rw [List.infix_nil] at free
      exact if_neg free
  | cons c cs ih =>
      rw [List.infix_cons_iff, not_or] at free
      rw [find, if_neg free.1, ih free.2, Option.map_none]

theorem find_first (pattern front back : List α) (borderless : Borderless pattern) (free : ¬pattern <:+: front) :
    find pattern (front ++ (pattern ++ back)) = some front.length := by
  induction front with
  | nil =>
      rw [List.nil_append]
      cases pattern with
      | nil => exact absurd rfl borderless.1
      | cons d ds =>
          exact if_pos (List.prefix_append (d :: ds) back)
  | cons c cs ih =>
      have notHere := not_prefix_overlap pattern (c :: cs) back borderless free (List.cons_ne_nil c cs)
      rw [List.infix_cons_iff, not_or] at free
      rw [List.cons_append] at notHere ⊢
      rw [find, if_neg notHere, ih free.2, Option.map_some, List.length_cons]

theorem find_inside (pattern front back : List α) (inside : pattern <:+: front) :
    ∃ index, find pattern (front ++ back) = some index ∧ index + pattern.length ≤ front.length := by
  induction front with
  | nil =>
      rw [List.infix_nil] at inside
      subst inside
      refine ⟨0, ?_, Nat.le_refl 0⟩
      cases back with
      | nil => rfl
      | cons c cs => exact if_pos List.nil_prefix
  | cons c cs ih =>
      by_cases here : pattern <+: c :: (cs ++ back)
      · exact ⟨0, if_pos here, by rw [Nat.zero_add]; exact inside.length_le⟩
      · rcases List.infix_cons_iff.mp inside with begins | further
        · exact absurd (begins.trans (List.prefix_append (c :: cs) back)) here
        · obtain ⟨index, found, within⟩ := ih further
          refine ⟨index + 1, ?_, by rw [List.length_cons]; omega⟩
          rw [List.cons_append, find, if_neg here, found, Option.map_some]

theorem replace_free (old new text : List α) (free : ¬old <:+: text) : replace old new text = text := by
  rw [replace]
  induction text with
  | nil => rfl
  | cons c cs ih =>
      rw [List.infix_cons_iff, not_or] at free
      rw [replaceFrom, if_neg free.1, ih free.2]

-- What is replaced by nothing is only left out.
theorem replace_sublist (old text : List α) (skip : Nat) : (replaceFrom old [] skip text).Sublist text := by
  induction text generalizing skip with
  | nil =>
      cases skip <;> exact List.Sublist.refl []
  | cons c cs ih =>
      cases skip with
      | succ skip => exact (ih skip).cons c
      | zero =>
          rw [replaceFrom]
          split
          · exact (ih (old.length - 1)).cons c
          · exact (ih 0).cons_cons c

theorem replace_skip (old new passed rest : List α) :
    replaceFrom old new passed.length (passed ++ rest) = replaceFrom old new 0 rest := by
  induction passed with
  | nil => rfl
  | cons c passed ih => exact ih

theorem replace_first (old new front back : List α) (borderless : Borderless old) (free : ¬old <:+: front) :
    replace old new (front ++ (old ++ back)) = front ++ (new ++ replace old new back) := by
  rw [replace]
  induction front with
  | nil =>
      cases old with
      | nil => exact absurd rfl borderless.1
      | cons d ds =>
          have here : d :: ds <+: d :: (ds ++ back) := List.prefix_append (d :: ds) back
          rw [List.nil_append, List.nil_append, List.cons_append, replaceFrom, if_pos here]
          exact congrArg (new ++ ·) (replace_skip (d :: ds) new ds back)
  | cons c cs ih =>
      have notHere := not_prefix_overlap old (c :: cs) back borderless free (List.cons_ne_nil c cs)
      rw [List.infix_cons_iff, not_or] at free
      rw [List.cons_append] at notHere ⊢
      rw [replaceFrom, if_neg notHere, ih free.2]
      rfl

end TextSearch
