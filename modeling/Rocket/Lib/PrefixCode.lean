import Mathlib.InformationTheory.Coding.UniquelyDecodable

set_option autoImplicit false

namespace PrefixCode

open InformationTheory

variable {α γ δ σ : Type}

-- Whatever follows two codewords, they are told apart by their contents alone
-- and what follows is left over.
def Determines (valid : α → Prop) (content : α → γ) (code : α → List σ) : Prop :=
  ∀ one other rest others, valid one → valid other → code one ++ rest = code other ++ others →
    content one = content other ∧ rest = others

theorem determines_width (valid : α → Prop) (content : α → γ) (code : α → List σ) (width : Nat)
    (fixed : ∀ one, (code one).length = width)
    (same : ∀ one other, valid one → valid other → code one = code other → content one = content other) :
    Determines valid content code := by
  intro one other rest others oneValid otherValid equal
  obtain ⟨front, back⟩ := List.append_inj equal (by rw [fixed, fixed])
  exact ⟨same one other oneValid otherValid front, back⟩

theorem determines_map (valid : α → Prop) (content : α → γ) (code : α → List σ) (view : γ → δ)
    (determines : Determines valid content code) : Determines valid (fun one => view (content one)) code := by
  intro one other rest others oneValid otherValid equal
  obtain ⟨same, back⟩ := determines one other rest others oneValid otherValid equal
  exact ⟨congrArg view same, back⟩

theorem determines_append (valid : α → Prop) (left : α → γ) (right : α → δ) (front back : α → List σ)
    (first : Determines valid left front) (second : Determines valid right back) :
    Determines valid (fun one => (left one, right one)) (fun one => front one ++ back one) := by
  intro one other rest others oneValid otherValid equal
  rw [List.append_assoc, List.append_assoc] at equal
  obtain ⟨sameLeft, behind⟩ := first one other _ _ oneValid otherValid equal
  obtain ⟨sameRight, last⟩ := second one other rest others oneValid otherValid behind
  exact ⟨Prod.ext sameLeft sameRight, last⟩

-- A field without a length of its own, when the fields before it give the length.
theorem determines_sized (valid : α → Prop) (left : α → γ) (front field : α → List σ) (first : Determines valid left front)
    (sized : ∀ one other, valid one → valid other → left one = left other → (field one).length = (field other).length) :
    Determines valid (fun one => (left one, field one)) (fun one => front one ++ field one) := by
  intro one other rest others oneValid otherValid equal
  rw [List.append_assoc, List.append_assoc] at equal
  obtain ⟨sameLeft, behind⟩ := first one other _ _ oneValid otherValid equal
  obtain ⟨sameField, last⟩ := List.append_inj behind (sized one other oneValid otherValid sameLeft)
  exact ⟨Prod.ext sameLeft sameField, last⟩

theorem determines_prefixed (valid : α → Prop) (number field : α → List σ)
    (length : Determines valid (fun one => (field one).length) number) :
    Determines valid field (fun one => number one ++ field one) :=
  determines_map valid _ _ Prod.snd (determines_sized valid _ number field length (fun _ _ _ _ same => same))

theorem prefix_uniquely_decodable (words : Set (List σ)) (nonempty : [] ∉ words)
    (prefixFree : ∀ word ∈ words, ∀ other ∈ words, ∀ rest others, word ++ rest = other ++ others → word = other) :
    UniquelyDecodable words := by
  intro ones others onesIn othersIn equal
  induction ones generalizing others with
  | nil =>
      cases others with
      | nil => rfl
      | cons other others =>
          obtain ⟨empty, _⟩ := List.append_eq_nil_iff.mp equal.symm
          exact absurd (empty ▸ othersIn other List.mem_cons_self) nonempty
  | cons word ones ih =>
      cases others with
      | nil =>
          obtain ⟨empty, _⟩ := List.append_eq_nil_iff.mp equal
          exact absurd (empty ▸ onesIn word List.mem_cons_self) nonempty
      | cons other others =>
          rw [List.flatten_cons, List.flatten_cons] at equal
          obtain rfl := prefixFree word (onesIn word List.mem_cons_self) other (othersIn other List.mem_cons_self) _ _ equal
          rw [ih others (fun w member => onesIn w (List.mem_cons_of_mem word member))
            (fun w member => othersIn w (List.mem_cons_of_mem word member)) (List.append_cancel_left equal)]

-- A concatenation of codewords has one reading.
theorem determines_list (valid : α → Prop) (content : α → γ) (code : α → List σ) (determines : Determines valid content code)
    (coded : ∀ one other, valid one → valid other → content one = content other → code one = code other)
    (nonempty : ∀ one, valid one → code one ≠ []) (ones others : List α) (onesValid : ∀ one ∈ ones, valid one)
    (othersValid : ∀ one ∈ others, valid one) (equal : (ones.map code).flatten = (others.map code).flatten) :
    ones.map content = others.map content := by
  have decodable : UniquelyDecodable (code '' {one | valid one}) := by
    apply prefix_uniquely_decodable
    · rintro ⟨one, oneValid, empty⟩
      exact nonempty one oneValid empty
    · rintro _ ⟨one, oneValid, rfl⟩ _ ⟨other, otherValid, rfl⟩ rest behind same
      exact coded one other oneValid otherValid (determines one other rest behind oneValid otherValid same).1
  have inside (list : List α) (listValid : ∀ one ∈ list, valid one) :
      ∀ word ∈ list.map code, word ∈ code '' {one | valid one} := by
    intro word member
    obtain ⟨one, listed, rfl⟩ := List.mem_map.mp member
    exact ⟨one, listValid one listed, rfl⟩
  have words := decodable _ _ (inside ones onesValid) (inside others othersValid) equal
  clear equal decodable inside
  induction ones generalizing others with
  | nil =>
      obtain rfl := List.map_eq_nil_iff.mp words.symm
      rfl
  | cons one ones ih =>
      cases others with
      | nil => cases words
      | cons other others =>
          obtain ⟨head, tail⟩ := List.cons.inj words
          have same := (determines one other [] [] (onesValid one List.mem_cons_self) (othersValid other List.mem_cons_self)
            (by rw [head])).1
          rw [List.map_cons, List.map_cons, same, ih others (fun w member => onesValid w (List.mem_cons_of_mem one member))
            (fun w member => othersValid w (List.mem_cons_of_mem other member)) tail]

end PrefixCode
