import Mathlib
import Rocket.Lib.PrefixCode

set_option autoImplicit false

namespace Rocket

-- A str of the generator. Names are of ASCII letters, digits and underscores.
abbrev Text := List Char

def capitalize : Text → Text
  | [] => []
  | c :: cs => c.toUpper :: cs.map Char.toLower

def toCamel (inputS : Text) : Text :=
  if '_' ∈ inputS then (inputS.splitOn '_').flatMap capitalize else inputS

def underlineChar (c : Char) : Text := if c.isLower = true then [c] else ['_', c.toLower]

def toUnderline (inputS : Text) : Text := ((toCamel inputS).flatMap underlineChar).drop 1

def IsIdentifier : Text → Prop
  | [] => False
  | c :: cs => c.isAlpha = true ∧ ∀ d ∈ cs, d.isAlphanum = true ∨ d = '_'

-- A letter or digit of a name without its case, and whether it is a letter
-- that begins a word.
@[ext] structure Spelled where
  letter : Char
  begins : Bool
deriving DecidableEq, Repr

def spellWords : Bool → Text → List Spelled
  | _, [] => []
  | start, c :: cs =>
      if c = '_' then spellWords true cs else ⟨c.toLower, start && c.isAlpha⟩ :: spellWords false cs

-- Words begin behind underscores, or at capitals in a name that has none.
def spelling (name : Text) : List Spelled :=
  if '_' ∈ name then spellWords true name else name.map fun c => ⟨c.toLower, c.isUpper⟩

def startsSmall : Text → Bool
  | [] => false
  | c :: cs => c.isLower && decide ('_' ∉ cs)

def dropBegin : List Spelled → List Spelled
  | [] => []
  | first :: rest => ⟨first.letter, false⟩ :: rest

-- A name without underscores that begins with a small letter loses it in the
-- name of its file; of other names the first letter is written small.
def Collide (one other : Text) : Prop :=
  match startsSmall one, startsSmall other with
  | true, true => one.tail = other.tail
  | true, false => spelling one.tail = dropBegin (spelling other)
  | false, true => spelling other.tail = dropBegin (spelling one)
  | false, false => spelling one = spelling other

-- What is left of a name in the name of its file.
def fileSpelling (name : Text) : List Spelled :=
  if startsSmall name = true then (spelling name).tail else dropBegin (spelling name)

def Spelled.camelChar (one : Spelled) : Char := if one.begins = true then one.letter.toUpper else one.letter

def Spelled.underlined (one : Spelled) : Text :=
  if one.letter.isLower = true ∧ one.begins = false then [one.letter] else ['_', one.letter]

structure Spelled.Written (one : Spelled) : Prop where
  kept : one.letter.toLower = one.letter
  notUnderscore : one.letter ≠ '_'
  letterBegins : one.begins = true → one.letter.isLower = true

theorem lowered_letter (c : Char) (letter : c.isAlpha = true) : c.toLower.isLower = true := by
  rw [Char.isLower_toLower_eq_isAlpha, letter]

theorem small_letter (c : Char) (small : c.isLower = true) : c.isAlpha = true := by rw [Char.isAlpha, small, Bool.or_true]

theorem capital_letter (c : Char) (upper : c.isUpper = true) : c.isAlpha = true := by rw [Char.isAlpha, upper, Bool.true_or]

theorem small_kept (c : Char) (small : c.isLower = true) : c.toLower = c :=
  Char.toLower_eq_of_not_isUpper (Char.not_isUpper_of_isLower small)

theorem letter_not_underscore (c : Char) (letter : c.isAlpha = true) : c ≠ '_' := by
  rintro rfl
  cases letter

theorem lower_not_underscore (c : Char) (different : c ≠ '_') : c.toLower ≠ '_' := by
  intro same
  by_cases upper : c.isUpper = true
  · have small := lowered_letter c (capital_letter c upper)
    rw [same] at small
    cases small
  · exact different ((Char.toLower_eq_of_not_isUpper upper).symm.trans same)

theorem capital_spelled (c : Char) : (Spelled.mk c.toLower c.isAlpha).camelChar = c.toUpper := by
  rw [Spelled.camelChar]
  split
  · exact Char.toUpper_toLower_eq_toUpper c
  · next notLetter =>
      rw [Char.isAlpha, Bool.or_eq_true, not_or] at notLetter
      exact (Char.toLower_eq_of_not_isUpper notLetter.1).trans (Char.toUpper_eq_of_not_isLower notLetter.2).symm

theorem char_spelled (c : Char) : (Spelled.mk c.toLower c.isUpper).camelChar = c := by
  rw [Spelled.camelChar]
  split
  · next upper =>
      rw [Char.toUpper_toLower_eq_toUpper]
      exact Char.toUpper_eq_of_not_isLower (Char.not_isLower_of_isUpper upper)
  · next notUpper => exact Char.toLower_eq_of_not_isUpper notUpper

-- Capitalising word by word is one pass, induction on the name with the flag
-- that says whether a word begins.
theorem split_camel (start : Bool) (name word : Text) (words : List Text) (split : name.splitOn '_' = word :: words) :
    (if start = true then capitalize word else word.map Char.toLower) ++ words.flatMap capitalize =
      (spellWords start name).map Spelled.camelChar := by
  induction name generalizing start word words with
  | nil =>
      cases split
      cases start <;> rfl
  | cons c cs ih =>
      obtain ⟨front, rest, behind⟩ := List.exists_cons_of_ne_nil (List.splitOn_ne_nil '_' cs)
      rw [List.splitOn_cons_eq_if_modifyHead, behind] at split
      by_cases separator : c = '_'
      · rw [if_pos (beq_iff_eq.mpr separator)] at split
        cases split
        rw [spellWords, if_pos separator, ← ih true front _ behind, if_pos rfl, List.flatMap_cons]
        cases start <;> rfl
      · rw [if_neg (by simpa using separator), List.modifyHead_cons] at split
        cases split
        have shorter := ih false front _ behind
        rw [spellWords, if_neg separator]
        cases start with
        | true => simpa [capitalize, capital_spelled] using shorter
        | false => simpa [Spelled.camelChar] using shorter

theorem to_camel_spelling (name : Text) : toCamel name = (spelling name).map Spelled.camelChar := by
  by_cases underscored : '_' ∈ name
  · obtain ⟨word, words, split⟩ := List.exists_cons_of_ne_nil (List.splitOn_ne_nil '_' name)
    rw [toCamel, if_pos underscored, spelling, if_pos underscored, ← split_camel true name word words split, if_pos rfl, split,
      List.flatMap_cons]
  · rw [toCamel, if_neg underscored, spelling, if_neg underscored, List.map_map]
    exact (List.map_id'' char_spelled name).symm

theorem written_pass (start : Bool) (name : Text) : ∀ one ∈ spellWords start name, one.Written := by
  induction name generalizing start with
  | nil =>
      intro one member
      cases member
  | cons c cs ih =>
      intro one member
      rw [spellWords] at member
      split at member
      · exact ih true one member
      · next separator =>
          rcases List.mem_cons.mp member with rfl | later
          · refine ⟨Char.toLower_toLower_eq_toLower c, lower_not_underscore c separator, fun begins => ?_⟩
            exact lowered_letter c (Bool.and_eq_true_iff.mp begins).2
          · exact ih false one later

theorem written_spelling (name : Text) : ∀ one ∈ spelling name, one.Written := by
  by_cases underscored : '_' ∈ name
  · rw [spelling, if_pos underscored]
    exact written_pass true name
  · rw [spelling, if_neg underscored]
    intro one member
    obtain ⟨c, listed, rfl⟩ := List.mem_map.mp member
    refine ⟨Char.toLower_toLower_eq_toLower c, lower_not_underscore c ?_, fun begins => ?_⟩
    · rintro rfl
      exact underscored listed
    · exact lowered_letter c (capital_letter c begins)

theorem underline_camel (one : Spelled) (written : one.Written) : underlineChar one.camelChar = one.underlined := by
  rw [underlineChar, Spelled.camelChar, Spelled.underlined]
  by_cases begins : one.begins = true
  · rw [if_pos begins, if_neg (by simp [Char.isLower_toUpper_eq_false]), if_neg (by simp [begins]),
      Char.toLower_toUpper_eq_toLower, written.kept]
  · rw [if_neg begins]
    by_cases small : one.letter.isLower = true
    · rw [if_pos small, if_pos ⟨small, by simpa using begins⟩]
    · rw [if_neg small, if_neg (fun both => small both.1), written.kept]

theorem underline_spelling (name : Text) :
    toUnderline name = ((spelling name).flatMap Spelled.underlined).drop 1 := by
  rw [toUnderline, to_camel_spelling, List.flatMap_map]
  congr 1
  exact List.flatMap_congr fun one member => underline_camel one (written_spelling name one member)

theorem spelling_small (name : Text) (small : startsSmall name = true) :
    ∃ c cs, name = c :: cs ∧ c.isLower = true ∧ spelling name = ⟨c.toLower, false⟩ :: spelling cs ∧ '_' ∉ cs := by
  cases name with
  | nil => cases small
  | cons c cs =>
      obtain ⟨lower, plain⟩ := Bool.and_eq_true_iff.mp small
      have notUpper : c.isUpper = false := by simpa using Char.not_isUpper_of_isLower lower
      have outside : '_' ∉ cs := of_decide_eq_true plain
      have notUnderscore : '_' ≠ c := (letter_not_underscore c (small_letter c lower)).symm
      refine ⟨c, cs, rfl, lower, ?_, outside⟩
      rw [spelling, spelling, if_neg outside, if_neg (by simp [notUnderscore, outside]), List.map_cons, notUpper]

theorem spelling_begins (name : Text) (identifier : IsIdentifier name) (large : startsSmall name = false) :
    ∃ c rest, c.isLower = true ∧ spelling name = ⟨c, true⟩ :: rest := by
  cases name with
  | nil => exact identifier.elim
  | cons c cs =>
      have letter : c.isAlpha = true := identifier.1
      refine ⟨c.toLower, ?_⟩
      by_cases underscored : '_' ∈ c :: cs
      · refine ⟨spellWords false cs, lowered_letter c letter, ?_⟩
        rw [spelling, if_pos underscored, spellWords, if_neg (letter_not_underscore c letter), letter]
        rfl
      · have outside : '_' ∉ cs := fun inside => underscored (List.mem_cons_of_mem c inside)
        have notLower : c.isLower = false := by simpa [startsSmall, outside] using large
        have upper : c.isUpper = true := by simpa [Char.isAlpha, notLower] using letter
        refine ⟨cs.map fun d => ⟨d.toLower, d.isUpper⟩, lowered_letter c letter, ?_⟩
        rw [spelling, if_neg underscored, List.map_cons, upper]

-- An identifier begins with a letter: either it loses its first letter or the
-- letter is written behind the underscore that is dropped.
theorem to_underline_spelling (name : Text) (identifier : IsIdentifier name) :
    toUnderline name = (fileSpelling name).flatMap Spelled.underlined := by
  rw [underline_spelling, fileSpelling]
  by_cases small : startsSmall name = true
  · obtain ⟨c, cs, _, lower, shape, _⟩ := spelling_small name small
    have lowered := lowered_letter c (small_letter c lower)
    rw [if_pos small, shape, List.flatMap_cons, Spelled.underlined, if_pos ⟨lowered, rfl⟩]
    rfl
  · obtain ⟨c, rest, lower, shape⟩ := spelling_begins name identifier (by simpa using small)
    rw [if_neg small, shape, dropBegin, List.flatMap_cons, List.flatMap_cons, Spelled.underlined, Spelled.underlined,
      if_neg (by simp), if_pos ⟨lower, rfl⟩]
    rfl

theorem file_spelling_written (name : Text) : ∀ one ∈ fileSpelling name, one.Written := by
  intro one member
  rw [fileSpelling] at member
  split at member
  · exact written_spelling name one (List.mem_of_mem_tail member)
  · cases shape : spelling name with
    | nil =>
        rw [shape] at member
        cases member
    | cons first rest =>
        have firstWritten := written_spelling name first (by rw [shape]; exact List.mem_cons_self)
        rw [shape, dropBegin] at member
        rcases List.mem_cons.mp member with rfl | later
        · exact ⟨firstWritten.kept, firstWritten.notUnderscore, fun begins => by cases begins⟩
        · exact written_spelling name one (by rw [shape]; exact List.mem_cons_of_mem first later)

theorem underlined_determines : PrefixCode.Determines Spelled.Written id Spelled.underlined := by
  intro one other rest others oneWritten otherWritten equal
  rw [Spelled.underlined, Spelled.underlined] at equal
  split at equal
  · next plain =>
      split at equal
      · next otherPlain =>
          obtain ⟨same, behind⟩ := List.cons.inj equal
          exact ⟨Spelled.ext same (plain.2.trans otherPlain.2.symm), behind⟩
      · exact absurd (List.cons.inj equal).1 oneWritten.notUnderscore
  · next marked =>
      split at equal
      · exact absurd (List.cons.inj equal).1.symm otherWritten.notUnderscore
      · next otherMarked =>
          obtain ⟨same, behind⟩ := List.cons.inj (List.cons.inj equal).2
          refine ⟨Spelled.ext same ?_, behind⟩
          have letter := oneWritten.letterBegins
          have otherLetter := otherWritten.letterBegins
          rw [same] at marked letter
          grind

theorem underlined_nonempty (one : Spelled) : one.underlined ≠ [] := by
  rw [Spelled.underlined]
  split <;> exact List.cons_ne_nil _ _

theorem underlined_injective (ones others : List Spelled) (onesWritten : ∀ one ∈ ones, one.Written)
    (othersWritten : ∀ one ∈ others, one.Written) (equal : ones.flatMap Spelled.underlined = others.flatMap Spelled.underlined) :
    ones = others := by
  rw [List.flatMap_def, List.flatMap_def] at equal
  have same := PrefixCode.determines_list Spelled.Written id Spelled.underlined underlined_determines
    (fun _ _ _ _ same => congrArg Spelled.underlined same) (fun one _ => underlined_nonempty one) ones others onesWritten othersWritten equal
  simpa using same

theorem spelling_plain_injective (one other : Text) (onePlain : '_' ∉ one) (otherPlain : '_' ∉ other)
    (same : spelling one = spelling other) : one = other := by
  have camel := congrArg (List.map Spelled.camelChar) same
  rwa [← to_camel_spelling, ← to_camel_spelling, toCamel, toCamel, if_neg onePlain, if_neg otherPlain] at camel

theorem file_spelling_small (name : Text) (small : startsSmall name = true) :
    fileSpelling name = spelling name.tail ∧ '_' ∉ name.tail := by
  obtain ⟨c, cs, rfl, _, shape, outside⟩ := spelling_small name small
  rw [fileSpelling, if_pos small, shape]
  exact ⟨rfl, outside⟩

theorem file_spelling_large (name : Text) (large : startsSmall name = false) : fileSpelling name = dropBegin (spelling name) := by
  rw [fileSpelling, if_neg (by simp [large])]

theorem drop_begin_injective (one other : Text) (oneIdentifier : IsIdentifier one) (otherIdentifier : IsIdentifier other)
    (oneLarge : startsSmall one = false) (otherLarge : startsSmall other = false)
    (same : dropBegin (spelling one) = dropBegin (spelling other)) : spelling one = spelling other := by
  obtain ⟨c, rest, _, shape⟩ := spelling_begins one oneIdentifier oneLarge
  obtain ⟨d, others, _, otherShape⟩ := spelling_begins other otherIdentifier otherLarge
  rw [shape, otherShape, dropBegin, dropBegin] at same
  obtain ⟨letters, behind⟩ := List.cons.inj same
  have letter : c = d := (Spelled.mk.inj letters).1
  rw [shape, otherShape, behind, letter]

theorem collide_iff (one other : Text) (oneIdentifier : IsIdentifier one) (otherIdentifier : IsIdentifier other) :
    Collide one other ↔ fileSpelling one = fileSpelling other := by
  rw [Collide]
  cases oneStart : startsSmall one <;> cases otherStart : startsSmall other
  · rw [file_spelling_large one oneStart, file_spelling_large other otherStart]
    exact ⟨congrArg dropBegin, drop_begin_injective one other oneIdentifier otherIdentifier oneStart otherStart⟩
  · rw [file_spelling_large one oneStart, (file_spelling_small other otherStart).1]
    exact eq_comm
  · rw [(file_spelling_small one oneStart).1, file_spelling_large other otherStart]
  · obtain ⟨left, onePlain⟩ := file_spelling_small one oneStart
    obtain ⟨right, otherPlain⟩ := file_spelling_small other otherStart
    rw [left, right]
    exact ⟨congrArg spelling, spelling_plain_injective one.tail other.tail onePlain otherPlain⟩

theorem same_file_iff (one other : Text) (oneIdentifier : IsIdentifier one) (otherIdentifier : IsIdentifier other) :
    toUnderline one = toUnderline other ↔ Collide one other := by
  rw [to_underline_spelling one oneIdentifier, to_underline_spelling other otherIdentifier,
    collide_iff one other oneIdentifier otherIdentifier]
  exact ⟨underlined_injective _ _ (file_spelling_written one) (file_spelling_written other),
    congrArg (List.flatMap Spelled.underlined)⟩

theorem no_file_name_iff (name : Text) (identifier : IsIdentifier name) :
    toUnderline name = [] ↔ ∃ c : Char, c.isLower = true ∧ name = [c] := by
  rw [to_underline_spelling name identifier, List.flatMap_eq_nil_iff, fileSpelling]
  by_cases small : startsSmall name = true
  · obtain ⟨c, cs, rfl, lower, shape, outside⟩ := spelling_small name small
    rw [if_pos small, shape, List.tail_cons, spelling, if_neg outside]
    constructor
    · intro empty
      refine ⟨c, lower, ?_⟩
      cases cs with
      | nil => rfl
      | cons d ds => exact absurd (empty _ List.mem_cons_self) (underlined_nonempty _)
    · rintro ⟨d, _, same⟩ one member
      rw [(List.cons.inj same).2] at member
      cases member
  · obtain ⟨c, rest, _, shape⟩ := spelling_begins name identifier (by simpa using small)
    rw [if_neg small, shape, dropBegin]
    constructor
    · intro empty
      exact absurd (empty _ List.mem_cons_self) (underlined_nonempty _)
    · rintro ⟨d, lower, rfl⟩
      exact absurd (by rw [startsSmall, lower]; rfl) small

def IsWord (word : Text) : Prop := word ≠ [] ∧ ∀ c ∈ word, c.isLower = true

def joined (words : List Text) : Text := List.intercalate ['_'] words

theorem word_plain (word : Text) (lower : ∀ c ∈ word, c.isLower = true) : '_' ∉ word := by
  intro inside
  cases lower '_' inside

theorem underline_lower (word : Text) (lower : ∀ c ∈ word, c.isLower = true) : word.flatMap underlineChar = word := by
  induction word with
  | nil => rfl
  | cons c cs ih =>
      rw [List.flatMap_cons, underlineChar, if_pos (lower c List.mem_cons_self),
        ih (fun d member => lower d (List.mem_cons_of_mem c member))]
      rfl

theorem underline_capital (word : Text) (isWord : IsWord word) : (capitalize word).flatMap underlineChar = '_' :: word := by
  obtain ⟨present, lower⟩ := isWord
  cases word with
  | nil => exact absurd rfl present
  | cons c cs =>
      have rest : cs.map Char.toLower = cs := by
        calc cs.map Char.toLower = cs.map id :=
              List.map_congr_left fun d member => small_kept d (lower d (List.mem_cons_of_mem c member))
          _ = cs := List.map_id cs
      rw [capitalize, rest, List.flatMap_cons, underlineChar, if_neg (by simp), Char.toLower_toUpper_eq_toLower,
        small_kept c (lower c List.mem_cons_self), underline_lower cs fun d member => lower d (List.mem_cons_of_mem c member)]
      rfl

theorem joined_marked (words : List Text) (present : words ≠ []) :
    words.flatMap (fun word => '_' :: word) = '_' :: joined words := by
  induction words with
  | nil => exact absurd rfl present
  | cons word words ih =>
      cases words with
      | nil => simp [joined]
      | cons next rest =>
          rw [List.flatMap_cons, ih (List.cons_ne_nil next rest), joined, joined, List.intercalate_cons_cons]
          simp

theorem joined_again_iff (words : List Text) (present : words ≠ []) (areWords : ∀ word ∈ words, IsWord word) :
    toUnderline (joined words) = joined words ↔ 2 ≤ words.length := by
  match words, present, areWords with
  | [word], _, areWords =>
      obtain ⟨wordPresent, lower⟩ := areWords word List.mem_cons_self
      have alone : joined [word] = word := List.intercalate_singleton
      rw [alone, toUnderline, toCamel, if_neg (word_plain word lower), underline_lower word lower]
      constructor
      · intro same
        have shorter := congrArg List.length same
        have long := List.length_pos_of_ne_nil wordPresent
        rw [List.length_drop] at shorter
        omega
      · intro two
        exact absurd two (by simp)
  | word :: next :: rest, present, areWords =>
      have inside : '_' ∈ joined (word :: next :: rest) := by
        rw [joined, List.intercalate_cons_cons]
        simp
      have plain : ∀ one ∈ word :: next :: rest, '_' ∉ one := fun one member => word_plain one (areWords one member).2
      have expanded : (word :: next :: rest).flatMap (fun one => (capitalize one).flatMap underlineChar) =
          (word :: next :: rest).flatMap fun one => '_' :: one :=
        List.flatMap_congr fun one member => underline_capital one (areWords one member)
      rw [toUnderline, toCamel, if_pos inside, joined, List.splitOn_intercalate '_' plain present, List.flatMap_assoc, expanded,
        joined_marked _ present]
      exact ⟨fun _ => by simp, fun _ => rfl⟩

end Rocket
