import Mathlib.Data.List.TakeWhile
import Rocket.Lib.Numeral
import Rocket.Lib.Word32

set_option autoImplicit false

namespace DecimalText

open Word32

def DigitByte (byte : UInt8) : Prop := 48 ≤ byte.toNat ∧ byte.toNat ≤ 57

-- What isspace accepts in the C locale.
def BlankByte (byte : UInt8) : Prop := byte.toNat = 32 ∨ (9 ≤ byte.toNat ∧ byte.toNat ≤ 13)

instance (byte : UInt8) : Decidable (DigitByte byte) :=
  inferInstanceAs (Decidable (48 ≤ byte.toNat ∧ byte.toNat ≤ 57))

instance (byte : UInt8) : Decidable (BlankByte byte) :=
  inferInstanceAs (Decidable (byte.toNat = 32 ∨ (9 ≤ byte.toNat ∧ byte.toNat ≤ 13)))

def value (digits : Bytes) : Nat := Numeral.value 10 (digits.map fun digit => digit.toNat - 48)

def withSign (negative : Bool) (magnitude : Nat) : Int := if negative = true then -magnitude else magnitude

def dropSign : Bytes → Bool × Bytes
  | [] => (false, [])
  | head :: rest => if head = 45 then (true, rest) else if head = 43 then (false, rest) else (false, head :: rest)

-- The number at the front of a text as the C library converts it in base 10,
-- before it is fitted into a type. Without digits there is none.
def leadingNumber (text : Bytes) : Option Int :=
  let (negative, unsigned) := dropSign (text.dropWhile fun byte => decide (BlankByte byte))
  let digits := unsigned.takeWhile fun byte => decide (DigitByte byte)
  if digits = [] then none else some (withSign negative (value digits))

inductive SignText : Bytes → Bool → Prop where
  | absent : SignText [] false
  | plus : SignText [43] false
  | minus : SignText [45] true

-- The same as a grammar: blanks, a sign, as many digits as follow, anything.
structure NumberText (text blanks sign digits rest : Bytes) (negative : Bool) : Prop where
  shape : text = blanks ++ (sign ++ (digits ++ rest))
  blank : ∀ byte ∈ blanks, BlankByte byte
  signed : SignText sign negative
  digit : ∀ byte ∈ digits, DigitByte byte
  present : digits ≠ []
  ends : ∀ byte ∈ rest.head?, ¬ DigitByte byte

def Reads (text : Bytes) (number : Int) : Prop :=
  ∃ blanks sign digits rest negative, NumberText text blanks sign digits rest negative ∧
    number = withSign negative (value digits)

def decimal (number : Nat) : Bytes := (Nat.toDigits 10 number).map fun char => UInt8.ofNat char.toNat

theorem digit_not_blank (byte : UInt8) (digit : DigitByte byte) : ¬ BlankByte byte := by
  obtain ⟨lower, upper⟩ := digit
  rw [BlankByte]
  omega

theorem digit_not_sign (byte : UInt8) (digit : DigitByte byte) : byte ≠ 45 ∧ byte ≠ 43 := by
  constructor
  · rintro rfl
    exact absurd digit (by decide)
  · rintro rfl
    exact absurd digit (by decide)

theorem take_digits (digits rest : Bytes) (digit : ∀ byte ∈ digits, DigitByte byte) (ends : ∀ byte ∈ rest.head?, ¬ DigitByte byte) :
    (digits ++ rest).takeWhile (fun byte => decide (DigitByte byte)) = digits := by
  rw [List.takeWhile_append_of_pos fun byte member => decide_eq_true (digit byte member)]
  cases rest with
  | nil => simp
  | cons head rest =>
      have stops : ¬ DigitByte head := ends head rfl
      simp [stops]

theorem drop_sign_digits (head : UInt8) (rest : Bytes) (digit : DigitByte head) :
    dropSign (head :: rest) = (false, head :: rest) := by
  obtain ⟨notMinus, notPlus⟩ := digit_not_sign head digit
  rw [dropSign, if_neg notMinus, if_neg notPlus]

theorem drop_sign_text (sign digits rest : Bytes) (negative : Bool) (signed : SignText sign negative)
    (digit : ∀ byte ∈ digits, DigitByte byte) (present : digits ≠ []) :
    dropSign ((sign ++ (digits ++ rest)).dropWhile fun byte => decide (BlankByte byte)) = (negative, digits ++ rest) := by
  obtain ⟨head, tail, rfl⟩ := List.exists_cons_of_ne_nil present
  have first := digit head List.mem_cons_self
  cases signed with
  | absent =>
      rw [List.nil_append, List.cons_append, List.dropWhile_cons_of_neg (by simpa using digit_not_blank head first)]
      exact drop_sign_digits head (tail ++ rest) first
  | plus => rfl
  | minus => rfl

theorem leading_number_text (text blanks sign digits rest : Bytes) (negative : Bool)
    (number : NumberText text blanks sign digits rest negative) :
    leadingNumber text = some (withSign negative (value digits)) := by
  have behind : text.dropWhile (fun byte => decide (BlankByte byte)) =
      (sign ++ (digits ++ rest)).dropWhile fun byte => decide (BlankByte byte) := by
    rw [number.shape, List.dropWhile_append_of_pos fun byte member => decide_eq_true (number.blank byte member)]
  have unsigned := drop_sign_text sign digits rest negative number.signed number.digit number.present
  simp only [leadingNumber, behind, unsigned, take_digits digits rest number.digit number.ends, if_neg number.present]

theorem drop_sign_split (text : Bytes) :
    ∃ sign, SignText sign (dropSign text).1 ∧ text = sign ++ (dropSign text).2 := by
  cases text with
  | nil => exact ⟨[], .absent, rfl⟩
  | cons head rest =>
      rw [dropSign]
      split
      · next minus => exact ⟨[45], .minus, by rw [minus]; rfl⟩
      · split
        · next plus => exact ⟨[43], .plus, by rw [plus]; rfl⟩
        · exact ⟨[], .absent, rfl⟩

theorem leading_number_iff (text : Bytes) (number : Int) : leadingNumber text = some number ↔ Reads text number := by
  constructor
  · intro read
    simp only [leadingNumber] at read
    split at read
    · cases read
    · next present =>
        obtain ⟨sign, signed, shape⟩ := drop_sign_split (text.dropWhile fun byte => decide (BlankByte byte))
        refine ⟨text.takeWhile fun byte => decide (BlankByte byte), sign, _,
          (dropSign (text.dropWhile fun byte => decide (BlankByte byte))).2.dropWhile fun byte => decide (DigitByte byte), _,
          ⟨?_, ?_, signed, ?_, present, ?_⟩, (Option.some.inj read).symm⟩
        · rw [List.takeWhile_append_dropWhile, ← shape, List.takeWhile_append_dropWhile]
        · exact fun byte member => by simpa using List.mem_takeWhile_imp member
        · exact fun byte member => by simpa using List.mem_takeWhile_imp member
        · intro byte first
          have stops := List.head?_dropWhile_not (fun byte => decide (DigitByte byte))
            (dropSign (text.dropWhile fun byte => decide (BlankByte byte))).2
          rw [Option.mem_def.mp first] at stops
          simpa using stops
  · rintro ⟨blanks, sign, digits, rest, negative, shape, rfl⟩
    exact leading_number_text text blanks sign digits rest negative shape

theorem leading_digits (digits : Bytes) (digit : ∀ byte ∈ digits, DigitByte byte) (present : digits ≠ []) :
    leadingNumber digits = some (value digits : Int) :=
  leading_number_text digits [] [] digits [] false
    ⟨by simp, fun _ member => absurd member List.not_mem_nil, .absent, digit, present, by simp⟩

theorem value_append_digit (digits : Bytes) (digit : UInt8) :
    value (digits ++ [digit]) = 10 * value digits + (digit.toNat - 48) := by
  rw [value, List.map_append, Numeral.value_append]
  simp [value, Numeral.value]
  omega

theorem digit_char_byte (char : Char) (digit : char.isDigit = true) :
    48 ≤ char.toNat ∧ char.toNat ≤ 57 ∧ (UInt8.ofNat char.toNat).toNat = char.toNat := by
  obtain ⟨lower, upper⟩ := Char.isDigit_iff_toNat.mp digit
  have lowest : '0'.toNat = 48 := rfl
  have highest : '9'.toNat = 57 := rfl
  have fits : char.toNat < 256 := by omega
  exact ⟨by omega, by omega, UInt8.toNat_ofNat_of_lt' fits⟩

theorem decimal_digits (number : Nat) : ∀ byte ∈ decimal number, DigitByte byte := by
  intro byte member
  obtain ⟨char, inside, rfl⟩ := List.mem_map.mp member
  obtain ⟨lower, upper, same⟩ := digit_char_byte char (Nat.isDigit_of_mem_toDigits (by decide) (by decide) inside)
  rw [DigitByte, same]
  exact ⟨lower, upper⟩

theorem decimal_present (number : Nat) : decimal number ≠ [] := by
  rw [decimal, Ne, List.map_eq_nil_iff]
  exact Nat.toDigits_ne_nil

theorem value_digit_chars (chars : List Char) (digits : ∀ char ∈ chars, char.isDigit = true) :
    value (chars.map fun char => UInt8.ofNat char.toNat) = Nat.ofDigitChars 10 chars 0 := by
  induction chars using List.reverseRecOn with
  | nil => rfl
  | append_singleton chars char ih =>
      obtain ⟨_, _, same⟩ := digit_char_byte char (digits char (by simp))
      have zero : '0'.toNat = 48 := rfl
      rw [List.map_append, List.map_singleton, value_append_digit, ih fun other member => digits other (by simp [member]),
        Nat.ofDigitChars_append, Nat.ofDigitChars_cons, Nat.ofDigitChars_nil, same, zero]

theorem value_decimal (number : Nat) : value (decimal number) = number := by
  rw [decimal, value_digit_chars _ fun char member => Nat.isDigit_of_mem_toDigits (by decide) (by decide) member]
  exact Nat.ofDigitChars_ten_toDigits

end DecimalText
