import Mathlib.Algebra.Group.Int.Defs
import Mathlib.Algebra.Group.Nat.Defs
import Mathlib.Data.Int.Init
import Mathlib.Data.List.Basic

set_option autoImplicit false

namespace Word32

abbrev Bytes := List UInt8

def InRange (value : Int) : Prop := -2 ^ 31 ≤ value ∧ value < 2 ^ 31

instance (value : Int) : Decidable (InRange value) :=
  inferInstanceAs (Decidable (-2 ^ 31 ≤ value ∧ value < 2 ^ 31))

-- Signed arithmetic whose exact result leaves the range has no defined value;
-- a conversion to int keeps the low 32 bits.
def checked (value : Int) : Option Int := if InRange value then some value else none

def narrow (value : Int) : Int := value.bmod (2 ^ 32)

def bigEndian (value : Int) : Bytes :=
  let word := (value % 2 ^ 32).toNat
  [UInt8.ofNat (word / 2 ^ 24), UInt8.ofNat (word / 2 ^ 16), UInt8.ofNat (word / 2 ^ 8), UInt8.ofNat word]

def word (bytes : Bytes) : Nat := bytes.foldl (fun high byte => high * 256 + byte.toNat) 0

def fromBigEndian (bytes : Bytes) : Int := narrow (word bytes)

theorem checked_some (value : Int) (inside : InRange value) : checked value = some value := if_pos inside

theorem checked_eq_some (value result : Int) : checked value = some result ↔ InRange value ∧ value = result := by
  rw [checked]
  split
  · rename_i inside
    simp [inside]
  · rename_i outside
    simp [outside]

theorem narrow_of_range (value : Int) (inside : InRange value) : narrow value = value := by
  obtain ⟨lower, upper⟩ := inside
  exact Int.bmod_eq_of_le (by simpa using lower) (by simpa using upper)

theorem narrow_range (value : Int) : InRange (narrow value) := by
  have lower := Int.le_bmod (x := value) (m := 2 ^ 32) (by decide)
  have upper := Int.bmod_lt (x := value) (m := 2 ^ 32) (by decide)
  rw [InRange, narrow]
  omega

@[simp] theorem big_endian_length (value : Int) : (bigEndian value).length = 4 := rfl

theorem word_big_endian (value : Int) : (word (bigEndian value) : Int) = value % 2 ^ 32 := by
  have bound : (value % 2 ^ 32).toNat < 2 ^ 32 := by omega
  simp only [word, bigEndian, List.foldl_cons, List.foldl_nil, UInt8.toNat_ofNat']
  omega

theorem from_big_endian (value : Int) (inside : InRange value) : fromBigEndian (bigEndian value) = value := by
  have residue : (value % 2 ^ 32).bmod (2 ^ 32) = value.bmod (2 ^ 32) := Int.emod_bmod value (2 ^ 32)
  rw [fromBigEndian, word_big_endian, narrow, residue]
  exact narrow_of_range value inside

theorem big_endian_from (bytes : Bytes) (four : bytes.length = 4) : bigEndian (fromBigEndian bytes) = bytes := by
  obtain ⟨a, b, c, d, rfl⟩ : ∃ a b c d, bytes = [a, b, c, d] := List.length_eq_four.mp four
  have aSmall := a.toNat_lt
  have bSmall := b.toNat_lt
  have cSmall := c.toNat_lt
  have dSmall := d.toNat_lt
  have value : word [a, b, c, d] = ((a.toNat * 256 + b.toNat) * 256 + c.toNat) * 256 + d.toNat := by
    simp only [word, List.foldl_cons, List.foldl_nil, Nat.zero_mul, Nat.zero_add]
  have low : ((fromBigEndian [a, b, c, d]) % 2 ^ 32).toNat = word [a, b, c, d] := by
    have residue : ((word [a, b, c, d] : Int).bmod (2 ^ 32)) % 2 ^ 32 = (word [a, b, c, d] : Int) % 2 ^ 32 :=
      Int.bmod_emod
    rw [fromBigEndian, narrow, residue]
    omega
  simp only [bigEndian, low, value, List.cons.injEq, ← UInt8.toNat_inj, UInt8.toNat_ofNat', and_true]
  omega

end Word32
