import Rocket.Lib.DecimalText
import Rocket.RpcController

set_option autoImplicit false

namespace Rocket

open Word32 DecimalText

def cStr (bytes : Bytes) : Bytes := bytes.takeWhile fun byte => decide (byte ≠ 0)

-- Without a value it has thrown: there is no number, or it is no int.
def stoi (str : Bytes) : Option Int := (leadingNumber (cStr str)).bind checked

def clampLong (number : Int) : Int := max (-2 ^ 63) (min number (2 ^ 63 - 1))

def atoi (str : Bytes) : Int := narrow (clampLong ((leadingNumber (cStr str)).getD 0))

def findFirstOf (byte : UInt8) : Bytes → Option Nat
  | [] => none
  | head :: tail => if head = byte then some 0 else (findFirstOf byte tail).map fun pos => pos + 1

def toUint16 (value : Int) : Nat := (value % 2 ^ 16).toNat

def htons (port : Nat) : Nat := port % 256 * 256 + port / 256

def INADDR_NONE : UInt32 := 0xFFFFFFFF

-- sinAddr and sinPort are the fields of m_addr in network order.
structure IPNetAddr where
  ip : Bytes
  port : Nat
  sinAddr : UInt32
  sinPort : Nat
deriving DecidableEq, Repr

def IPNetAddr.toString (addr : IPNetAddr) : Bytes := addr.ip ++ text ":" ++ text (ToString.toString addr.port)

section InetAddr

-- inet_addr of the C library, on the text up to the first NUL.
variable (inetAddr : Bytes → UInt32)

def newIPNetAddr (ip : Bytes) (port : Nat) : IPNetAddr :=
  { ip := ip, port := port, sinAddr := inetAddr (cStr ip), sinPort := htons port }

-- Without a colon i is npos, and i + 1 is 0.
def parseIPNetAddr (addr : Bytes) : IPNetAddr :=
  match findFirstOf 0x3A addr with
  | none => newIPNetAddr inetAddr addr (toUint16 (atoi addr))
  | some i => newIPNetAddr inetAddr (addr.take i) (toUint16 (atoi (addr.drop (i + 1))))

-- Without a value stoi has thrown.
def checkValid (addr : Bytes) : Option Bool :=
  match findFirstOf 0x3A addr with
  | none => some false
  | some i =>
      if addr.take i = [] ∨ addr.drop (i + 1) = [] then some false
      else do
        let port ← stoi (addr.drop (i + 1))
        if port < 0 ∨ port > 65535 then some false else some (decide (inetAddr (cStr (addr.take i)) ≠ INADDR_NONE))

def IPNetAddr.checkValid (addr : IPNetAddr) : Option Bool := Rocket.checkValid inetAddr addr.toString

end InetAddr

def SplitsAt (addr ip port : Bytes) : Prop := addr = ip ++ 0x3A :: port ∧ 0x3A ∉ ip

def AllDigits (port : Bytes) : Prop := ∀ byte ∈ port, DigitByte byte

section Grammar

variable (inetAddr : Bytes → UInt32)

def Accepted (ip : Bytes) : Prop := inetAddr (cStr ip) ≠ INADDR_NONE

instance (ip : Bytes) : Decidable (Accepted inetAddr ip) :=
  inferInstanceAs (Decidable (inetAddr (cStr ip) ≠ INADDR_NONE))

-- The addresses that CheckValid is there to accept.
structure AddressText (addr ip port : Bytes) : Prop where
  splits : SplitsAt addr ip port
  ipPresent : ip ≠ []
  accepted : Accepted inetAddr ip
  portPresent : port ≠ []
  digits : AllDigits port
  small : value port ≤ 65535

structure DecidesAddress (addr : Bytes) : Prop where
  returns : checkValid inetAddr addr ≠ none
  decides : checkValid inetAddr addr = some true ↔ ∃ ip port, AddressText inetAddr addr ip port
  stored : checkValid inetAddr addr = some true → ∀ ip port, AddressText inetAddr addr ip port →
    (parseIPNetAddr inetAddr addr).ip = ip ∧ (parseIPNetAddr inetAddr addr).port = value port
  again : checkValid inetAddr addr = some true →
    (parseIPNetAddr inetAddr addr).checkValid inetAddr = some true ∧
      parseIPNetAddr inetAddr (parseIPNetAddr inetAddr addr).toString = parseIPNetAddr inetAddr addr

-- The port starts with a number that is an int, and one that a port can have
-- has nothing around it.
def PortReadable (addr : Bytes) : Prop :=
  ∀ ip port, SplitsAt addr ip port → ip ≠ [] → port ≠ [] →
    ∃ number, Reads (cStr port) number ∧ InRange number ∧
      (number < 0 ∨ 65535 < number ∨ AllDigits port ∨ ¬ Accepted inetAddr ip)

end Grammar

theorem find_first_of_none (byte : UInt8) (bytes : Bytes) : findFirstOf byte bytes = none ↔ byte ∉ bytes := by
  induction bytes with
  | nil => simp [findFirstOf]
  | cons head tail ih =>
      rw [findFirstOf, List.mem_cons, not_or, ← ih]
      split
      · next same => simp [same]
      · next different => simp [Ne.symm different]

theorem find_first_of_split (byte : UInt8) (front back : Bytes) (first : byte ∉ front) :
    findFirstOf byte (front ++ byte :: back) = some front.length := by
  induction front with
  | nil => simp [findFirstOf]
  | cons head front ih =>
      rw [List.mem_cons, not_or] at first
      rw [List.cons_append, findFirstOf, if_neg (Ne.symm first.1), ih first.2]
      rfl

theorem splits_at_exists (addr : Bytes) (colon : 0x3A ∈ addr) : ∃ ip port, SplitsAt addr ip port := by
  obtain ⟨ip, port, shape, first⟩ := List.eq_append_cons_of_mem colon
  exact ⟨ip, port, shape, first⟩

theorem splits_at_unique (addr ip otherIp port otherPort : Bytes) (splits : SplitsAt addr ip port)
    (other : SplitsAt addr otherIp otherPort) : ip = otherIp ∧ port = otherPort := by
  obtain ⟨rfl, first⟩ := splits
  obtain ⟨same, otherFirst⟩ := other
  have found := find_first_of_split 0x3A ip port first
  rw [same, find_first_of_split 0x3A otherIp otherPort otherFirst, Option.some.injEq] at found
  obtain ⟨sameIp, samePort⟩ := List.append_inj same found.symm
  exact ⟨sameIp, (List.cons.inj samePort).2⟩

theorem text_decimal (number : Nat) : text (toString number) = decimal number := by
  rw [text, decimal]
  congr 1
  exact Nat.toList_repr

theorem stoi_iff (str : Bytes) (number : Int) : stoi str = some number ↔ Reads (cStr str) number ∧ InRange number := by
  rw [stoi, Option.bind_eq_some_iff]
  constructor
  · rintro ⟨exactNumber, read, fits⟩
    obtain ⟨inside, rfl⟩ := (checked_eq_some _ _).mp fits
    exact ⟨(leading_number_iff _ _).mp read, inside⟩
  · rintro ⟨reads, inside⟩
    exact ⟨number, (leading_number_iff _ _).mpr reads, checked_some number inside⟩

-- Where stoi does not throw, atoi reads the same number.
theorem atoi_of_stoi (str : Bytes) (number : Int) (read : stoi str = some number) : atoi str = number := by
  obtain ⟨reads, inside⟩ := (stoi_iff str number).mp read
  have clamped : clampLong number = number := by
    obtain ⟨lower, upper⟩ := inside
    rw [clampLong]
    omega
  rw [atoi, (leading_number_iff _ _).mpr reads, Option.getD_some, clamped, narrow_of_range number inside]

theorem c_str_digits (port : Bytes) (digits : AllDigits port) : cStr port = port := by
  rw [cStr, List.takeWhile_eq_self_iff]
  intro byte member
  refine decide_eq_true ?_
  rintro rfl
  exact absurd (digits 0 member) (by decide)

theorem stoi_digits (port : Bytes) (digits : AllDigits port) (present : port ≠ []) : stoi port = checked (value port) := by
  rw [stoi, c_str_digits port digits, leading_digits port digits present, Option.bind_some]

theorem to_uint16_small (number : Int) (lower : 0 ≤ number) (upper : number ≤ 65535) : toUint16 number = number.toNat := by
  rw [toUint16, Int.emod_eq_of_lt lower (by omega)]

section InetAddr

variable (inetAddr : Bytes → UInt32)

theorem check_valid_no_colon (addr : Bytes) (noColon : 0x3A ∉ addr) : checkValid inetAddr addr = some false := by
  rw [checkValid, (find_first_of_none 0x3A addr).mpr noColon]

theorem check_valid_split (addr ip port : Bytes) (splits : SplitsAt addr ip port) :
    checkValid inetAddr addr =
      if ip = [] ∨ port = [] then some false
      else (stoi port).bind fun number =>
        if number < 0 ∨ number > 65535 then some false else some (decide (inetAddr (cStr ip) ≠ INADDR_NONE)) := by
  obtain ⟨rfl, first⟩ := splits
  simp only [checkValid, find_first_of_split 0x3A ip port first, List.take_left', ← List.drop_drop, List.drop_left',
    List.drop_one, List.tail_cons, Option.bind_eq_bind]

theorem parse_split (addr ip port : Bytes) (splits : SplitsAt addr ip port) :
    parseIPNetAddr inetAddr addr = newIPNetAddr inetAddr ip (toUint16 (atoi port)) := by
  obtain ⟨rfl, first⟩ := splits
  simp only [parseIPNetAddr, find_first_of_split 0x3A ip port first, List.take_left', ← List.drop_drop, List.drop_left',
    List.drop_one, List.tail_cons]

theorem check_valid_true_iff (addr : Bytes) :
    checkValid inetAddr addr = some true ↔
      ∃ ip port number, SplitsAt addr ip port ∧ ip ≠ [] ∧ port ≠ [] ∧ stoi port = some number ∧ 0 ≤ number ∧
        number ≤ 65535 ∧ Accepted inetAddr ip := by
  constructor
  · intro valid
    by_cases colon : 0x3A ∈ addr
    · obtain ⟨ip, port, splits⟩ := splits_at_exists addr colon
      rw [check_valid_split inetAddr addr ip port splits] at valid
      split at valid
      · cases valid
      · next present =>
          rw [not_or] at present
          obtain ⟨number, read, decided⟩ := Option.bind_eq_some_iff.mp valid
          split at decided
          · cases decided
          · next inside =>
              refine ⟨ip, port, number, splits, present.1, present.2, read, by omega, by omega, ?_⟩
              exact of_decide_eq_true (Option.some.inj decided)
    · rw [check_valid_no_colon inetAddr addr colon] at valid
      cases valid
  · rintro ⟨ip, port, number, splits, ipPresent, portPresent, read, lower, upper, accepted⟩
    rw [check_valid_split inetAddr addr ip port splits, if_neg (not_or.mpr ⟨ipPresent, portPresent⟩), read, Option.bind_some,
      if_neg (by omega), Option.some.injEq]
    exact decide_eq_true accepted

-- What an address prints is accepted and read back.
theorem address_again (ip : Bytes) (port : Nat) (ipPresent : ip ≠ []) (noColon : 0x3A ∉ ip) (small : port ≤ 65535)
    (accepted : Accepted inetAddr ip) :
    (newIPNetAddr inetAddr ip port).checkValid inetAddr = some true ∧
      parseIPNetAddr inetAddr (newIPNetAddr inetAddr ip port).toString = newIPNetAddr inetAddr ip port := by
  have printed : SplitsAt (newIPNetAddr inetAddr ip port).toString ip (decimal port) := by
    refine ⟨?_, noColon⟩
    rw [IPNetAddr.toString, newIPNetAddr, text_decimal, List.append_assoc]
    rfl
  have read : stoi (decimal port) = some (port : Int) := by
    rw [stoi_digits _ (decimal_digits port) (decimal_present port), value_decimal]
    exact checked_some _ ⟨by omega, by omega⟩
  constructor
  · rw [IPNetAddr.checkValid, check_valid_true_iff]
    exact ⟨ip, decimal port, port, printed, ipPresent, decimal_present port, read, by omega, by omega, accepted⟩
  · rw [parse_split inetAddr _ ip (decimal port) printed, atoi_of_stoi _ _ read,
      to_uint16_small _ (by omega) (by omega), Int.toNat_natCast]

theorem port_readable_iff (addr ip port : Bytes) (splits : SplitsAt addr ip port) (ipPresent : ip ≠ [])
    (portPresent : port ≠ []) :
    PortReadable inetAddr addr ↔ ∃ number, stoi port = some number ∧
      (number < 0 ∨ 65535 < number ∨ AllDigits port ∨ ¬ Accepted inetAddr ip) := by
  constructor
  · intro readable
    obtain ⟨number, reads, inside, alone⟩ := readable ip port splits ipPresent portPresent
    exact ⟨number, (stoi_iff port number).mpr ⟨reads, inside⟩, alone⟩
  · rintro ⟨number, read, alone⟩ otherIp otherPort otherSplits _ _
    obtain ⟨rfl, rfl⟩ := splits_at_unique addr ip otherIp port otherPort splits otherSplits
    obtain ⟨reads, inside⟩ := (stoi_iff port number).mp read
    exact ⟨number, reads, inside, alone⟩

theorem refused_decides (addr : Bytes) (refused : checkValid inetAddr addr = some false)
    (noAddress : ¬ ∃ ip port, AddressText inetAddr addr ip port) : DecidesAddress inetAddr addr := by
  have notValid : checkValid inetAddr addr ≠ some true := by simp [refused]
  exact ⟨by simp [refused], ⟨fun valid => absurd valid notValid, fun address => absurd address noAddress⟩,
    fun valid => absurd valid notValid, fun valid => absurd valid notValid⟩

theorem accepted_decides (addr ip port : Bytes) (number : Int) (splits : SplitsAt addr ip port) (ipPresent : ip ≠ [])
    (portPresent : port ≠ []) (digits : AllDigits port) (read : stoi port = some number) (lower : 0 ≤ number)
    (upper : number ≤ 65535) (accepted : Accepted inetAddr ip) : DecidesAddress inetAddr addr := by
  have valid : checkValid inetAddr addr = some true :=
    (check_valid_true_iff inetAddr addr).mpr
      ⟨ip, port, number, splits, ipPresent, portPresent, read, lower, upper, accepted⟩
  have readValue := read
  rw [stoi_digits port digits portPresent] at readValue
  obtain ⟨_, rfl⟩ := (checked_eq_some _ _).mp readValue
  have parsed : parseIPNetAddr inetAddr addr = newIPNetAddr inetAddr ip (value port) := by
    rw [parse_split inetAddr addr ip port splits, atoi_of_stoi port _ read, to_uint16_small _ lower upper, Int.toNat_natCast]
  have again := address_again inetAddr ip (value port) ipPresent splits.2 (by omega) accepted
  refine ⟨by simp [valid], ⟨fun _ => ⟨ip, port, splits, ipPresent, accepted, portPresent, digits, by omega⟩, fun _ => valid⟩,
    ?_, ?_⟩
  · intro _ otherIp otherPort address
    obtain ⟨rfl, rfl⟩ := splits_at_unique addr ip otherIp port otherPort splits address.splits
    rw [parsed]
    exact ⟨rfl, rfl⟩
  · intro _
    rw [parsed]
    exact again

theorem decides_split_iff (addr ip port : Bytes) (splits : SplitsAt addr ip port) (ipPresent : ip ≠ [])
    (portPresent : port ≠ []) : DecidesAddress inetAddr addr ↔ PortReadable inetAddr addr := by
  rw [port_readable_iff inetAddr addr ip port splits ipPresent portPresent]
  have checked := check_valid_split inetAddr addr ip port splits
  rw [if_neg (not_or.mpr ⟨ipPresent, portPresent⟩)] at checked
  constructor
  · intro decides
    cases read : stoi port with
    | none =>
        rw [read, Option.bind_none] at checked
        exact absurd checked decides.returns
    | some number =>
        refine ⟨number, rfl, ?_⟩
        by_contra others
        simp only [not_or, not_not] at others
        obtain ⟨lower, upper, notDigits, accepted⟩ := others
        obtain ⟨otherIp, otherPort, address⟩ := decides.decides.mp ((check_valid_true_iff inetAddr addr).mpr
          ⟨ip, port, number, splits, ipPresent, portPresent, read, by omega, by omega, accepted⟩)
        obtain ⟨rfl, rfl⟩ := splits_at_unique addr ip otherIp port otherPort splits address.splits
        exact notDigits address.digits
  · rintro ⟨number, read, alone⟩
    rw [read, Option.bind_some] at checked
    by_cases inside : 0 ≤ number ∧ number ≤ 65535 ∧ Accepted inetAddr ip
    · obtain ⟨lower, upper, accepted⟩ := inside
      have digits : AllDigits port := by
        rcases alone with negative | large | digits | refused
        · omega
        · omega
        · exact digits
        · exact absurd accepted refused
      exact accepted_decides inetAddr addr ip port number splits ipPresent portPresent digits read lower upper accepted
    · refine refused_decides inetAddr addr ?_ ?_
      · rw [checked]
        split
        · rfl
        · next bounded =>
            rw [Option.some.injEq]
            exact decide_eq_false fun accepted => inside ⟨by omega, by omega, accepted⟩
      · rintro ⟨otherIp, otherPort, address⟩
        obtain ⟨rfl, rfl⟩ := splits_at_unique addr ip otherIp port otherPort splits address.splits
        rw [stoi_digits port address.digits portPresent] at read
        obtain ⟨_, rfl⟩ := (checked_eq_some _ _).mp read
        have small := address.small
        exact inside ⟨by omega, by omega, address.accepted⟩

theorem decides_address_iff (addr : Bytes) : DecidesAddress inetAddr addr ↔ PortReadable inetAddr addr := by
  by_cases parts : ∃ ip port, SplitsAt addr ip port ∧ ip ≠ [] ∧ port ≠ []
  · obtain ⟨ip, port, splits, ipPresent, portPresent⟩ := parts
    exact decides_split_iff inetAddr addr ip port splits ipPresent portPresent
  · refine iff_of_true (refused_decides inetAddr addr ?_ ?_) ?_
    · by_cases colon : 0x3A ∈ addr
      · obtain ⟨ip, port, splits⟩ := splits_at_exists addr colon
        rw [check_valid_split inetAddr addr ip port splits, if_pos]
        by_contra present
        rw [not_or] at present
        exact parts ⟨ip, port, splits, present⟩
      · exact check_valid_no_colon inetAddr addr colon
    · rintro ⟨ip, port, address⟩
      exact parts ⟨ip, port, address.splits, address.ipPresent, address.portPresent⟩
    · intro ip port splits ipPresent portPresent
      exact absurd ⟨ip, port, splits, ipPresent, portPresent⟩ parts

end InetAddr

-- A service name with a colon makes stoi throw.
theorem named_port_diverges :
    ¬ DecidesAddress (fun _ => INADDR_NONE) (text "order:svc") ∧
      ¬ DecidesAddress (fun _ => 0x0100007F) (text "127.0.0.1: 80x") := by
  constructor
  · intro decides
    exact decides.returns (by decide)
  · intro decides
    obtain ⟨ip, port, address⟩ := decides.decides.mp (by decide)
    have known : SplitsAt (text "127.0.0.1: 80x") (text "127.0.0.1") (text " 80x") := ⟨by decide, by decide⟩
    obtain ⟨rfl, rfl⟩ := splits_at_unique _ ip _ port _ address.splits known
    exact absurd (address.digits 0x20 (by decide)) (by decide)

end Rocket
