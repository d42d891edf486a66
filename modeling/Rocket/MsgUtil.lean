import Mathlib.Data.List.Nodup
import Rocket.Lib.Numeral
import Rocket.Lib.Trace
import Rocket.Lib.Word32

set_option autoImplicit false

namespace Rocket

open Numeral Trace Word32

def msgIdLength : Nat := 20

-- The two thread_local strings.
structure MsgIds where
  msgIdNo : Bytes
  maxMsgIdNo : Bytes
deriving DecidableEq, Repr

structure Generated where
  msgId : Bytes
  state : MsgIds
  seeded : Bool
  touched : List Int
deriving DecidableEq, Repr

-- The while loop that runs back over the nines, with the position it starts
-- from plus one. The character is read before i is compared with 0, so a string
-- of nines has position -1 read as well; what is read there changes nothing.
def passNines (msgIdNo : Bytes) : Nat → Int × List Int
  | 0 => (-1, [-1])
  | i + 1 =>
      if msgIdNo.getD i 0 = 0x39 then
        let rest := passNines msgIdNo i
        (rest.1, (i : Int) :: rest.2)
      else (i, [(i : Int)])

def fillZeros (msgIdNo : Bytes) (start count : Nat) : Bytes :=
  (List.range' start count).foldl (fun filled j => filled.set j 0x30) msgIdNo

def seedDigit (byte : UInt8) : UInt8 := byte % 10 + 0x30

def Reseeds (ids : MsgIds) : Prop := ids.msgIdNo = [] ∨ ids.msgIdNo = ids.maxMsgIdNo

instance (ids : MsgIds) : Decidable (Reseeds ids) :=
  inferInstanceAs (Decidable (ids.msgIdNo = [] ∨ ids.msgIdNo = ids.maxMsgIdNo))

-- random is what read has put into res, and none when it has failed. Each round
-- of seeding appends another twenty nines to the maximum.
def generateMsgId (ids : MsgIds) (random : Option Bytes) : Generated :=
  if Reseeds ids then
    match random with
    | none => ⟨[], ids, false, []⟩
    | some res =>
        if res.length = msgIdLength then
          let seed := res.map seedDigit
          ⟨seed, ⟨seed, ids.maxMsgIdNo ++ List.replicate msgIdLength 0x39⟩, true, []⟩
        else ⟨[], ids, false, []⟩
  else
    let (i, passed) := passNines ids.msgIdNo ids.msgIdNo.length
    if 0 ≤ i then
      let raised := ids.msgIdNo.set i.toNat (ids.msgIdNo.getD i.toNat 0 + 1)
      let next := fillZeros raised (i.toNat + 1) (raised.length - (i.toNat + 1))
      let filled := (List.range' (i.toNat + 1) (raised.length - (i.toNat + 1))).map Int.ofNat
      ⟨next, ⟨next, ids.maxMsgIdNo⟩, false, passed ++ i :: filled⟩
    else
      let zeros := List.replicate msgIdLength 0x30
      ⟨zeros, ⟨zeros, ids.maxMsgIdNo⟩, false, passed⟩

def msgIdStep (ids : MsgIds) (random : Option Bytes) : Option MsgIds := some (generateMsgId ids random).state

-- A thread starts with two empty strings.
def ReachableIds (ids : MsgIds) : Prop := ∃ calls, run msgIdStep ⟨[], []⟩ calls = some ids

def generatedIds : MsgIds → List (Option Bytes) → List Bytes
  | _, [] => []
  | ids, random :: calls => (generateMsgId ids random).msgId :: generatedIds (generateMsgId ids random).state calls

def IsDigit (char : UInt8) : Prop := 0x30 ≤ char.toNat ∧ char.toNat ≤ 0x39

structure DecimalId (msgId : Bytes) : Prop where
  length : msgId.length = msgIdLength
  digits : ∀ char ∈ msgId, IsDigit char

def digitsOf (msgId : Bytes) : List Nat := msgId.map (fun char => char.toNat - 0x30)

def idValue (msgId : Bytes) : Nat := value 10 (digitsOf msgId)

structure Counting (ids : MsgIds) : Prop where
  decimal : DecimalId ids.msgIdNo
  rounds : ∃ count, ids.maxMsgIdNo = List.replicate (msgIdLength * (count + 1)) 0x39

def IdsOk (ids : MsgIds) : Prop := ids = ⟨[], []⟩ ∨ Counting ids

theorem seed_digit_decimal (byte : UInt8) : IsDigit (seedDigit byte) := by
  have small : (byte % 10).toNat < 10 := by
    rw [UInt8.toNat_mod]
    exact Nat.mod_lt _ (by decide)
  have sum : (seedDigit byte).toNat = (byte % 10).toNat + 0x30 := by
    rw [seedDigit, UInt8.toNat_add]
    exact Nat.mod_eq_of_lt (by simp; omega)
  rw [IsDigit, sum]
  omega

theorem fill_zeros_front (front back : Bytes) :
    fillZeros (front ++ back) front.length back.length = front ++ List.replicate back.length 0x30 := by
  rw [fillZeros]
  induction back generalizing front with
  | nil => rfl
  | cons char back ih =>
      have rest := ih (front ++ [0x30])
      have shape : (front ++ char :: back).set front.length 0x30 = front ++ [0x30] ++ back := by simp
      rw [List.length_append, List.length_singleton] at rest
      rw [List.length_cons, List.range'_succ, List.foldl_cons, shape, rest, List.append_assoc, List.replicate_succ]
      rfl

theorem pass_nines_stop (msgIdNo : Bytes) (i count : Nat) (stop : msgIdNo.getD i 0 ≠ 0x39)
    (nines : ∀ j, i < j → j ≤ i + count → msgIdNo.getD j 0 = 0x39) :
    (passNines msgIdNo (i + 1 + count)).1 = i ∧
      ∀ j ∈ (passNines msgIdNo (i + 1 + count)).2, (i : Int) ≤ j ∧ j ≤ i + count := by
  induction count with
  | zero =>
      rw [Nat.add_zero, passNines, if_neg stop]
      simp
  | succ count ih =>
      obtain ⟨found, between⟩ := ih (fun j above below => nines j above (by omega))
      have nine := nines (i + 1 + count) (by omega) (by omega)
      rw [← Nat.add_assoc, passNines, if_pos nine]
      refine ⟨found, ?_⟩
      intro j member
      obtain rfl | inner := List.mem_cons.mp member
      · omega
      · obtain ⟨lower, upper⟩ := between j inner
        omega

theorem digit_raised (char : UInt8) (digit : IsDigit char) (notNine : char ≠ 0x39) :
    IsDigit (char + 1) ∧ (char + 1).toNat - 0x30 = char.toNat - 0x30 + 1 := by
  obtain ⟨lower, upper⟩ := digit
  have different : char.toNat ≠ 0x39 := fun same => notNine (UInt8.toNat_inj.mp same)
  have sum : (char + 1).toNat = char.toNat + 1 := by
    rw [UInt8.toNat_add]
    exact Nat.mod_eq_of_lt (by simp; omega)
  exact ⟨⟨by omega, by omega⟩, by omega⟩

theorem carried_value (high : Bytes) (char : UInt8) (count : Nat) (digit : IsDigit char) (notNine : char ≠ 0x39) :
    idValue (high ++ (char + 1) :: List.replicate count 0x30) = idValue (high ++ char :: List.replicate count 0x39) + 1 := by
  have carry := value_carry 10 (char.toNat - 0x30) count (digitsOf high) (by decide)
  rw [← (digit_raised char digit notNine).2] at carry
  simp only [idValue, digitsOf, List.map_append, List.map_cons, List.map_replicate]
  exact carry

theorem not_reseeds (ids : MsgIds) (counting : Counting ids) (notLast : ids.msgIdNo ≠ List.replicate msgIdLength 0x39) :
    ¬ Reseeds ids := by
  have length := counting.decimal.length
  obtain ⟨count, shape⟩ := counting.rounds
  rintro (empty | same)
  · rw [empty] at length
    cases length
  · rw [shape] at same
    have widths := congrArg List.length same
    rw [length, List.length_replicate] at widths
    exact notLast (by rw [same, ← widths])

-- The digits of the id are a part that stays, one digit that goes up and the
-- nines behind it.
theorem generate_carries (ids : MsgIds) (random : Option Bytes) (high : Bytes) (char : UInt8) (count : Nat)
    (counts : ¬ Reseeds ids) (notNine : char ≠ 0x39) (shape : ids.msgIdNo = high ++ char :: List.replicate count 0x39) :
    ∃ touched, generateMsgId ids random = ⟨high ++ (char + 1) :: List.replicate count 0x30,
        ⟨high ++ (char + 1) :: List.replicate count 0x30, ids.maxMsgIdNo⟩, false, touched⟩ ∧
      ∀ j ∈ touched, 0 ≤ j ∧ j < ids.msgIdNo.length := by
  have width : ids.msgIdNo.length = high.length + 1 + count := by
    rw [shape]
    simp only [List.length_append, List.length_cons, List.length_replicate]
    omega
  have here : ids.msgIdNo.getD high.length 0 = char := by
    rw [shape]
    simp
  have nines (j : Nat) (above : high.length < j) (below : j ≤ high.length + count) : ids.msgIdNo.getD j 0 = 0x39 := by
    obtain ⟨k, rfl⟩ : ∃ k, j = high.length + (k + 1) := ⟨j - high.length - 1, by omega⟩
    rw [shape, List.getD_eq_getElem?_getD, List.getElem?_append_right (by omega), Nat.add_sub_cancel_left,
      List.getElem?_cons_succ, List.getElem?_replicate_of_lt (by omega), Option.getD_some]
  obtain ⟨found, passed⟩ := pass_nines_stop ids.msgIdNo high.length count (here.symm ▸ notNine) nines
  rw [← width] at found passed
  have raised : ids.msgIdNo.set high.length (char + 1) = high ++ [char + 1] ++ List.replicate count 0x39 := by
    rw [shape]
    simp
  have filled := fill_zeros_front (high ++ [char + 1]) (List.replicate count 0x39)
  rw [← raised, List.length_append, List.length_singleton, List.length_replicate, List.append_assoc, List.singleton_append]
    at filled
  have left : (ids.msgIdNo.set high.length (char + 1)).length - (high.length + 1) = count := by
    rw [List.length_set]
    omega
  refine ⟨(passNines ids.msgIdNo ids.msgIdNo.length).2 ++
    (high.length : Int) :: (List.range' (high.length + 1) count).map Int.ofNat, ?_, ?_⟩
  · have position : (0 : Int) ≤ high.length := by omega
    simp only [generateMsgId, if_neg counts, if_pos position, found, Int.toNat_natCast, here, left, filled]
  · intro j member
    rw [List.mem_append, List.mem_cons, List.mem_map] at member
    obtain inner | rfl | ⟨k, inside, rfl⟩ := member
    · obtain ⟨lower, upper⟩ := passed j inner
      omega
    · omega
    · rw [List.mem_range'_1] at inside
      simp only [Int.ofNat_eq_natCast]
      omega

theorem generate_counts (ids : MsgIds) (random : Option Bytes) (counting : Counting ids)
    (notLast : ids.msgIdNo ≠ List.replicate msgIdLength 0x39) :
    (generateMsgId ids random).seeded = false ∧
      (generateMsgId ids random).state = ⟨(generateMsgId ids random).msgId, ids.maxMsgIdNo⟩ ∧
      (∀ j ∈ (generateMsgId ids random).touched, 0 ≤ j ∧ j < msgIdLength) ∧
      DecimalId (generateMsgId ids random).msgId ∧
      idValue (generateMsgId ids random).msgId = idValue ids.msgIdNo + 1 := by
  have counts := not_reseeds ids counting notLast
  obtain ⟨length, digits⟩ := counting.decimal
  obtain all | ⟨high, char, count, notNine, shape⟩ := trailing_cases 0x39 ids.msgIdNo
  · rw [length] at all
    exact absurd all notLast
  · obtain ⟨touched, generated, inside⟩ := generate_carries ids random high char count counts notNine shape
    rw [length] at inside
    rw [shape] at digits length
    have digit := digits char (by simp)
    rw [generated]
    refine ⟨rfl, rfl, inside, ⟨?_, ?_⟩, ?_⟩
    · simpa using length
    · intro other member
      simp only [List.mem_append, List.mem_cons, List.mem_replicate] at member
      obtain kept | rfl | ⟨_, rfl⟩ := member
      · exact digits other (List.mem_append_left _ kept)
      · exact (digit_raised char digit notNine).1
      · exact ⟨by decide, by decide⟩
    · rw [shape]
      exact carried_value high char count digit notNine

theorem generate_seeds (ids : MsgIds) (res : Bytes) (reseeds : Reseeds ids) (full : res.length = msgIdLength) :
    generateMsgId ids (some res) = ⟨res.map seedDigit,
        ⟨res.map seedDigit, ids.maxMsgIdNo ++ List.replicate msgIdLength 0x39⟩, true, []⟩ ∧
      DecimalId (res.map seedDigit) := by
  refine ⟨?_, ?_, ?_⟩
  · simp only [generateMsgId, if_pos reseeds, if_pos full]
  · rw [List.length_map, full]
  · intro char member
    obtain ⟨byte, _, rfl⟩ := List.mem_map.mp member
    exact seed_digit_decimal byte

theorem seeded_counting (ids : MsgIds) (res : Bytes) (ok : IdsOk ids) (reseeds : Reseeds ids)
    (full : res.length = msgIdLength) : Counting (generateMsgId ids (some res)).state := by
  obtain ⟨generated, decimal⟩ := generate_seeds ids res reseeds full
  rw [generated]
  refine ⟨decimal, ?_⟩
  obtain rfl | counting := ok
  · exact ⟨0, rfl⟩
  · obtain ⟨count, shape⟩ := counting.rounds
    refine ⟨count + 1, ?_⟩
    simp only [shape, List.replicate_append_replicate, Nat.mul_add, Nat.mul_one]

-- The last id starts over with zeros once a second seeding has made the maximum
-- longer than any id.
theorem generate_wraps (ids : MsgIds) (random : Option Bytes) (counts : ¬ Reseeds ids)
    (last : ids.msgIdNo = List.replicate msgIdLength 0x39) :
    generateMsgId ids random = ⟨List.replicate msgIdLength 0x30, ⟨List.replicate msgIdLength 0x30, ids.maxMsgIdNo⟩, false,
      (passNines (List.replicate msgIdLength 0x39) msgIdLength).2⟩ := by
  have found : (passNines (List.replicate msgIdLength 0x39) msgIdLength).1 = -1 := by decide
  simp only [generateMsgId, if_neg counts, last, List.length_replicate, found, if_neg (by decide : ¬ (0 : Int) ≤ -1)]

theorem ids_ok_step (ids later : MsgIds) (random : Option Bytes) (ok : IdsOk ids)
    (step : msgIdStep ids random = some later) : IdsOk later := by
  obtain rfl := Option.some.inj step
  by_cases reseeds : Reseeds ids
  · cases random with
    | none =>
        rw [generateMsgId, if_pos reseeds]
        exact ok
    | some res =>
        by_cases full : res.length = msgIdLength
        · exact Or.inr (seeded_counting ids res ok reseeds full)
        · simp only [generateMsgId, if_pos reseeds, if_neg full]
          exact ok
  · obtain rfl | counting := ok
    · exact absurd (Or.inl rfl) reseeds
    · by_cases last : ids.msgIdNo = List.replicate msgIdLength 0x39
      · rw [generate_wraps ids random reseeds last]
        refine Or.inr ⟨⟨rfl, ?_⟩, counting.rounds⟩
        intro char member
        obtain rfl := (List.mem_replicate.mp member).2
        exact ⟨by decide, by decide⟩
      · obtain ⟨_, state, _, decimal, _⟩ := generate_counts ids random counting last
        rw [state]
        exact Or.inr ⟨decimal, counting.rounds⟩

theorem reachable_ids_ok (ids : MsgIds) (reachable : ReachableIds ids) : IdsOk ids := by
  obtain ⟨calls, reached⟩ := reachable
  have always : Always msgIdStep IdsOk ⟨[], []⟩ calls := by
    refine free_always msgIdStep IdsOk IdsOk (fun _ ok => ok) ?_ _ calls (Or.inl rfl)
    intro state random ok
    exact ⟨_, rfl, ids_ok_step state _ random ok rfl⟩
  obtain ⟨later, ran, ok⟩ := always_run msgIdStep IdsOk _ calls always
  obtain rfl := Option.some.inj (reached.symm.trans ran)
  exact ok

theorem last_id_value : idValue (List.replicate msgIdLength 0x39) + 1 = 10 ^ msgIdLength :=
  value_last 10 msgIdLength (by decide)

theorem generated_ids_values (ids : MsgIds) (calls : List (Option Bytes)) (counting : Counting ids)
    (room : idValue ids.msgIdNo + calls.length < 10 ^ msgIdLength) :
    (generatedIds ids calls).map idValue = List.range' (idValue ids.msgIdNo + 1) calls.length := by
  induction calls generalizing ids with
  | nil => rfl
  | cons random calls ih =>
      rw [List.length_cons] at room
      have notLast : ids.msgIdNo ≠ List.replicate msgIdLength 0x39 := by
        intro last
        have top := last_id_value
        rw [← last] at top
        omega
      obtain ⟨_, state, _, decimal, up⟩ := generate_counts ids random counting notLast
      have rest := ih (generateMsgId ids random).state (by rw [state]; exact ⟨decimal, counting.rounds⟩)
        (by rw [state, up]; omega)
      rw [state, up] at rest
      rw [generatedIds, List.map_cons, List.length_cons, List.range'_succ, up, state, rest]

theorem msg_ids_count_up (ids : MsgIds) (reachable : ReachableIds ids) :
    (∀ res : Bytes, Reseeds ids → res.length = msgIdLength →
      (generateMsgId ids (some res)).seeded = true ∧ DecimalId (generateMsgId ids (some res)).msgId) ∧
    (∀ random, ids.msgIdNo ≠ [] → ids.msgIdNo ≠ List.replicate msgIdLength 0x39 →
      (generateMsgId ids random).seeded = false ∧
        (∀ j ∈ (generateMsgId ids random).touched, 0 ≤ j ∧ j < msgIdLength) ∧
        DecimalId (generateMsgId ids random).msgId ∧
        idValue (generateMsgId ids random).msgId = idValue ids.msgIdNo + 1) ∧
    (∀ (res : Bytes) calls, Reseeds ids → res.length = msgIdLength →
      calls.length + 1 ≤ 10 ^ msgIdLength - idValue (generateMsgId ids (some res)).msgId →
      (generatedIds ids (some res :: calls)).map idValue =
          List.range' (idValue (generateMsgId ids (some res)).msgId) (calls.length + 1) ∧
        (generatedIds ids (some res :: calls)).Nodup) := by
  have ok := reachable_ids_ok ids reachable
  refine ⟨?_, ?_, ?_⟩
  · intro res reseeds full
    obtain ⟨generated, decimal⟩ := generate_seeds ids res reseeds full
    rw [generated]
    exact ⟨rfl, decimal⟩
  · intro random nonempty notLast
    obtain rfl | counting := ok
    · exact absurd rfl nonempty
    · obtain ⟨seeded, _, touched, decimal, up⟩ := generate_counts ids random counting notLast
      exact ⟨seeded, touched, decimal, up⟩
  · intro res calls reseeds full room
    have counting := seeded_counting ids res ok reseeds full
    have same : (generateMsgId ids (some res)).state.msgIdNo = (generateMsgId ids (some res)).msgId := by
      rw [(generate_seeds ids res reseeds full).1]
    have rest := generated_ids_values _ calls counting (by rw [same]; omega)
    have values : (generatedIds ids (some res :: calls)).map idValue =
        List.range' (idValue (generateMsgId ids (some res)).msgId) (calls.length + 1) := by
      rw [generatedIds, List.map_cons, rest, same, List.range'_succ]
    exact ⟨values, List.Nodup.of_map idValue (values ▸ List.nodup_range')⟩

theorem msg_ids_count_up_start :
    DecimalId (generateMsgId ⟨[], []⟩ (some (List.replicate 20 0xFF))).msgId :=
  ((msg_ids_count_up ⟨[], []⟩ ⟨[], rfl⟩).1 (List.replicate 20 0xFF) (by decide) (by decide)).2

end Rocket
