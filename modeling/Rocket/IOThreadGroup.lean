import Mathlib.Data.List.Range
import Rocket.IOThread

set_option autoImplicit false

namespace Rocket

open Settling

-- The loop of the constructor of IOthreadGroup, which gets what its
-- pthread_create calls give, then the loops of start and join.
def newIOthreadGroup : Nat → List (Option Int) → List (Nat × IOCall)
  | _, [] => []
  | index, made :: later => (index, .create made) :: (index, .waitInit) :: newIOthreadGroup (index + 1) later

def startGroup (size : Nat) : List (Nat × IOCall) := (List.range size).map fun index => (index, .start)

def joinGroup (size : Nat) : List (Nat × IOCall) := (List.range size).map fun index => (index, .join)

def startedGroup (made : List (Option Int)) : List (Nat × IOCall) := newIOthreadGroup 0 made ++ startGroup made.length

-- A server does not join its threads: its own loop follows start.
def groupProgram (made : List (Option Int)) (joins : Bool) : List (Nat × IOCall) :=
  startedGroup made ++ if joins = true then joinGroup made.length else []

-- The loops run until they are stopped, so join does not return.
structure GroupUp (made : List (Option Int)) (joins : Bool) (last : Owner) : Prop where
  rest : last.rest = if joins = true then joinGroup made.length else []
  loops : ∀ index id, made[index]? = some (some id) → ∃ io, last.threads index = some io ∧ io.threadId = id ∧
    io.phase = .looping ∧ ∃ loop, io.eventLoop = some loop ∧ loop.threadId = id ∧ loop.stopFlag = false

-- The constructor waits for the first thread that has not been made.
structure GroupHeld (made : List (Option Int)) (joins : Bool) (last : Owner) : Prop where
  constructing : ∃ before after, made = before ++ none :: after ∧ none ∉ before ∧
    last.rest = (before.length, .waitInit) :: (newIOthreadGroup (before.length + 1) after ++
      (startGroup made.length ++ if joins = true then joinGroup made.length else []))
  idle : ∀ index io, last.threads index = some io → io.phase ≠ .looping ∧ io.phase ≠ .returned

def GroupEnds (made : List (Option Int)) (joins : Bool) (last : Owner) : Prop :=
  if none ∈ made then GroupHeld made joins last else GroupUp made joins last

theorem proper_append (done first second : List (Nat × IOCall)) :
    ProperProgram done (first ++ second) ↔ ProperProgram done first ∧ ProperProgram (done ++ first) second := by
  induction first generalizing done with
  | nil => simp [ProperProgram]
  | cons statement first ih =>
      rw [List.cons_append, ProperProgram, ProperProgram, ih, and_assoc, List.append_assoc, List.singleton_append]

theorem group_calls (index start : Nat) (call : IOCall) (made : List (Option Int)) :
    (index, call) ∈ newIOthreadGroup start made ↔
      start ≤ index ∧ ∃ result, made[index - start]? = some result ∧ (call = .create result ∨ call = .waitInit) := by
  induction made generalizing start with
  | nil => simp [newIOthreadGroup]
  | cons result later ih =>
      rw [newIOthreadGroup, List.mem_cons, List.mem_cons, ih, Prod.mk.injEq, Prod.mk.injEq]
      rcases Nat.lt_trichotomy index start with below | same | above
      · simp [below.ne, show ¬start ≤ index by omega, show ¬start + 1 ≤ index by omega]
      · simp [same]
      · rw [show index - start = index - (start + 1) + 1 by omega, List.getElem?_cons_succ]
        simp [above.ne', above.le, Nat.succ_le_of_lt above]

theorem group_proper (start : Nat) (made : List (Option Int)) (done : List (Nat × IOCall))
    (free : ∀ index, start ≤ index → callsOf index done = []) : ProperProgram done (newIOthreadGroup start made) := by
  induction made generalizing start done with
  | nil => trivial
  | cons result later ih =>
      have first : callsOf start (done ++ [(start, .create result)]) = [.create result] := by
        rw [calls_of_same, free start (Nat.le_refl start), List.nil_append]
      refine ⟨free start (Nat.le_refl start), ⟨by rw [first]; simp, by rw [first]; simp⟩, ih (start + 1) _ ?_⟩
      intro index above
      have different : index ≠ start := by omega
      rw [calls_of_other start index _ _ different, calls_of_other start index _ _ different]
      exact free index (by omega)

theorem starts_proper (indices : List Nat) (done : List (Nat × IOCall))
    (constructed : ∀ index ∈ indices, .waitInit ∈ callsOf index done) :
    ProperProgram done (indices.map fun index => (index, .start)) := by
  induction indices generalizing done with
  | nil => trivial
  | cons index later ih =>
      refine ⟨constructed index List.mem_cons_self, ih _ ?_⟩
      intro other member
      rw [mem_calls_of]
      exact List.mem_append_left _ ((mem_calls_of other .waitInit done).mp (constructed other (List.mem_cons_of_mem _ member)))

theorem performed_all (done rest : List (Nat × IOCall))
    (free : ∀ statement ∈ done ++ rest, statement.2 ≠ .create none ∧ statement.2 ≠ .join) :
    performed done rest = done ++ rest := by
  induction rest generalizing done with
  | nil => rw [performed, List.append_nil]
  | cons statement rest ih =>
      have returns : ¬Hangs (callsOf statement.1 done) statement.2 := by
        have here := free statement (List.mem_append_right _ List.mem_cons_self)
        intro hangs
        obtain ⟨index, call⟩ := statement
        cases call with
        | waitInit =>
            have made := (mem_calls_of index (.create none) done).mp (List.mem_of_mem_head? hangs)
            exact (free _ (List.mem_append_left _ made)).1 rfl
        | join => exact here.2 rfl
        | create made => exact hangs
        | start => exact hangs
        | stop => exact hangs
      rw [performed, if_neg returns, ih (done ++ [statement]) (by simpa using free)]
      simp

theorem performed_append (done first second : List (Nat × IOCall)) (all : performed done first = done ++ first) :
    performed done (first ++ second) = performed (done ++ first) second := by
  induction first generalizing done with
  | nil => rw [List.nil_append, List.append_nil]
  | cons statement first ih =>
      by_cases hangs : Hangs (callsOf statement.1 done) statement.2
      · rw [performed, if_pos hangs] at all
        cases List.self_eq_append_right.mp all
      · rw [performed, if_neg hangs] at all
        rw [List.cons_append, performed, if_neg hangs, ih (done ++ [statement]) (by rw [all]; simp)]
        simp

theorem joins_proper (indices : List Nat) (done : List (Nat × IOCall)) (different : indices.Nodup)
    (joinable : ∀ index ∈ indices, .waitInit ∈ callsOf index done ∧ .join ∉ callsOf index done) :
    ProperProgram done (indices.map fun index => (index, .join)) := by
  induction indices generalizing done with
  | nil => trivial
  | cons index later ih =>
      obtain ⟨absent, rest⟩ := List.nodup_cons.mp different
      refine ⟨joinable index List.mem_cons_self, ih _ rest ?_⟩
      intro other member
      rw [calls_of_other index other _ _ (ne_of_mem_of_not_mem member absent)]
      exact joinable other (List.mem_cons_of_mem _ member)

theorem started_group_calls (index : Nat) (call : IOCall) (made : List (Option Int)) :
    (index, call) ∈ startedGroup made ↔
      ∃ result, made[index]? = some result ∧ (call = .create result ∨ call = .waitInit ∨ call = .start) := by
  have started : (index, call) ∈ startGroup made.length ↔ (∃ result, made[index]? = some result) ∧ call = .start := by
    rw [← Option.isSome_iff_exists, Option.isSome_iff_ne_none, ne_eq, List.getElem?_eq_none_iff, not_le]
    simp [startGroup, eq_comm]
  rw [startedGroup, List.mem_append, group_calls, started, Nat.sub_zero]
  grind

theorem started_group_create (index : Nat) (result : Option Int) (made : List (Option Int)) (joins : Bool)
    (member : (index, .create result) ∈ groupProgram made joins) : made[index]? = some result := by
  rcases List.mem_append.mp member with started | joined
  · obtain ⟨other, here, same⟩ := (started_group_calls index (.create result) made).mp started
    simp only [IOCall.create.injEq, reduceCtorEq, or_false] at same
    rw [same]
    exact here
  · split at joined
    · simp [joinGroup] at joined
    · cases joined

theorem started_group_proper (made : List (Option Int)) : ProperProgram [] (startedGroup made) := by
  rw [startedGroup, proper_append]
  refine ⟨group_proper 0 made [] (fun _ _ => rfl), ?_⟩
  apply starts_proper
  intro index member
  rw [List.nil_append, mem_calls_of, group_calls]
  have inside : index - 0 < made.length := List.mem_range.mp member
  exact ⟨Nat.zero_le _, made[index - 0], List.getElem?_eq_getElem inside, Or.inr rfl⟩

theorem group_program_proper (made : List (Option Int)) (joins : Bool) : ProperProgram [] (groupProgram made joins) := by
  rw [groupProgram, proper_append]
  refine ⟨started_group_proper made, ?_⟩
  cases joins with
  | false => trivial
  | true =>
      apply joins_proper _ _ List.nodup_range
      intro index member
      have inside : index < made.length := List.mem_range.mp member
      rw [List.nil_append, mem_calls_of, mem_calls_of, started_group_calls, started_group_calls]
      exact ⟨⟨made[index], List.getElem?_eq_getElem inside, Or.inr (Or.inl rfl)⟩, by simp⟩

theorem group_length (start : Nat) (made : List (Option Int)) :
    (newIOthreadGroup start made).length = 2 * made.length ∧ (created (newIOthreadGroup start made)).length = made.length := by
  induction made generalizing start with
  | nil => exact ⟨rfl, rfl⟩
  | cons result later ih =>
      obtain ⟨length, names⟩ := ih (start + 1)
      refine ⟨?_, by simpa [created, newIOthreadGroup] using names⟩
      rw [newIOthreadGroup, List.length_cons, List.length_cons, length, List.length_cons]
      omega

theorem group_bound (made : List (Option Int)) (joins : Bool) :
    (groupProgram made joins).length + 5 * (created (groupProgram made joins)).length =
      (if joins = true then 9 else 8) * made.length := by
  obtain ⟨length, names⟩ := group_length 0 made
  have onlyThese : created (groupProgram made joins) = created (newIOthreadGroup 0 made) := by
    cases joins <;> simp [groupProgram, startedGroup, created, startGroup, joinGroup]
  rw [onlyThese, names, groupProgram, startedGroup, List.length_append, List.length_append, length]
  cases joins <;> simp [startGroup, joinGroup] <;> omega

-- The calls up to start hang nowhere when every thread has been made, and the
-- first join does.
theorem group_performed (made : List (Option Int)) (joins : Bool) (all : none ∉ made) :
    performed [] (groupProgram made joins) = startedGroup made := by
  have started : performed [] (startedGroup made) = [] ++ startedGroup made := by
    apply performed_all
    rintro ⟨index, call⟩ member
    obtain ⟨result, here, rfl | rfl | rfl⟩ := (started_group_calls index call made).mp member
    · refine ⟨?_, nofun⟩
      intro same
      cases same
      exact all (List.mem_of_getElem? here)
    · exact ⟨nofun, nofun⟩
    · exact ⟨nofun, nofun⟩
  rw [groupProgram, performed_append _ _ _ started, List.nil_append]
  cases joins with
  | false => rfl
  | true =>
      cases size : made.length with
      | zero => rfl
      | succ size =>
          have hangs : Hangs (callsOf 0 (startedGroup made)) .join := by
            rintro ⟨_, stopped⟩
            obtain ⟨_, _, same⟩ := (started_group_calls 0 .stop made).mp ((mem_calls_of 0 .stop _).mp stopped)
            simp at same
          rw [if_pos rfl, joinGroup, List.range_succ_eq_map, List.map_cons, performed, if_pos hangs]

theorem group_append (start : Nat) (before after : List (Option Int)) :
    newIOthreadGroup start (before ++ after) =
      newIOthreadGroup start before ++ newIOthreadGroup (start + before.length) after := by
  induction before generalizing start with
  | nil => rfl
  | cons result before ih =>
      rw [List.cons_append, newIOthreadGroup, newIOthreadGroup, ih, List.length_cons]
      simp [Nat.add_assoc, Nat.add_comm 1]

theorem group_calls_above (start index : Nat) (made : List (Option Int)) (above : start + made.length ≤ index) :
    callsOf index (newIOthreadGroup start made) = [] := by
  refine List.eq_nil_iff_forall_not_mem.mpr ?_
  intro call member
  obtain ⟨_, result, here, _⟩ := (group_calls index start call made).mp ((mem_calls_of index call _).mp member)
  obtain ⟨inside, _⟩ := List.getElem?_eq_some_iff.mp here
  omega

-- Nobody posts the semaphore for which the constructor waits.
theorem failed_group_performed (before after : List (Option Int)) (rest : List (Nat × IOCall)) (all : none ∉ before) :
    performed [] (newIOthreadGroup 0 (before ++ none :: after) ++ rest) =
      newIOthreadGroup 0 before ++ [(before.length, .create none)] := by
  have first : performed [] (newIOthreadGroup 0 before) = [] ++ newIOthreadGroup 0 before := by
    apply performed_all
    rintro ⟨index, call⟩ member
    obtain ⟨_, result, here, rfl | rfl⟩ := (group_calls index 0 call before).mp member
    · refine ⟨?_, nofun⟩
      intro same
      cases same
      exact all (List.mem_of_getElem? here)
    · exact ⟨nofun, nofun⟩
  have hangs : Hangs (callsOf before.length (newIOthreadGroup 0 before ++ [(before.length, .create none)])) .waitInit := by
    rw [calls_of_same, group_calls_above 0 _ before (by omega)]
    rfl
  rw [group_append, List.append_assoc, performed_append _ _ _ first, Nat.zero_add, List.nil_append, newIOthreadGroup,
    List.cons_append, List.cons_append, performed, if_neg (show ¬Hangs _ (.create none) from not_false), performed,
    if_pos hangs]

theorem failed_group_held (made : List (Option Int)) (joins : Bool) (last : Owner) (failed : none ∈ made)
    (ready : Ready (groupProgram made joins) last) (ends : EndsAs (groupProgram made joins) last) :
    GroupHeld made joins last := by
  obtain ⟨before, after, rfl, all⟩ := List.eq_append_cons_of_mem failed
  have whole : performed [] (groupProgram (before ++ none :: after) joins) = newIOthreadGroup 0 before ++ [(before.length, .create none)] := by
    rw [groupProgram, startedGroup, List.append_assoc]
    exact failed_group_performed before after _ all
  refine ⟨⟨before, after, rfl, all, ?_⟩, ?_⟩
  · have rest := ends.rest
    rw [whole, groupProgram, startedGroup, group_append, Nat.zero_add, newIOthreadGroup] at rest
    simpa using rest.symm
  · intro other io here
    have unstarted : .start ∉ callsOf other (performed [] (groupProgram (before ++ none :: after) joins)) := by
      rw [whole, mem_calls_of]
      intro started
      rcases List.mem_append.mp started with earlier | last
      · obtain ⟨_, _, _, same⟩ := (group_calls other 0 .start before).mp earlier
        simp at same
      · cases List.mem_singleton.mp last
    have idle := fun running => unstarted (ready.heldBack _ other io ends.rest here running)
    exact ⟨fun looping => idle (Or.inl looping), fun returned => idle (Or.inr returned)⟩

theorem made_group_up (made : List (Option Int)) (joins : Bool) (last : Owner) (all : none ∉ made)
    (ready : Ready (groupProgram made joins) last) (ends : EndsAs (groupProgram made joins) last) :
    GroupUp made joins last := by
  have whole := group_performed made joins all
  have calls (index : Nat) (call : IOCall) : call ∈ callsOf index (performed [] (groupProgram made joins)) ↔
      ∃ result, made[index]? = some result ∧ (call = .create result ∨ call = .waitInit ∨ call = .start) := by
    rw [whole, mem_calls_of, started_group_calls]
  refine ⟨?_, ?_⟩
  · have parts := ends.rest
    rw [whole] at parts
    exact (List.append_cancel_left parts).symm
  · intro index id here
    have waited := (calls index .waitInit).mpr ⟨_, here, Or.inr (Or.inl rfl)⟩
    have started := (calls index .start).mpr ⟨_, here, Or.inr (Or.inr rfl)⟩
    have running : .stop ∉ callsOf index (performed [] (groupProgram made joins)) := by
      intro stopped
      obtain ⟨_, _, same⟩ := (calls index .stop).mp stopped
      simp at same
    obtain ⟨io, other, loop, present, named, threadId, hasLoop, loopId⟩ := ready.constructed _ index ends.rest waited
    have again := started_group_create index (some other) made joins (ends.rest ▸ List.mem_append_left _ named)
    cases here.symm.trans again
    obtain ⟨looping, unstopped⟩ := settled_running _ io loop ((ends.threads index).symm.trans present) started running hasLoop
    exact ⟨io, present, threadId, looping, loop, hasLoop, loopId, unstopped⟩

-- The group comes up exactly when every pthread_create has made its thread.
-- Otherwise its constructor waits for ever and no event loop is entered.
theorem io_group_settles (made : List (Option Int)) (joins : Bool) :
    SettlesIn ownerTurn (Ready (groupProgram made joins)) (GroupEnds made joins)
      ((if joins = true then 9 else 8) * made.length) (newOwner (groupProgram made joins)) := by
  rw [← group_bound, ← new_turns_left]
  refine settles ownerTurn (fun owner => ∃ done, OwnerInv (groupProgram made joins) owner done)
    (turnsLeft (groupProgram made joins)) (owner_turn_keeps (groupProgram made joins)) (Ready (groupProgram made joins))
    (GroupEnds made joins) ?_ ?_ _ ⟨[], new_owner_inv (groupProgram made joins) (group_program_proper made joins)⟩
  · rintro owner ⟨done, inv⟩
    exact owner_inv_ready (groupProgram made joins) done owner inv
  · rintro owner ⟨done, inv⟩ stuck
    have ready := owner_inv_ready (groupProgram made joins) done owner inv
    have ends := owner_stuck_ends (groupProgram made joins) done owner inv stuck
    rw [GroupEnds]
    split
    · next failed => exact failed_group_held made joins owner failed ready ends
    · next all => exact made_group_up made joins owner all ready ends

end Rocket
