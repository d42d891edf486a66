import Rocket.AcceptFailure

set_option autoImplicit false

namespace Rocket

open Word32

-- An FdEvent on the heap, by its address.
structure FdEventObject where
  address : Nat
  fd : Int
deriving DecidableEq, Repr

-- nextAddress is where the next object goes.
structure FdEventGroup where
  groups : List FdEventObject := []
  nextAddress : Nat := 0
deriving DecidableEq, Repr

def FdEventGroup.push (group : FdEventGroup) (fd : Int) : FdEventGroup :=
  { groups := group.groups ++ [⟨group.nextAddress, fd⟩], nextAddress := group.nextAddress + 1 }

-- The for loops of the constructor and of getFdEvent, with the turns they take.
def FdEventGroup.pushFrom (group : FdEventGroup) (i : Int) : Nat → FdEventGroup
  | 0 => group
  | turns + 1 => (group.push i).pushFrom (i + 1) turns

def FdEventGroup.new (size : Int) : FdEventGroup := FdEventGroup.pushFrom {} 0 size.toNat

def FdEventGroup.grow (group : FdEventGroup) (index : Int) : Option FdEventGroup :=
  if toSizeT index < group.groups.length then some group
  else (checked ((3 * index).tdiv 2)).map fun (newSize : Int) =>
    group.pushFrom group.groups.length (newSize - group.groups.length).toNat

-- Without a value it has read outside of the vector.
def FdEventGroup.getFdEvent (group : FdEventGroup) (index : Int) : Option (FdEventGroup × FdEventObject) := do
  let grown ← group.grow index
  let event ← grown.groups[(toSizeT index).toNat]?
  some (grown, event)

-- The calls of a run, one after the other, with what each returned.
def FdEventGroup.getFdEvents (group : FdEventGroup) : List Int → Option (FdEventGroup × List FdEventObject)
  | [] => some (group, [])
  | index :: indices => do
      let (grown, event) ← group.getFdEvent index
      let (last, events) ← grown.getFdEvents indices
      some (last, event :: events)

-- Element j is the FdEvent that was created for j.
def FdEventGroup.Ordered (group : FdEventGroup) : Prop :=
  ∀ j < group.groups.length, ∃ event : FdEventObject, group.groups[j]? = some event ∧ event.fd = j

structure HandsOut (indices : List Int) (group : FdEventGroup) (events : List FdEventObject) : Prop where
  elements : group.Ordered
  returned : ∀ (call : Nat) (index : Int), indices[call]? = some index → ∃ event : FdEventObject, events[call]? = some event ∧ event.fd = index
  stable : ∀ first second : Nat, indices[first]? = indices[second]? → events[first]? = events[second]?

structure FdEventGroupOk (group : FdEventGroup) : Prop where
  ordered : group.Ordered
  atLeast : 2 ≤ group.groups.length
  fitsInt : group.groups.length < 2 ^ 31

def FdEventGroup.fds (group : FdEventGroup) : List Int := group.groups.map FdEventObject.fd

theorem FdEventGroup.push_from_length (group : FdEventGroup) (i : Int) (turns : Nat) :
    (group.pushFrom i turns).groups.length = group.groups.length + turns := by
  induction turns generalizing group i with
  | zero => rfl
  | succ turns ih =>
      rw [FdEventGroup.pushFrom, ih, FdEventGroup.push, List.length_append, List.length_singleton]
      omega

theorem FdEventGroup.push_from_prefix (group : FdEventGroup) (i : Int) (turns : Nat) :
    group.groups <+: (group.pushFrom i turns).groups := by
  induction turns generalizing group i with
  | zero => exact List.prefix_refl _
  | succ turns ih => exact (List.prefix_append _ _).trans (ih (group.push i) (i + 1))

theorem FdEventGroup.push_ordered (group : FdEventGroup) (ordered : group.Ordered) :
    (group.push group.groups.length).Ordered := by
  intro j inside
  rw [FdEventGroup.push, List.length_append, List.length_singleton] at inside
  rcases Nat.lt_succ_iff_lt_or_eq.mp inside with before | rfl
  · obtain ⟨event, found, same⟩ := ordered j before
    refine ⟨event, ?_, same⟩
    rw [FdEventGroup.push, List.getElem?_append_left before, found]
  · refine ⟨⟨group.nextAddress, group.groups.length⟩, ?_, rfl⟩
    rw [FdEventGroup.push, List.getElem?_append_right (Nat.le_refl _), Nat.sub_self]
    rfl

theorem FdEventGroup.push_from_ordered (group : FdEventGroup) (turns : Nat) (ordered : group.Ordered) :
    (group.pushFrom group.groups.length turns).Ordered := by
  induction turns generalizing group with
  | zero => exact ordered
  | succ turns ih =>
      have next : ((group.push group.groups.length).groups.length : Int) = group.groups.length + 1 := by
        simp [FdEventGroup.push]
      rw [FdEventGroup.pushFrom, ← next]
      exact ih _ (group.push_ordered ordered)

theorem FdEventGroup.new_ok (size : Int) (atLeast : 2 ≤ size) (fits : size < 2 ^ 31) :
    FdEventGroupOk (FdEventGroup.new size) := by
  have length : (FdEventGroup.new size).groups.length = size.toNat := by
    rw [FdEventGroup.new, FdEventGroup.push_from_length]
    exact Nat.zero_add _
  refine ⟨?_, by omega, by omega⟩
  apply FdEventGroup.push_from_ordered {} size.toNat
  intro j inside
  exact absurd inside (Nat.not_lt_zero j)

theorem FdEventGroup.grow_spec (group : FdEventGroup) (index : Int) (ok : FdEventGroupOk group) (lower : 0 ≤ index)
    (upper : index < 2 ^ 30) :
    ∃ grown, group.grow index = some grown ∧ FdEventGroupOk grown ∧ group.groups <+: grown.groups ∧
      index < grown.groups.length := by
  have same : toSizeT index = index := to_size_t_small index lower (by omega)
  rw [FdEventGroup.grow, same]
  by_cases inside : index < group.groups.length
  · exact ⟨group, if_pos inside, ok, List.prefix_refl _, inside⟩
  · have atLeast := ok.atLeast
    have product : (3 * index).tdiv 2 = 3 * index / 2 := Int.tdiv_eq_ediv_of_nonneg (by omega)
    have length := group.push_from_length group.groups.length ((3 * index).tdiv 2 - (group.groups.length : Int)).toNat
    refine ⟨group.pushFrom group.groups.length ((3 * index).tdiv 2 - (group.groups.length : Int)).toNat, ?_, ?_, ?_, ?_⟩
    · rw [if_neg inside, checked_some _ ⟨by omega, by omega⟩]
      rfl
    · exact ⟨group.push_from_ordered _ ok.ordered, by omega, by omega⟩
    · exact group.push_from_prefix _ _
    · omega

theorem FdEventGroup.get_fd_event_object (group : FdEventGroup) (index : Int) (ok : FdEventGroupOk group)
    (lower : 0 ≤ index) (upper : index < 2 ^ 30) :
    ∃ grown event, group.getFdEvent index = some (grown, event) ∧ FdEventGroupOk grown ∧
      group.groups <+: grown.groups ∧ event.fd = index ∧ grown.groups[index.toNat]? = some event := by
  obtain ⟨grown, grew, grownOk, longer, inside⟩ := group.grow_spec index ok lower upper
  have same : toSizeT index = index := to_size_t_small index lower (by omega)
  obtain ⟨event, found, fd⟩ := grownOk.ordered index.toNat (by omega)
  refine ⟨grown, event, ?_, grownOk, longer, by omega, found⟩
  simp only [FdEventGroup.getFdEvent, grew, same, found, Option.bind_eq_bind, Option.bind_some]

theorem prefix_entry {α : Type} (front whole : List α) (index : Nat) (entry : α) (shorter : front <+: whole)
    (found : front[index]? = some entry) : whole[index]? = some entry := by
  obtain ⟨inside, rfl⟩ := List.getElem?_eq_some_iff.mp found
  exact List.prefix_iff_getElem?.mp shorter index inside

-- Each call of a run returns what stands at its index when the run is over.
theorem FdEventGroup.get_fd_events_spec (group : FdEventGroup) (indices : List Int) (ok : FdEventGroupOk group)
    (inside : ∀ index ∈ indices, 0 ≤ index ∧ index < 2 ^ 30) :
    ∃ last events, group.getFdEvents indices = some (last, events) ∧ FdEventGroupOk last ∧
      group.groups <+: last.groups ∧ events.length = indices.length ∧
      ∀ (call : Nat) (index : Int), indices[call]? = some index →
        ∃ event : FdEventObject, events[call]? = some event ∧ event.fd = index ∧ last.groups[index.toNat]? = some event := by
  induction indices generalizing group with
  | nil => exact ⟨group, [], rfl, ok, List.prefix_refl _, rfl, fun call index asked => absurd asked (by simp)⟩
  | cons index indices ih =>
      obtain ⟨lower, upper⟩ := inside index List.mem_cons_self
      obtain ⟨grown, event, got, grownOk, longer, fd, found⟩ := group.get_fd_event_object index ok lower upper
      obtain ⟨last, events, rest, lastOk, longest, sameLength, each⟩ :=
        ih grown grownOk fun other member => inside other (List.mem_cons_of_mem index member)
      refine ⟨last, event :: events, ?_, lastOk, longer.trans longest, by simp [sameLength], ?_⟩
      · simp only [FdEventGroup.getFdEvents, got, rest, Option.bind_eq_bind, Option.bind_some]
      · intro call asked here
        cases call with
        | zero =>
            cases here
            exact ⟨event, rfl, fd, prefix_entry _ _ _ _ longest found⟩
        | succ call => exact each call asked here

theorem FdEventGroup.get_fd_events_append (group middle last : FdEventGroup) (earlier later : List Int)
    (first second : List FdEventObject) (front : group.getFdEvents earlier = some (middle, first))
    (back : middle.getFdEvents later = some (last, second)) :
    group.getFdEvents (earlier ++ later) = some (last, first ++ second) := by
  induction earlier generalizing group first with
  | nil =>
      cases front
      exact back
  | cons index earlier ih =>
      simp only [FdEventGroup.getFdEvents, Option.bind_eq_bind, Option.bind_eq_some_iff] at front
      obtain ⟨⟨grown, event⟩, got, ⟨reached, events⟩, rest, same⟩ := front
      cases same
      simp only [List.cons_append, FdEventGroup.getFdEvents, got, ih grown events rest, Option.bind_eq_bind, Option.bind_some]

theorem FdEventGroup.hands_out (group : FdEventGroup) (indices : List Int) (ok : FdEventGroupOk group)
    (inside : ∀ index ∈ indices, 0 ≤ index ∧ index < 2 ^ 30) :
    ∃ last events, group.getFdEvents indices = some (last, events) ∧ FdEventGroupOk last ∧
      group.groups <+: last.groups ∧ HandsOut indices last events := by
  obtain ⟨last, events, got, lastOk, longer, sameLength, each⟩ := group.get_fd_events_spec indices ok inside
  refine ⟨last, events, got, lastOk, longer, lastOk.ordered, ?_, ?_⟩
  · intro call index asked
    obtain ⟨event, returned, fd, _⟩ := each call index asked
    exact ⟨event, returned, fd⟩
  · intro first second same
    cases asked : indices[first]? with
    | none =>
        have outside := List.getElem?_eq_none_iff.mp asked
        have outsideToo := List.getElem?_eq_none_iff.mp (same.symm.trans asked)
        rw [List.getElem?_eq_none_iff.mpr (by omega), List.getElem?_eq_none_iff.mpr (by omega)]
    | some index =>
        obtain ⟨event, returned, _, stands⟩ := each first index asked
        obtain ⟨other, otherReturned, _, otherStands⟩ := each second index (same.symm.trans asked)
        rw [returned, otherReturned, ← stands, ← otherStands]

-- The vector of numbers that stands for a group where only the numbers matter.
theorem FdEventGroup.push_from_fds (group : FdEventGroup) (turns : Nat) :
    (group.pushFrom group.groups.length turns).fds = pushEvents group.fds turns := by
  induction turns generalizing group with
  | zero => rfl
  | succ turns ih =>
      have next : ((group.push group.groups.length).groups.length : Int) = group.groups.length + 1 := by
        simp [FdEventGroup.push]
      have pushed : (group.push group.groups.length).fds = group.fds ++ [(group.fds.length : Int)] := by
        simp [FdEventGroup.fds, FdEventGroup.push]
      rw [FdEventGroup.pushFrom, ← next, ih, pushEvents, pushed]

theorem FdEventGroup.get_fd_event_fds (group : FdEventGroup) (index : Int) :
    (group.getFdEvent index).map (fun got => (got.1.fds, got.2.fd)) = Rocket.getFdEvent group.fds index := by
  have grew : (group.grow index).map FdEventGroup.fds = growGroups group.fds index := by
    have length : group.fds.length = group.groups.length := by simp [FdEventGroup.fds]
    rw [FdEventGroup.grow, growGroups, length]
    split
    · rfl
    · rw [Option.map_map]
      congr 1
      funext newSize
      exact group.push_from_fds _
  rw [FdEventGroup.getFdEvent, Rocket.getFdEvent, ← grew]
  cases group.grow index with
  | none => rfl
  | some grown =>
      simp only [Option.bind_eq_bind, Option.bind_some, Option.map_some, FdEventGroup.fds, List.getElem?_map]
      cases grown.groups[(toSizeT index).toNat]? with
      | none => rfl
      | some event => rfl

theorem one_event_per_descriptor (size : Int) (earlier later : List Int) (atLeast : 2 ≤ size) (fits : size < 2 ^ 31)
    (inside : ∀ index ∈ earlier ++ later, 0 ≤ index ∧ index < 2 ^ 30) :
    ∃ middle last first second, (FdEventGroup.new size).getFdEvents earlier = some (middle, first) ∧
      (FdEventGroup.new size).getFdEvents (earlier ++ later) = some (last, first ++ second) ∧
      HandsOut earlier middle first ∧ HandsOut (earlier ++ later) last (first ++ second) ∧
      middle.groups <+: last.groups := by
  have ok := FdEventGroup.new_ok size atLeast fits
  obtain ⟨middle, first, front, middleOk, _, firstOk⟩ := (FdEventGroup.new size).hands_out earlier ok
    fun index member => inside index (List.mem_append_left later member)
  obtain ⟨last, second, back, _, longer, _⟩ := middle.hands_out later middleOk
    fun index member => inside index (List.mem_append_right earlier member)
  have whole := FdEventGroup.get_fd_events_append _ middle last earlier later first second front back
  obtain ⟨other, events, got, _, _, wholeOk⟩ := (FdEventGroup.new size).hands_out (earlier ++ later) ok inside
  cases whole.symm.trans got
  exact ⟨middle, last, first, second, front, whole, firstOk, wholeOk, longer⟩

theorem one_event_per_descriptor_small :
    ∃ middle last first second, (FdEventGroup.new 2).getFdEvents [1, 2] = some (middle, first) ∧
      (FdEventGroup.new 2).getFdEvents ([1, 2] ++ [9, 2]) = some (last, first ++ second) ∧
      HandsOut [1, 2] middle first ∧ HandsOut ([1, 2] ++ [9, 2]) last (first ++ second) ∧
      middle.groups <+: last.groups :=
  one_event_per_descriptor 2 [1, 2] [9, 2] (by decide) (by decide) (by decide)

end Rocket
