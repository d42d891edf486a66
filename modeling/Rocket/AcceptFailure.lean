import Rocket.ServerBookkeeping

set_option autoImplicit false

namespace Rocket

open Word32 Trace

-- m_fd_groups holds FdEvents, each represented by its m_fd.
def pushEvents (groups : List Int) : Nat → List Int
  | 0 => groups
  | count + 1 => pushEvents (groups ++ [(groups.length : Int)]) count

def newFdEventGroup (size : Nat) : List Int := pushEvents [] size

-- The product with 1.5 is exact as a double, and the conversion to int cuts it
-- off towards zero.
def growGroups (groups : List Int) (index : Int) : Option (List Int) :=
  if toSizeT index < groups.length then some groups
  else (checked ((3 * index).tdiv 2)).map fun (newSize : Int) => pushEvents groups (newSize - groups.length).toNat

-- Without a value it has read outside of the vector.
def getFdEvent (groups : List Int) (index : Int) : Option (List Int × Int) := do
  let grown ← growGroups groups index
  let event ← grown[(toSizeT index).toNat]?
  some (grown, event)

inductive AcceptResult where
  | accepted (clientFd : Nat)
  | failed (errno : Int)
deriving DecidableEq, Repr

-- The server with the IO threads, of which each has the fds whose registration
-- was posted to its loop, and with the FdEventGroup of the process.
structure AcceptState where
  isInet : Bool
  server : TcpServer := {}
  fdGroups : List Int := newFdEventGroup 128
  threadIndex : Int := -1
  ioLoops : List (List Int)
deriving DecidableEq, Repr

-- TcpAcceptor::accept. Another family than AF_INET is never asked for a client.
def AcceptState.accept (state : AcceptState) (result : AcceptResult) : Int :=
  if state.isInet = true then
    match result with
    | .accepted clientFd => clientFd
    | .failed _ => -1
  else -1

-- The index is never increased, so it is 0 from the first call on.
def AcceptState.nextIndex (state : AcceptState) : Int :=
  if toSizeT state.threadIndex = state.ioLoops.length ∨ state.threadIndex = -1 then 0 else state.threadIndex

def AcceptState.getIOthread (state : AcceptState) : Option (AcceptState × Nat) :=
  if (toSizeT state.nextIndex).toNat < state.ioLoops.length then
    some ({ state with threadIndex := state.nextIndex }, (toSizeT state.nextIndex).toNat)
  else none

-- An undefined end has the state in which a vector was left.
inductive AcceptEnd where
  | returned (state : AcceptState)
  | undefined (state : AcceptState)
deriving DecidableEq, Repr

-- The constructor of the connection, its setState and the insert.
def insertConnection (state : AcceptState) (thread : Nat) (clientFd : Int) : AcceptEnd :=
  match getFdEvent state.fdGroups clientFd with
  | none => .undefined state
  | some (fdGroups, eventFd) =>
      .returned { state with
        server := { state.server with
          client := state.server.client ++ [⟨clientFd.toNat, acceptedConnection⟩]
          openFds := clientFd.toNat :: state.server.openFds }
        fdGroups := fdGroups
        ioLoops := state.ioLoops.modify thread fun posted => posted ++ [eventFd] }

def AcceptState.onAccept (state : AcceptState) (result : AcceptResult) : AcceptEnd :=
  let clientFd := state.accept result
  let counted := { state with server := { state.server with clientCounts := state.server.clientCounts + 1 } }
  match counted.getIOthread with
  | none => .undefined counted
  | some (chosen, thread) => insertConnection chosen thread clientFd

-- getFdEvent stands for every other object that asks for the FdEvent of an fd.
inductive AcceptAction where
  | onAccept (result : AcceptResult)
  | call (index : Nat) (call : ClientCall)
  | clearClientTimer
  | getFdEvent (fd : Int)
deriving DecidableEq, Repr

-- accept returns no descriptor that is open.
def acceptStep (state : AcceptState) : AcceptAction → Option AcceptState
  | .onAccept result =>
      if state.accept result ∈ state.server.openFds.map Int.ofNat then some state
      else
        match state.onAccept result with
        | .returned later => some later
        | .undefined _ => none
  | .call index call =>
      (bookkeepingStep state.server (.call index call)).map fun server => { state with server := server }
  | .clearClientTimer =>
      (bookkeepingStep state.server .clearClientTimer).map fun server => { state with server := server }
  | .getFdEvent fd => (getFdEvent state.fdGroups fd).map fun found => { state with fdGroups := found.1 }

def newAcceptState (isInet : Bool) (threads : Nat) : AcceptState :=
  { isInet := isInet, ioLoops := List.replicate threads [] }

-- What is asked of a failed accept.
def ChangesNothing (state : AcceptState) (errno : Int) : Prop :=
  ∃ later, state.onAccept (.failed errno) = .returned later ∧ later.server.client = state.server.client ∧
    later.server.clientCounts = state.server.clientCounts ∧ later.ioLoops = state.ioLoops ∧ later.fdGroups = state.fdGroups

-- Each entry is the FdEvent of its index.
structure GroupsOk (groups : List Int) : Prop where
  entries : ∀ index : Nat, index < groups.length → groups[index]? = some (index : Int)
  atLeast : 128 ≤ groups.length
  fitsInt : groups.length < 2 ^ 31

theorem push_events_length (groups : List Int) (count : Nat) : (pushEvents groups count).length = groups.length + count := by
  induction count generalizing groups with
  | zero => rfl
  | succ count ih =>
      rw [pushEvents, ih, List.length_append, List.length_singleton]
      omega

theorem push_events_entries (groups : List Int) (count : Nat)
    (entries : ∀ index : Nat, index < groups.length → groups[index]? = some (index : Int)) :
    ∀ index : Nat, index < (pushEvents groups count).length → (pushEvents groups count)[index]? = some (index : Int) := by
  induction count generalizing groups with
  | zero => exact entries
  | succ count ih =>
      refine ih (groups ++ [(groups.length : Int)]) ?_
      intro index inside
      rw [List.length_append, List.length_singleton] at inside
      rcases Nat.lt_succ_iff_lt_or_eq.mp inside with before | rfl
      · rw [List.getElem?_append_left before]
        exact entries index before
      · rw [List.getElem?_append_right (Nat.le_refl _), Nat.sub_self]
        rfl

theorem new_groups_ok : GroupsOk (newFdEventGroup 128) := by
  have size : (newFdEventGroup 128).length = 128 := push_events_length [] 128
  refine ⟨push_events_entries [] 128 fun index inside => absurd inside (Nat.not_lt_zero index), ?_, ?_⟩
  · rw [size]
  · rw [size]
    decide

theorem to_size_t_negative (index : Int) (negative : index < 0) (inside : InRange index) :
    toSizeT index = index + 2 ^ 64 := by
  obtain ⟨lower, _⟩ := inside
  rw [toSizeT, ← Int.add_emod_right]
  exact Int.emod_eq_of_lt (by omega) (by omega)

theorem negative_product (index : Int) (negative : index < 0) : (3 * index).tdiv 2 ≤ 0 := by
  have flipped : 3 * index = -(3 * -index) := by omega
  have lower : 0 ≤ (3 * -index).tdiv 2 := Int.tdiv_nonneg (by omega) (by decide)
  rw [flipped, Int.neg_tdiv]
  omega

-- A growth that is asked for a negative index adds nothing.
theorem negative_index_outside (groups : List Int) (index : Int) (ok : GroupsOk groups) (negative : index < 0)
    (inside : InRange index) : getFdEvent groups index = none := by
  have far := to_size_t_negative index negative inside
  have fits := ok.fitsInt
  have lower := inside.1
  have below : ¬ toSizeT index < groups.length := by omega
  have shrinks := negative_product index negative
  have outside : groups[(toSizeT index).toNat]? = none := List.getElem?_eq_none_iff.mpr (by omega)
  rw [getFdEvent, growGroups, if_neg below]
  cases product : checked ((3 * index).tdiv 2) with
  | none => rfl
  | some newSize =>
      obtain ⟨_, rfl⟩ := (checked_eq_some _ _).mp product
      have nothing : ((3 * index).tdiv 2 - (groups.length : Int)).toNat = 0 := by omega
      simp only [Option.map_some, nothing, pushEvents, Option.bind_eq_bind, Option.bind_some, outside, Option.bind_none]

theorem grow_groups_ok (groups grown : List Int) (index : Int) (ok : GroupsOk groups)
    (grew : growGroups groups index = some grown) : GroupsOk grown := by
  rw [growGroups] at grew
  split at grew
  · obtain rfl := Option.some.inj grew
    exact ok
  · obtain ⟨newSize, product, rfl⟩ := Option.map_eq_some_iff.mp grew
    obtain ⟨⟨_, upper⟩, rfl⟩ := (checked_eq_some _ _).mp product
    have size := push_events_length groups ((3 * index).tdiv 2 - (groups.length : Int)).toNat
    have atLeast := ok.atLeast
    have fits := ok.fitsInt
    exact ⟨push_events_entries groups _ ok.entries, by omega, by omega⟩

theorem get_fd_event_ok (groups grown : List Int) (index event : Int) (ok : GroupsOk groups)
    (found : getFdEvent groups index = some (grown, event)) : GroupsOk grown := by
  simp only [getFdEvent, Option.bind_eq_bind, Option.bind_eq_some_iff] at found
  obtain ⟨other, grew, entry, _, same⟩ := found
  cases same
  exact grow_groups_ok groups grown index ok grew

theorem get_fd_event_spec (groups : List Int) (index : Int) (ok : GroupsOk groups) (lower : 0 ≤ index)
    (upper : index < 2 ^ 31) (room : index < groups.length ∨ (3 * index).tdiv 2 < 2 ^ 31) :
    ∃ grown, getFdEvent groups index = some (grown, index) ∧ GroupsOk grown := by
  have same : toSizeT index = index := to_size_t_small index lower upper
  obtain ⟨grown, grew, bound⟩ : ∃ grown, growGroups groups index = some grown ∧ index < grown.length := by
    rw [growGroups, same]
    by_cases inside : index < groups.length
    · exact ⟨groups, if_pos inside, inside⟩
    · have atLeast := ok.atLeast
      have fits := room.resolve_left inside
      have product : (3 * index).tdiv 2 = 3 * index / 2 := Int.tdiv_eq_ediv_of_nonneg (by omega)
      have size := push_events_length groups ((3 * index).tdiv 2 - (groups.length : Int)).toNat
      refine ⟨pushEvents groups ((3 * index).tdiv 2 - (groups.length : Int)).toNat, ?_, ?_⟩
      · rw [if_neg inside, checked_some _ ⟨by omega, fits⟩]
        rfl
      · omega
  have grownOk := grow_groups_ok groups grown index ok grew
  have entry := grownOk.entries index.toNat (by omega)
  refine ⟨grown, ?_, grownOk⟩
  simp only [getFdEvent, grew, same, entry, Option.bind_eq_bind, Option.bind_some, Int.toNat_of_nonneg lower]

-- Where the vector is indexed inside its bounds.
theorem get_fd_event_defined_iff (groups : List Int) (index : Int) (ok : GroupsOk groups) (inside : InRange index) :
    (getFdEvent groups index).isSome = true ↔
      0 ≤ index ∧ (index < groups.length ∨ (3 * index).tdiv 2 < 2 ^ 31) := by
  constructor
  · intro defined
    by_cases lower : 0 ≤ index
    · refine ⟨lower, ?_⟩
      have same : toSizeT index = index := to_size_t_small index lower inside.2
      obtain ⟨⟨grown, event⟩, found⟩ := Option.isSome_iff_exists.mp defined
      simp only [getFdEvent, growGroups, same, Option.bind_eq_bind, Option.bind_eq_some_iff] at found
      obtain ⟨other, grew, _⟩ := found
      by_cases known : index < groups.length
      · exact Or.inl known
      · rw [if_neg known] at grew
        obtain ⟨newSize, product, _⟩ := Option.map_eq_some_iff.mp grew
        exact Or.inr ((checked_eq_some _ _).mp product).1.2
    · rw [negative_index_outside groups index ok (Int.not_le.mp lower) inside] at defined
      cases defined
  · rintro ⟨lower, room⟩
    obtain ⟨grown, found, _⟩ := get_fd_event_spec groups index ok lower inside.2 room
    rw [found]
    rfl

theorem insert_connection_found (state : AcceptState) (thread : Nat) (clientFd eventFd : Int) (grown : List Int)
    (found : getFdEvent state.fdGroups clientFd = some (grown, eventFd)) :
    insertConnection state thread clientFd = .returned { state with
      server := { state.server with
        client := state.server.client ++ [⟨clientFd.toNat, acceptedConnection⟩]
        openFds := clientFd.toNat :: state.server.openFds }
      fdGroups := grown
      ioLoops := state.ioLoops.modify thread fun posted => posted ++ [eventFd] } := by
  rw [insertConnection, found]

theorem get_io_thread_keeps (state chosen : AcceptState) (thread : Nat) (found : state.getIOthread = some (chosen, thread)) :
    chosen.server = state.server ∧ chosen.fdGroups = state.fdGroups ∧ chosen.ioLoops = state.ioLoops := by
  rw [AcceptState.getIOthread] at found
  split at found
  · cases found
    exact ⟨rfl, rfl, rfl⟩
  · cases found

theorem on_accept_chosen (state chosen : AcceptState) (result : AcceptResult) (thread : Nat)
    (found : AcceptState.getIOthread { state with
      server := { state.server with clientCounts := state.server.clientCounts + 1 } } = some (chosen, thread)) :
    state.onAccept result = insertConnection chosen thread (state.accept result) := by
  simp only [AcceptState.onAccept, found]

theorem on_accept_cases (state : AcceptState) (result : AcceptResult) :
    (∃ later, state.onAccept result = .undefined later ∧
        later.server.clientCounts = state.server.clientCounts + 1) ∨
      ∃ chosen thread, chosen.server = { state.server with clientCounts := state.server.clientCounts + 1 } ∧
        chosen.fdGroups = state.fdGroups ∧ state.onAccept result = insertConnection chosen thread (state.accept result) := by
  simp only [AcceptState.onAccept]
  split
  · exact Or.inl ⟨_, rfl, rfl⟩
  · next chosen thread found =>
      obtain ⟨sameServer, sameGroups, _⟩ := get_io_thread_keeps _ chosen thread found
      exact Or.inr ⟨chosen, thread, sameServer, sameGroups, rfl⟩

theorem insert_connection_returned (state later : AcceptState) (thread : Nat) (clientFd : Int)
    (returned : insertConnection state thread clientFd = .returned later) :
    (∃ eventFd, getFdEvent state.fdGroups clientFd = some (later.fdGroups, eventFd)) ∧
      later.server = { state.server with
        client := state.server.client ++ [⟨clientFd.toNat, acceptedConnection⟩]
        openFds := clientFd.toNat :: state.server.openFds } := by
  rw [insertConnection] at returned
  split at returned
  · cases returned
  · next fdGroups eventFd asked =>
      cases returned
      exact ⟨⟨eventFd, asked⟩, rfl⟩

theorem on_accept_groups (state later : AcceptState) (result : AcceptResult) (ok : GroupsOk state.fdGroups)
    (returned : state.onAccept result = .returned later) : GroupsOk later.fdGroups := by
  rcases on_accept_cases state result with ⟨other, left, _⟩ | ⟨chosen, thread, _, sameGroups, taken⟩
  · rw [left] at returned
    cases returned
  · rw [taken] at returned
    obtain ⟨⟨eventFd, asked⟩, _⟩ := insert_connection_returned chosen later thread _ returned
    rw [sameGroups] at asked
    exact get_fd_event_ok state.fdGroups later.fdGroups _ eventFd ok asked

theorem accept_step_groups (state later : AcceptState) (action : AcceptAction) (ok : GroupsOk state.fdGroups)
    (taken : acceptStep state action = some later) : GroupsOk later.fdGroups := by
  cases action with
  | onAccept result =>
      simp only [acceptStep] at taken
      split at taken
      · cases taken
        exact ok
      · split at taken
        · next middle returned =>
            cases taken
            exact on_accept_groups state _ result ok returned
        · cases taken
  | call index call =>
      obtain ⟨server, _, rfl⟩ := Option.map_eq_some_iff.mp taken
      exact ok
  | clearClientTimer =>
      cases taken
      exact ok
  | getFdEvent fd =>
      obtain ⟨⟨grown, event⟩, found, rfl⟩ := Option.map_eq_some_iff.mp taken
      exact get_fd_event_ok state.fdGroups grown fd event ok found

-- The count is raised first, and then the vector is left.
theorem failed_accept_undefined (state : AcceptState) (errno : Int) (ok : GroupsOk state.fdGroups) :
    ∃ later, state.onAccept (.failed errno) = .undefined later ∧
      later.server.clientCounts = state.server.clientCounts + 1 := by
  have failed : state.accept (.failed errno) = -1 := by
    rw [AcceptState.accept]
    split <;> rfl
  rcases on_accept_cases state (.failed errno) with left | ⟨chosen, thread, sameServer, sameGroups, taken⟩
  · exact left
  · have outside : getFdEvent chosen.fdGroups (-1) = none := by
      rw [sameGroups]
      exact negative_index_outside state.fdGroups (-1) ok (by decide) (by decide)
    refine ⟨chosen, ?_, by rw [sameServer]⟩
    rw [taken, failed, insertConnection, outside]

-- A successful accept is the one of the bookkeeping.
theorem on_accept_bookkeeping (state later : AcceptState) (clientFd : Nat) (inet : state.isInet = true)
    (returned : state.onAccept (.accepted clientFd) = .returned later) : later.server = onAccept state.server clientFd := by
  have accepted : state.accept (.accepted clientFd) = clientFd := if_pos inet
  rcases on_accept_cases state (.accepted clientFd) with ⟨other, left, _⟩ | ⟨chosen, thread, sameServer, _, taken⟩
  · rw [left] at returned
    cases returned
  · rw [taken, accepted] at returned
    obtain ⟨_, inserted⟩ := insert_connection_returned chosen later thread _ returned
    rw [inserted, sameServer, Int.toNat_natCast]
    rfl

theorem new_accept_state_ok (isInet : Bool) (threads : Nat) : GroupsOk (newAcceptState isInet threads).fdGroups := by
  rw [newAcceptState]
  exact new_groups_ok

theorem failed_accept_never_harmless (isInet : Bool) (threads : Nat) (actions : List AcceptAction) (state : AcceptState)
    (reached : run acceptStep (newAcceptState isInet threads) actions = some state) :
    (∀ errno, ¬ ChangesNothing state errno ∧ ∃ later, state.onAccept (.failed errno) = .undefined later ∧
        later.server.clientCounts = state.server.clientCounts + 1) ∧
      ∀ index, InRange index → ((getFdEvent state.fdGroups index).isSome = true ↔
        0 ≤ index ∧ (index < state.fdGroups.length ∨ (3 * index).tdiv 2 < 2 ^ 31)) := by
  have ok : GroupsOk state.fdGroups := run_keeps acceptStep (fun state => GroupsOk state.fdGroups)
    (fun state action later held taken => accept_step_groups state later action held taken) _ state actions
    (new_accept_state_ok isInet threads) reached
  constructor
  · intro errno
    obtain ⟨later, left, counted⟩ := failed_accept_undefined state errno ok
    refine ⟨?_, later, left, counted⟩
    rintro ⟨other, returned, _⟩
    rw [left] at returned
    cases returned
  · exact fun index inside => get_fd_event_defined_iff state.fdGroups index ok inside

theorem failed_accept_after_client :
    ∃ state, run acceptStep (newAcceptState true 1) [.onAccept (.accepted 7)] = some state ∧
      state.server = onAccept {} 7 ∧ ∀ errno, ¬ ChangesNothing state errno := by
  have small : (7 : Int) < (newFdEventGroup 128).length := by
    have atLeast := new_groups_ok.atLeast
    omega
  obtain ⟨grown, found, _⟩ := get_fd_event_spec (newFdEventGroup 128) 7 new_groups_ok (by decide) (by decide) (Or.inl small)
  have thread : AcceptState.getIOthread { newAcceptState true 1 with server := { clientCounts := 1 } } =
      some ({ newAcceptState true 1 with server := { clientCounts := 1 }, threadIndex := 0 }, 0) := rfl
  have inserted := insert_connection_found { newAcceptState true 1 with server := { clientCounts := 1 }, threadIndex := 0 } 0
    7 7 grown found
  have returned : (newAcceptState true 1).onAccept (.accepted 7) = .returned ⟨true, onAccept {} 7, grown, 0, [[7]]⟩ :=
    (on_accept_chosen (newAcceptState true 1) _ (.accepted 7) 0 thread).trans inserted
  have reached : run acceptStep (newAcceptState true 1) [.onAccept (.accepted 7)] =
      some ⟨true, onAccept {} 7, grown, 0, [[7]]⟩ := by
    have free : ¬ (newAcceptState true 1).accept (.accepted 7) ∈ (newAcceptState true 1).server.openFds.map Int.ofNat :=
      List.not_mem_nil
    simp only [run, acceptStep, if_neg free, returned]
  exact ⟨_, reached, rfl, fun errno => ((failed_accept_never_harmless true 1 _ _ reached).1 errno).1⟩

-- EMFILE is 24.
theorem exhausted_accept_diverges :
    ¬ ChangesNothing (newAcceptState true 1) 24 ∧ getFdEvent (newAcceptState true 1).fdGroups (-1) = none := by
  have ok := new_accept_state_ok true 1
  refine ⟨?_, negative_index_outside _ (-1) ok (by decide) (by decide)⟩
  rintro ⟨later, returned, _⟩
  obtain ⟨other, left, _⟩ := failed_accept_undefined (newAcceptState true 1) 24 ok
  rw [left] at returned
  cases returned

end Rocket
