import Rocket.Descriptors
import Mathlib.Data.Finset.Insert

set_option autoImplicit false

namespace Rocket

open Trace

def Owns (desc : Descriptors) (owner fd : Nat) : Prop :=
  ∃ endPoint, desc.endPoints owner = some endPoint ∧ endPoint.fd = fd

-- What loop can invoke for an open fd belongs to the owner of the fd, and the
-- FdEvent of an owned fd holds no read or write callback of anybody else.
structure Clean (desc : Descriptors) : Prop where
  bits : ∀ fd ∈ desc.openFds, ∀ eventType, eventType ≠ .errorEvent → (desc.fdEvents fd).requested eventType = true →
    ∃ owner, (desc.fdEvents fd).handler eventType = some owner ∧ Owns desc owner fd
  callbacks : ∀ fd ∈ desc.openFds, ∀ owner, Owns desc owner fd → ∀ eventType, eventType ≠ .errorEvent →
    ∀ other, (desc.fdEvents fd).handler eventType = some other → other = owner

structure Kept (desc : Descriptors) : Prop where
  clean : Clean desc
  alive : ∀ owner fd, Owns desc owner fd → fd ∈ desc.openFds
  distinct : ∀ first second fd, Owns desc first fd → Owns desc second fd → first = second
  born : ∀ owner fd, Owns desc owner fd → owner < desc.created
  known : ∀ fd eventType, eventType ≠ .errorEvent → ∀ owner, (desc.fdEvents fd).handler eventType = some owner →
    owner < desc.created
  answered : ∀ fd eventType, eventType ≠ .errorEvent → (desc.fdEvents fd).requested eventType = true →
    ∃ owner, (desc.fdEvents fd).handler eventType = some owner

theorem loop_kept (loopFds : Finset Nat) : Kept (loopDescriptors loopFds) where
  clean := by
    refine ⟨?_, ?_⟩
    · intro fd _ eventType data requested
      cases eventType <;> cases requested
    · rintro fd _ owner ⟨endPoint, found, _⟩
      cases found
  alive := by
    rintro owner fd ⟨endPoint, found, _⟩
    cases found
  distinct := by
    rintro first second fd ⟨endPoint, found, _⟩
    cases found
  born := by
    rintro owner fd ⟨endPoint, found, _⟩
    cases found
  known := by
    intro fd eventType data owner held
    cases eventType <;> cases held
  answered := by
    intro fd eventType data requested
    cases eventType <;> cases requested

theorem owns_unique (desc : Descriptors) (owner first second : Nat) (ownsFirst : Owns desc owner first)
    (ownsSecond : Owns desc owner second) : first = second := by
  obtain ⟨endPoint, found, rfl⟩ := ownsFirst
  obtain ⟨other, foundOther, rfl⟩ := ownsSecond
  cases found.symm.trans foundOther
  rfl

theorem kept_transfer (desc later : Descriptors) (kept : Kept desc) (opens : later.openFds = desc.openFds)
    (owners : ∀ owner fd, Owns later owner fd ↔ Owns desc owner fd) (creates : later.created = desc.created)
    (handlers : ∀ fd eventType, (later.fdEvents fd).handler eventType = (desc.fdEvents fd).handler eventType)
    (requests : ∀ fd eventType, (later.fdEvents fd).requested eventType = true →
      (desc.fdEvents fd).requested eventType = true) : Kept later where
  clean := by
    refine ⟨?_, ?_⟩
    · intro fd opened eventType data requested
      rw [opens] at opened
      obtain ⟨owner, held, owns⟩ := kept.clean.bits fd opened eventType data (requests fd eventType requested)
      exact ⟨owner, (handlers fd eventType).trans held, (owners owner fd).mpr owns⟩
    · intro fd opened owner owns eventType data other held
      rw [opens] at opened
      rw [handlers] at held
      exact kept.clean.callbacks fd opened owner ((owners owner fd).mp owns) eventType data other held
  alive := by
    intro owner fd owns
    rw [opens]
    exact kept.alive owner fd ((owners owner fd).mp owns)
  distinct := by
    intro first second fd ownsFirst ownsSecond
    exact kept.distinct first second fd ((owners first fd).mp ownsFirst) ((owners second fd).mp ownsSecond)
  born := by
    intro owner fd owns
    rw [creates]
    exact kept.born owner fd ((owners owner fd).mp owns)
  known := by
    intro fd eventType data owner held
    rw [creates]
    rw [handlers] at held
    exact kept.known fd eventType data owner held
  answered := by
    intro fd eventType data requested
    obtain ⟨owner, held⟩ := kept.answered fd eventType data (requests fd eventType requested)
    exact ⟨owner, (handlers fd eventType).trans held⟩

structure Registers (desc later : Descriptors) : Prop where
  opens : later.openFds = desc.openFds
  events : later.fdEvents = desc.fdEvents
  owners : later.endPoints = desc.endPoints
  creates : later.created = desc.created

theorem epoll_ctl_registers (desc later : Descriptors) (op : EpollOp) (fd : Nat)
    (called : epollCtl desc op fd = some later) : Registers desc later := by
  cases op with
  | add =>
      obtain ⟨_, same⟩ := Option.ite_none_right_eq_some.mp called
      cases same
      exact ⟨rfl, rfl, rfl, rfl⟩
  | mod =>
      obtain ⟨_, same⟩ := Option.ite_none_right_eq_some.mp called
      cases same
      exact ⟨rfl, rfl, rfl, rfl⟩
  | del =>
      obtain ⟨_, same⟩ := Option.ite_none_right_eq_some.mp called
      cases same
      exact ⟨rfl, rfl, rfl, rfl⟩

theorem add_epoll_event_registers (desc : Descriptors) (fd : Nat) : Registers desc (addEpollEvent desc fd) := by
  unfold addEpollEvent
  dsimp only
  split
  · rename_i registered called
    obtain ⟨opens, events, owners, creates⟩ := epoll_ctl_registers desc registered _ fd called
    exact ⟨opens, events, owners, creates⟩
  · exact ⟨rfl, rfl, rfl, rfl⟩

theorem delete_epoll_event_registers (desc : Descriptors) (fd : Nat) : Registers desc (deleteEpollEvent desc fd) := by
  unfold deleteEpollEvent
  split
  · exact ⟨rfl, rfl, rfl, rfl⟩
  · cases called : epollCtl desc .del fd with
    | none => exact ⟨rfl, rfl, rfl, rfl⟩
    | some registered =>
        obtain ⟨opens, events, owners, creates⟩ := epoll_ctl_registers desc registered .del fd called
        exact ⟨opens, events, owners, creates⟩

theorem registers_owns (desc later : Descriptors) (registers : Registers desc later) (owner fd : Nat) :
    Owns later owner fd ↔ Owns desc owner fd := by
  rw [Owns, Owns, registers.owners]

theorem registers_kept (desc later : Descriptors) (registers : Registers desc later) (kept : Kept desc) : Kept later := by
  refine kept_transfer desc later kept registers.opens (registers_owns desc later registers) registers.creates ?_ ?_
  · intro fd eventType
    rw [registers.events]
  · intro fd eventType requested
    rwa [registers.events] at requested

theorem registers_clean (desc later : Descriptors) (registers : Registers desc later) (clean : Clean later) : Clean desc := by
  refine ⟨?_, ?_⟩
  · intro fd opened eventType data requested
    rw [← registers.opens] at opened
    rw [← registers.events] at requested ⊢
    obtain ⟨owner, held, owns⟩ := clean.bits fd opened eventType data requested
    exact ⟨owner, held, (registers_owns desc later registers owner fd).mp owns⟩
  · intro fd opened owner owns eventType data other held
    rw [← registers.opens] at opened
    rw [← registers.events] at held
    exact clean.callbacks fd opened owner ((registers_owns desc later registers owner fd).mpr owns) eventType data other held

theorem modify_same (desc : Descriptors) (fd : Nat) (change : FdEvent Nat → FdEvent Nat) :
    (modifyFdEvent desc fd change).fdEvents fd = change (desc.fdEvents fd) := Function.update_self fd _ desc.fdEvents

theorem modify_other (desc : Descriptors) (fd other : Nat) (change : FdEvent Nat → FdEvent Nat) (different : other ≠ fd) :
    (modifyFdEvent desc fd change).fdEvents other = desc.fdEvents other := Function.update_of_ne different _ desc.fdEvents

theorem cancle_on_kept (desc : Descriptors) (eventFd : Nat) (eventType : TriggerEvent) (kept : Kept desc) :
    Kept (cancleOn desc eventFd eventType) := by
  refine kept_transfer desc _ kept rfl (fun _ _ => Iff.rfl) rfl ?_ ?_
  · intro fd other
    by_cases same : fd = eventFd
    · subst same
      rw [cancleOn, modify_same]
      exact FdEvent.cancle_handler (desc.fdEvents fd) eventType other
    · rw [cancleOn, modify_other desc eventFd fd _ same]
  · intro fd other requested
    by_cases same : fd = eventFd
    · subst same
      rw [cancleOn, modify_same] at requested
      exact FdEvent.cancle_requested (desc.fdEvents fd) eventType other requested
    · rwa [cancleOn, modify_other desc eventFd fd _ same] at requested

theorem set_end_point_other (desc : Descriptors) (number owner fd : Nat) (endPoint : Option EndPoint)
    (different : owner ≠ number) : Owns (setEndPoint desc number endPoint) owner fd ↔ Owns desc owner fd := by
  have same : (setEndPoint desc number endPoint).endPoints owner = desc.endPoints owner :=
    Function.update_of_ne different _ desc.endPoints
  rw [Owns, Owns, same]

theorem set_end_point_same (desc : Descriptors) (number fd : Nat) (endPoint : EndPoint) :
    Owns (setEndPoint desc number (some endPoint)) number fd ↔ endPoint.fd = fd := by
  have found : (setEndPoint desc number (some endPoint)).endPoints number = some endPoint :=
    Function.update_self number _ desc.endPoints
  constructor
  · rintro ⟨other, same, owns⟩
    cases found.symm.trans same
    exact owns
  · intro owns
    exact ⟨endPoint, found, owns⟩

theorem set_end_point_none (desc : Descriptors) (number fd : Nat) : ¬ Owns (setEndPoint desc number none) number fd := by
  rintro ⟨endPoint, found, _⟩
  have gone : (setEndPoint desc number none).endPoints number = none := Function.update_self number _ desc.endPoints
  cases gone.symm.trans found

theorem set_state_kept (desc : Descriptors) (number : Nat) (endPoint changed : EndPoint) (kept : Kept desc)
    (found : desc.endPoints number = some endPoint) (sameFd : changed.fd = endPoint.fd) :
    Kept (setEndPoint desc number (some changed)) := by
  refine kept_transfer desc _ kept rfl ?_ rfl (fun _ _ => rfl) (fun _ _ requested => requested)
  intro owner fd
  by_cases same : owner = number
  · subst same
    rw [set_end_point_same, sameFd]
    constructor
    · intro owns
      exact ⟨endPoint, found, owns⟩
    · rintro ⟨other, foundOther, owns⟩
      cases found.symm.trans foundOther
      exact owns
  · exact set_end_point_other desc number owner fd _ same

theorem connect_succeeded_kept (desc : Descriptors) (number : Nat) (endPoint : EndPoint) (inProgress : Bool)
    (kept : Kept desc) (found : desc.endPoints number = some endPoint) :
    Kept (connectSucceeded desc number endPoint inProgress) := by
  have connected : Kept (setEndPoint desc number (some { endPoint with closed := false })) :=
    set_state_kept desc number endPoint _ kept found rfl
  cases inProgress with
  | false => exact connected
  | true => exact registers_kept _ _ (delete_epoll_event_registers _ endPoint.eventFd) connected

theorem finish_writing_kept (desc : Descriptors) (endPoint : EndPoint) (kept : Kept desc) :
    Kept (finishWriting desc endPoint) :=
  registers_kept _ _ (add_epoll_event_registers _ endPoint.eventFd) (cancle_on_kept desc endPoint.eventFd .outEvent kept)

theorem clear_connection_kept (desc : Descriptors) (number : Nat) (endPoint : EndPoint) (kept : Kept desc)
    (found : desc.endPoints number = some endPoint) : Kept (clearConnection desc number endPoint) := by
  unfold clearConnection
  split
  · exact kept
  · let canceled := cancleOn (cancleOn desc endPoint.eventFd .inEvent) endPoint.eventFd .outEvent
    have canceledKept : Kept canceled := cancle_on_kept _ endPoint.eventFd .outEvent (cancle_on_kept desc _ .inEvent kept)
    have deleted := delete_epoll_event_registers canceled endPoint.eventFd
    refine set_state_kept _ number endPoint _ (registers_kept canceled _ deleted canceledKept) ?_ rfl
    rw [deleted.owners]
    exact found

theorem epoll_error_kept (desc : Descriptors) (fd : Nat) (kept : Kept desc) : Kept (epollError desc fd) := by
  unfold epollError
  split
  · exact registers_kept desc _ (delete_epoll_event_registers desc fd) kept
  · exact kept

theorem heard_cases (desc : Descriptors) (number eventFd : Nat) (eventType : TriggerEvent) (data : eventType ≠ .errorEvent)
    (later : Descriptors) (heard : later = modifyFdEvent desc eventFd fun event => event.listen eventType number none)
    (fd : Nat) (other : TriggerEvent) (otherData : other ≠ .errorEvent) :
    (fd = eventFd ∧ (later.fdEvents fd).handler other = some number) ∨
      ((later.fdEvents fd).requested other = (desc.fdEvents fd).requested other ∧
        (later.fdEvents fd).handler other = (desc.fdEvents fd).handler other) := by
  subst heard
  by_cases same : fd = eventFd
  · subst same
    rw [modify_same]
    by_cases sameType : other = eventType
    · subst sameType
      exact .inl ⟨rfl, (FdEvent.listen_same (desc.fdEvents fd) other number none data).2⟩
    · exact .inr (FdEvent.listen_other (desc.fdEvents fd) eventType other number none data otherData sameType)
  · rw [modify_other desc eventFd fd _ same]
    exact .inr ⟨rfl, rfl⟩

theorem heard_kept (desc : Descriptors) (number eventFd : Nat) (eventType : TriggerEvent) (data : eventType ≠ .errorEvent)
    (kept : Kept desc) (born : number < desc.created) (own : eventFd ∈ desc.openFds → Owns desc number eventFd) :
    Kept (modifyFdEvent desc eventFd fun event => event.listen eventType number none) := by
  have cases' := heard_cases desc number eventFd eventType data _ rfl
  refine ⟨⟨?_, ?_⟩, kept.alive, kept.distinct, kept.born, ?_, ?_⟩
  · intro fd opened other otherData requested
    rcases cases' fd other otherData with ⟨rfl, mine⟩ | ⟨sameBit, sameHandler⟩
    · exact ⟨number, mine, own opened⟩
    · obtain ⟨owner, held, owns⟩ := kept.clean.bits fd opened other otherData (sameBit.symm.trans requested)
      exact ⟨owner, sameHandler.trans held, owns⟩
  · intro fd opened owner owns other otherData callback held
    rcases cases' fd other otherData with ⟨rfl, mine⟩ | ⟨_, sameHandler⟩
    · cases mine.symm.trans held
      exact kept.distinct number owner fd (own opened) owns
    · exact kept.clean.callbacks fd opened owner owns other otherData callback (sameHandler.symm.trans held)
  · intro fd other otherData callback held
    rcases cases' fd other otherData with ⟨_, mine⟩ | ⟨_, sameHandler⟩
    · cases mine.symm.trans held
      exact born
    · exact kept.known fd other otherData callback (sameHandler.symm.trans held)
  · intro fd other otherData requested
    rcases cases' fd other otherData with ⟨_, mine⟩ | ⟨sameBit, sameHandler⟩
    · exact ⟨number, mine⟩
    · obtain ⟨owner, held⟩ := kept.answered fd other otherData (sameBit.symm.trans requested)
      exact ⟨owner, sameHandler.trans held⟩

theorem listen_on_clean_decided (desc : Descriptors) (number : Nat) (endPoint : EndPoint) (eventType : TriggerEvent)
    (data : eventType ≠ .errorEvent) (kept : Kept desc) (found : desc.endPoints number = some endPoint) :
    ((endPoint.eventFd ∈ desc.openFds → endPoint.fd = endPoint.eventFd) →
        Kept (listenOn desc number endPoint.eventFd eventType)) ∧
      (Clean (listenOn desc number endPoint.eventFd eventType) →
        endPoint.eventFd ∈ desc.openFds → endPoint.fd = endPoint.eventFd) := by
  let heard := modifyFdEvent desc endPoint.eventFd fun event => event.listen eventType number none
  have registers : Registers heard (listenOn desc number endPoint.eventFd eventType) :=
    add_epoll_event_registers heard endPoint.eventFd
  constructor
  · intro own
    have born := kept.born number endPoint.fd ⟨endPoint, found, rfl⟩
    exact registers_kept heard _ registers
      (heard_kept desc number endPoint.eventFd eventType data kept born fun opened => ⟨endPoint, found, own opened⟩)
  · intro clean opened
    obtain ⟨bit, held⟩ := FdEvent.listen_same (desc.fdEvents endPoint.eventFd) eventType number none data
    have here := modify_same desc endPoint.eventFd fun event => event.listen eventType number none
    rw [← here] at bit held
    obtain ⟨owner, heldBy, owns⟩ :=
      (registers_clean heard _ registers clean).bits endPoint.eventFd opened eventType data bit
    cases held.symm.trans heldBy
    obtain ⟨other, same, owned⟩ := owns
    cases found.symm.trans same
    exact owned

-- number is the only end point whose read or write callback the FdEvent holds.
def CallbacksOf (event : FdEvent Nat) (number : Nat) : Prop :=
  ∀ eventType, eventType ≠ .errorEvent → ∀ owner, event.handler eventType = some owner → owner = number

-- A closed number is opened for an end point without a fd, and only the FdEvent
-- of the number may have changed on the way.
structure Opened (desc later : Descriptors) (number fd : Nat) : Prop where
  closed : fd ∉ desc.openFds
  opens : later.openFds = insert fd desc.openFds
  owners : ∀ owner other, Owns later owner other ↔ (owner = number ∧ other = fd) ∨ Owns desc owner other
  born : number < later.created
  creates : desc.created ≤ later.created
  others : ∀ other, other ≠ fd → later.fdEvents other = desc.fdEvents other
  own : CallbacksOf (later.fdEvents fd) number
  answered : ∀ eventType, eventType ≠ .errorEvent → (later.fdEvents fd).requested eventType = true →
    ∃ owner, (later.fdEvents fd).handler eventType = some owner

theorem opened_owns (desc later : Descriptors) (number : Nat) (endPoint : EndPoint) (fresh : ∀ other, ¬ Owns desc number other)
    (set : later.endPoints = Function.update desc.endPoints number (some endPoint)) (owner other : Nat) :
    Owns later owner other ↔ (owner = number ∧ other = endPoint.fd) ∨ Owns desc owner other := by
  have same : Owns later owner other ↔ Owns (setEndPoint desc number (some endPoint)) owner other := by
    rw [Owns, Owns, set]
    exact Iff.rfl
  rw [same]
  by_cases mine : owner = number
  · subst mine
    rw [set_end_point_same]
    constructor
    · intro owns
      exact .inl ⟨rfl, owns.symm⟩
    · rintro (⟨_, owns⟩ | owns)
      · exact owns.symm
      · exact absurd owns (fresh other)
  · rw [set_end_point_other desc number owner other _ mine]
    exact ⟨.inr, fun either => either.elim (fun both => absurd both.1 mine) id⟩

theorem opened_clean (desc later : Descriptors) (number fd : Nat) (kept : Kept desc) (opened : Opened desc later number fd) :
    Clean later := by
  refine ⟨?_, ?_⟩
  · intro other isOpen eventType data requested
    by_cases same : other = fd
    · subst same
      obtain ⟨owner, held⟩ := opened.answered eventType data requested
      cases opened.own eventType data owner held
      exact ⟨number, held, (opened.owners number other).mpr (.inl ⟨rfl, rfl⟩)⟩
    · rw [opened.others other same] at requested ⊢
      rw [opened.opens] at isOpen
      obtain ⟨owner, held, owns⟩ :=
        kept.clean.bits other (Finset.mem_of_mem_insert_of_ne isOpen same) eventType data requested
      exact ⟨owner, held, (opened.owners owner other).mpr (.inr owns)⟩
  · intro other _ owner owns eventType data callback held
    rcases (opened.owners owner other).mp owns with ⟨rfl, rfl⟩ | before
    · exact opened.own eventType data callback held
    · have wasOpen := kept.alive owner other before
      rw [opened.others other fun same => opened.closed (same ▸ wasOpen)] at held
      exact kept.clean.callbacks other wasOpen owner before eventType data callback held

theorem opened_kept (desc later : Descriptors) (number fd : Nat) (kept : Kept desc) (opened : Opened desc later number fd) :
    Kept later where
  clean := opened_clean desc later number fd kept opened
  alive := by
    intro owner other owns
    rw [opened.opens]
    rcases (opened.owners owner other).mp owns with ⟨_, rfl⟩ | before
    · exact Finset.mem_insert_self other desc.openFds
    · exact Finset.mem_insert_of_mem (kept.alive owner other before)
  distinct := by
    intro first second other ownsFirst ownsSecond
    rcases (opened.owners first other).mp ownsFirst with ⟨rfl, rfl⟩ | firstBefore
    · rcases (opened.owners second other).mp ownsSecond with ⟨rfl, _⟩ | secondBefore
      · rfl
      · exact absurd (kept.alive second other secondBefore) opened.closed
    · rcases (opened.owners second other).mp ownsSecond with ⟨_, rfl⟩ | secondBefore
      · exact absurd (kept.alive first other firstBefore) opened.closed
      · exact kept.distinct first second other firstBefore secondBefore
  born := by
    intro owner other owns
    rcases (opened.owners owner other).mp owns with ⟨rfl, _⟩ | before
    · exact opened.born
    · exact Nat.lt_of_lt_of_le (kept.born owner other before) opened.creates
  known := by
    intro other eventType data owner held
    by_cases same : other = fd
    · subst same
      rw [opened.own eventType data owner held]
      exact opened.born
    · rw [opened.others other same] at held
      exact Nat.lt_of_lt_of_le (kept.known other eventType data owner held) opened.creates
  answered := by
    intro other eventType data requested
    by_cases same : other = fd
    · subst same
      exact opened.answered eventType data requested
    · rw [opened.others other same] at requested ⊢
      exact kept.answered other eventType data requested

-- An end point that goes takes its fd with it, or leaves it with no bit set.
theorem destroyed_kept (desc later : Descriptors) (number : Nat) (endPoint : EndPoint) (kept : Kept desc)
    (found : desc.endPoints number = some endPoint) (shrinks : later.openFds ⊆ desc.openFds)
    (leaves : desc.openFds.erase endPoint.fd ⊆ later.openFds)
    (owners : later.endPoints = Function.update desc.endPoints number none) (events : later.fdEvents = desc.fdEvents)
    (creates : later.created = desc.created)
    (quiet : endPoint.fd ∈ later.openFds → ∀ eventType, eventType ≠ .errorEvent →
      (desc.fdEvents endPoint.fd).requested eventType ≠ true) : Kept later := by
  have same : ∀ owner fd, Owns later owner fd ↔ Owns (setEndPoint desc number none) owner fd := by
    intro owner fd
    rw [Owns, Owns, owners]
    exact Iff.rfl
  have before : ∀ owner fd, Owns later owner fd → owner ≠ number ∧ Owns desc owner fd := by
    intro owner fd owns
    have stays := (same owner fd).mp owns
    have different : owner ≠ number := by
      rintro rfl
      exact set_end_point_none desc owner fd stays
    exact ⟨different, (set_end_point_other desc number owner fd none different).mp stays⟩
  refine ⟨⟨?_, ?_⟩, ?_, ?_, ?_, ?_, ?_⟩
  · intro fd opened eventType data requested
    rw [events] at requested ⊢
    obtain ⟨owner, held, owns⟩ := kept.clean.bits fd (shrinks opened) eventType data requested
    have different : owner ≠ number := by
      rintro rfl
      cases owns_unique desc owner fd endPoint.fd owns ⟨endPoint, found, rfl⟩
      exact quiet opened eventType data requested
    exact ⟨owner, held, (same owner fd).mpr ((set_end_point_other desc number owner fd none different).mpr owns)⟩
  · intro fd opened owner owns eventType data other held
    rw [events] at held
    exact kept.clean.callbacks fd (shrinks opened) owner (before owner fd owns).2 eventType data other held
  · intro owner fd owns
    obtain ⟨different, owned⟩ := before owner fd owns
    refine leaves (Finset.mem_erase_of_ne_of_mem ?_ (kept.alive owner fd owned))
    rintro rfl
    exact different (kept.distinct owner number endPoint.fd owned ⟨endPoint, found, rfl⟩)
  · intro first second fd ownsFirst ownsSecond
    exact kept.distinct first second fd (before first fd ownsFirst).2 (before second fd ownsSecond).2
  · intro owner fd owns
    rw [creates]
    exact kept.born owner fd (before owner fd owns).2
  · rw [events, creates]
    exact kept.known
  · rw [events]
    exact kept.answered

theorem callbacks_of_next (desc : Descriptors) (fd : Nat) (eventType : TriggerEvent) (data : eventType ≠ .errorEvent)
    (kept : Kept desc) (own : ∀ owner, (desc.fdEvents fd).handler eventType = some owner → owner = desc.created) :
    (desc.fdEvents fd).handler eventType = none := by
  cases held : (desc.fdEvents fd).handler eventType with
  | none => rfl
  | some owner =>
      have before := kept.known fd eventType data owner held
      rw [own owner held] at before
      exact absurd before (Nat.lt_irrefl desc.created)

theorem next_owns_nothing (desc : Descriptors) (kept : Kept desc) (fd : Nat) : ¬ Owns desc desc.created fd := fun owns =>
  Nat.lt_irrefl desc.created (kept.born desc.created fd owns)

theorem construct_client_decided (desc : Descriptors) (fd : Nat) (kept : Kept desc) (notOpened : fd ∉ desc.openFds) :
    ((desc.fdEvents fd).readCallback = none ∧ (desc.fdEvents fd).writeCallback = none →
        Kept (constructClient desc fd)) ∧
      (Clean (constructClient desc fd) →
        (desc.fdEvents fd).readCallback = none ∧ (desc.fdEvents fd).writeCallback = none) := by
  constructor
  · rintro ⟨noRead, noWrite⟩
    have owners := opened_owns desc (constructClient desc fd) desc.created _ (next_owns_nothing desc kept) rfl
    refine opened_kept desc _ desc.created fd kept ⟨notOpened, rfl, owners, Nat.lt_succ_self desc.created,
      Nat.le_succ desc.created, fun _ _ => rfl, ?_, kept.answered fd⟩
    intro eventType data owner held
    cases eventType with
    | inEvent => cases noRead.symm.trans held
    | outEvent => cases noWrite.symm.trans held
    | errorEvent => exact absurd rfl data
  · intro clean
    have owns : Owns (constructClient desc fd) desc.created fd := (set_end_point_same (openFd desc fd) _ _ _).mpr rfl
    have own := clean.callbacks fd (Finset.mem_insert_self fd desc.openFds) desc.created owns
    exact ⟨callbacks_of_next desc fd .inEvent in_event_data kept (own .inEvent in_event_data),
      callbacks_of_next desc fd .outEvent out_event_data kept (own .outEvent out_event_data)⟩

theorem accept_connection_decided (desc : Descriptors) (fd : Nat) (kept : Kept desc) (notOpened : fd ∉ desc.openFds) :
    ((desc.fdEvents fd).writeCallback = none → Kept (acceptConnection desc fd)) ∧
      (Clean (acceptConnection desc fd) → (desc.fdEvents fd).writeCallback = none) := by
  let added := addEndPoint (openFd desc fd) { isClient := false, fd := fd, eventFd := fd }
  let heard := modifyFdEvent added fd fun event => event.listen .inEvent desc.created none
  have registers : Registers heard (acceptConnection desc fd) := add_epoll_event_registers heard fd
  have here : heard.fdEvents fd = (desc.fdEvents fd).listen .inEvent desc.created none := modify_same added fd _
  have read := FdEvent.listen_same (desc.fdEvents fd) .inEvent desc.created none in_event_data
  have write :=
    FdEvent.listen_other (desc.fdEvents fd) .inEvent .outEvent desc.created none in_event_data out_event_data (by decide)
  rw [← here] at read write
  constructor
  · intro noWrite
    refine registers_kept heard _ registers ?_
    have owners := opened_owns desc heard desc.created _ (next_owns_nothing desc kept) rfl
    refine opened_kept desc heard desc.created fd kept ⟨notOpened, rfl, owners, Nat.lt_succ_self desc.created,
      Nat.le_succ desc.created, fun other => modify_other added fd other _, ?_, ?_⟩
    · intro eventType data owner held
      cases eventType with
      | inEvent => exact Option.some.inj (held.symm.trans read.2)
      | outEvent => cases noWrite.symm.trans (write.2.symm.trans held)
      | errorEvent => exact absurd rfl data
    · intro eventType data requested
      cases eventType with
      | inEvent => exact ⟨desc.created, read.2⟩
      | outEvent =>
          obtain ⟨owner, held⟩ := kept.answered fd .outEvent data (write.1.symm.trans requested)
          exact ⟨owner, write.2.trans held⟩
      | errorEvent => exact absurd rfl data
  · intro clean
    have owns : Owns heard desc.created fd := (set_end_point_same (openFd desc fd) _ _ _).mpr rfl
    have own := (registers_clean heard _ registers clean).callbacks fd (Finset.mem_insert_self fd desc.openFds) desc.created owns
    refine callbacks_of_next desc fd .outEvent out_event_data kept ?_
    intro owner held
    exact own .outEvent out_event_data owner (write.2.trans held)

theorem connect_failed_clean_decided (desc : Descriptors) (number : Nat) (endPoint : EndPoint) (fd : Nat) (kept : Kept desc)
    (found : desc.endPoints number = some endPoint) (free : fd ∉ desc.openFds.erase endPoint.fd) :
    (CallbacksOf (desc.fdEvents fd) number → Kept (connectFailed desc number endPoint fd)) ∧
      (Clean (connectFailed desc number endPoint fd) → CallbacksOf (desc.fdEvents fd) number) := by
  let gone := setEndPoint (closeFd desc endPoint.fd) number none
  let replaced := setEndPoint (openFd (closeFd desc endPoint.fd) fd) number (some { endPoint with fd := fd })
  have registers : Registers replaced (connectFailed desc number endPoint fd) :=
    delete_epoll_event_registers replaced endPoint.eventFd
  constructor
  · intro own
    have goneKept : Kept gone :=
      destroyed_kept desc gone number endPoint kept found (Finset.erase_subset endPoint.fd desc.openFds)
        (Finset.Subset.refl _) rfl rfl rfl fun opened => absurd opened (Finset.notMem_erase endPoint.fd desc.openFds)
    have again : replaced.endPoints = Function.update gone.endPoints number (some { endPoint with fd := fd }) := by
      change _ = Function.update (Function.update desc.endPoints number none) number _
      rw [Function.update_idem]
      rfl
    have owners := opened_owns gone replaced number _ (set_end_point_none (closeFd desc endPoint.fd) number) again
    have born : number < desc.created := kept.born number endPoint.fd ⟨endPoint, found, rfl⟩
    exact registers_kept replaced _ registers (opened_kept gone replaced number fd goneKept
      ⟨free, rfl, owners, born, Nat.le_refl desc.created, fun _ _ => rfl, own, kept.answered fd⟩)
  · intro clean
    have owns : Owns replaced number fd := (set_end_point_same (openFd (closeFd desc endPoint.fd) fd) number fd _).mpr rfl
    exact (registers_clean replaced _ registers clean).callbacks fd (Finset.mem_insert_self fd _) number owns

theorem destroy_end_point_clean_decided (desc : Descriptors) (number : Nat) (endPoint : EndPoint) (kept : Kept desc)
    (found : desc.endPoints number = some endPoint) :
    ((¬ (endPoint.isClient = true ∧ endPoint.fd > 0) →
          (desc.fdEvents endPoint.fd).epollIn = false ∧ (desc.fdEvents endPoint.fd).epollOut = false) →
        Kept (destroyEndPoint desc number endPoint)) ∧
      (Clean (destroyEndPoint desc number endPoint) → ¬ (endPoint.isClient = true ∧ endPoint.fd > 0) →
        (desc.fdEvents endPoint.fd).epollIn = false ∧ (desc.fdEvents endPoint.fd).epollOut = false) := by
  by_cases closes : endPoint.isClient = true ∧ endPoint.fd > 0
  · refine ⟨fun _ => ?_, fun _ stays => absurd closes stays⟩
    simp only [destroyEndPoint, if_pos closes]
    exact destroyed_kept desc _ number endPoint kept found (Finset.erase_subset endPoint.fd desc.openFds)
      (Finset.Subset.refl _) rfl rfl rfl fun opened => absurd opened (Finset.notMem_erase endPoint.fd desc.openFds)
  · simp only [destroyEndPoint, if_neg closes]
    constructor
    · intro quiet
      obtain ⟨noIn, noOut⟩ := quiet closes
      refine destroyed_kept desc _ number endPoint kept found (Finset.Subset.refl desc.openFds)
        (Finset.erase_subset endPoint.fd desc.openFds) rfl rfl rfl ?_
      intro _ eventType data requested
      cases eventType with
      | inEvent => cases noIn.symm.trans requested
      | outEvent => cases noOut.symm.trans requested
      | errorEvent => exact data rfl
    · intro clean _
      have owned : Owns desc number endPoint.fd := ⟨endPoint, found, rfl⟩
      have opened := kept.alive number endPoint.fd owned
      have quiet : ∀ eventType, eventType ≠ .errorEvent → (desc.fdEvents endPoint.fd).requested eventType = false := by
        intro eventType data
        by_contra requested
        obtain ⟨owner, held, owns⟩ := clean.bits endPoint.fd opened eventType data (Bool.eq_true_of_not_eq_false requested)
        have mine := kept.clean.callbacks endPoint.fd opened number owned eventType data owner held
        subst mine
        exact set_end_point_none desc owner endPoint.fd owns
      exact ⟨quiet .inEvent in_event_data, quiet .outEvent out_event_data⟩

-- A number is only opened when nobody has listened on its FdEvent before (or, for
-- the callback that the new owner replaces at once, when nobody listened to
-- write), an end point only listens on an open number that it owns, and one that
-- does not close its fd goes with both bits clear.
def CleanGuard (desc : Descriptors) : DescriptorAction → Prop
  | .construct fd =>
      fd ∉ desc.openFds → (desc.fdEvents fd).readCallback = none ∧ (desc.fdEvents fd).writeCallback = none
  | .accept fd => fd ∉ desc.openFds → (desc.fdEvents fd).writeCallback = none
  | .connect number => ∀ endPoint ∈ desc.endPoints number, endPoint.eventFd ∈ desc.openFds → endPoint.fd = endPoint.eventFd
  | .writeMessage number =>
      ∀ endPoint ∈ desc.endPoints number, endPoint.eventFd ∈ desc.openFds → endPoint.fd = endPoint.eventFd
  | .readMessage number =>
      ∀ endPoint ∈ desc.endPoints number, endPoint.eventFd ∈ desc.openFds → endPoint.fd = endPoint.eventFd
  | .connectFailed number fd =>
      ∀ endPoint ∈ desc.endPoints number, fd ∉ desc.openFds.erase endPoint.fd → CallbacksOf (desc.fdEvents fd) number
  | .destroy number =>
      ∀ endPoint ∈ desc.endPoints number, ¬ (endPoint.isClient = true ∧ endPoint.fd > 0) →
        (desc.fdEvents endPoint.fd).epollIn = false ∧ (desc.fdEvents endPoint.fd).epollOut = false
  | _ => True

theorem descriptor_step_clean (desc : Descriptors) (action : DescriptorAction) (kept : Kept desc) :
    ∃ later, descriptorStep desc action = some later ∧
      (CleanGuard desc action → Kept later) ∧ (Clean later → CleanGuard desc action) := by
  cases action with
  | construct fd =>
      by_cases opened : fd ∈ desc.openFds
      · exact ⟨desc, if_pos opened, fun _ => kept, fun _ closed => absurd opened closed⟩
      · obtain ⟨keeps, forced⟩ := construct_client_decided desc fd kept opened
        exact ⟨_, if_neg opened, fun allowed => keeps (allowed opened), fun clean _ => forced clean⟩
  | accept fd =>
      by_cases opened : fd ∈ desc.openFds
      · exact ⟨desc, if_pos opened, fun _ => kept, fun _ closed => absurd opened closed⟩
      · obtain ⟨keeps, forced⟩ := accept_connection_decided desc fd kept opened
        exact ⟨_, if_neg opened, fun allowed => keeps (allowed opened), fun clean _ => forced clean⟩
  | connect number =>
      exact with_end_point_decided Kept Clean _ desc number _ kept fun endPoint found =>
        listen_on_clean_decided desc number endPoint .outEvent out_event_data kept found
  | connectSucceeded number inProgress =>
      exact with_end_point_free Kept Clean desc number _ kept fun endPoint found =>
        connect_succeeded_kept desc number endPoint inProgress kept found
  | connectFailed number fd =>
      refine with_end_point_decided Kept Clean _ desc number _ kept ?_
      intro endPoint found
      by_cases opened : fd ∈ desc.openFds.erase endPoint.fd
      · simp only [if_pos opened]
        exact ⟨fun _ => kept, fun _ free => absurd opened free⟩
      · simp only [if_neg opened]
        obtain ⟨keeps, forced⟩ := connect_failed_clean_decided desc number endPoint fd kept found opened
        exact ⟨fun allowed => keeps (allowed opened), fun clean _ => forced clean⟩
  | writeMessage number =>
      exact with_end_point_decided Kept Clean _ desc number _ kept fun endPoint found =>
        listen_on_clean_decided desc number endPoint .outEvent out_event_data kept found
  | readMessage number =>
      exact with_end_point_decided Kept Clean _ desc number _ kept fun endPoint found =>
        listen_on_clean_decided desc number endPoint .inEvent in_event_data kept found
  | finishWriting number =>
      exact with_end_point_free Kept Clean desc number _ kept fun endPoint _ =>
        finish_writing_kept desc endPoint kept
  | clear number =>
      exact with_end_point_free Kept Clean desc number _ kept fun endPoint found =>
        clear_connection_kept desc number endPoint kept found
  | epollError fd => exact ⟨_, rfl, fun _ => epoll_error_kept desc fd kept, fun _ => trivial⟩
  | destroy number =>
      exact with_end_point_decided Kept Clean _ desc number _ kept fun endPoint found =>
        destroy_end_point_clean_decided desc number endPoint kept found

theorem reused_clean_iff (loopFds : Finset Nat) (actions : List DescriptorAction) :
    Always descriptorStep Clean (loopDescriptors loopFds) actions ↔
      Guarded descriptorStep CleanGuard (loopDescriptors loopFds) actions :=
  always_iff_decided descriptorStep CleanGuard Kept Clean (fun _ kept => kept.clean) descriptor_step_clean
    (loopDescriptors loopFds) actions (loop_kept loopFds)

-- The connect of the first client is refused and the client destroyed. The next
-- client, which connects at once, reads on the same fd, and the fd is registered
-- for EPOLLOUT with the callback of the destroyed one.
theorem stale_connect_diverges :
    ∃ actions later, run descriptorStep (loopDescriptors ∅) actions = some later ∧
      actions = [.construct 5, .connect 0, .epollError 5, .connectFailed 0 5, .destroy 0, .construct 5,
        .connectSucceeded 1 false, .readMessage 1] ∧
      5 ∈ later.openFds ∧ 5 ∈ later.epollFds ∧ later.endPoints 0 = none ∧ later.addErrors = [] ∧
      (later.fdEvents 5).epollOut = true ∧ (later.fdEvents 5).writeCallback = some 0 ∧
      ¬ Always descriptorStep Clean (loopDescriptors ∅) actions := by
  refine ⟨_, _, rfl, rfl, by decide, by decide, rfl, rfl, rfl, rfl, ?_⟩
  intro always
  obtain ⟨later, reached, clean⟩ := always_run descriptorStep Clean (loopDescriptors ∅) _ always
  cases reached
  obtain ⟨owner, held, endPoint, found, _⟩ := clean.bits 5 (by decide) .outEvent out_event_data rfl
  cases held
  cases found

end Rocket
