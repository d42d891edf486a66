import Rocket.Descriptors
import Mathlib.Data.Finset.Insert
import Mathlib.Tactic.Common

set_option autoImplicit false

namespace Rocket

open Trace

-- m_listen_fds is the epoll set, and no registration has failed.
structure Agree (desc : Descriptors) : Prop where
  same : desc.listenFds = desc.epollFds
  registered : desc.addErrors = []

instance agreeDecidable (desc : Descriptors) : Decidable (Agree desc) :=
  decidable_of_iff (desc.listenFds = desc.epollFds ∧ desc.addErrors = [])
    ⟨fun both => ⟨both.1, both.2⟩, fun agree => ⟨agree.same, agree.registered⟩⟩

structure Tracked (desc : Descriptors) : Prop where
  agree : Agree desc
  alive : desc.epollFds ⊆ desc.openFds

theorem loop_tracked (loopFds : Finset Nat) : Tracked (loopDescriptors loopFds) :=
  ⟨⟨rfl, rfl⟩, Finset.Subset.refl loopFds⟩

theorem tracked_transfer (desc other : Descriptors) (listens : other.listenFds = desc.listenFds)
    (registers : other.epollFds = desc.epollFds) (errors : other.addErrors = desc.addErrors)
    (opens : desc.openFds ⊆ other.openFds) (tracked : Tracked desc) : Tracked other := by
  refine ⟨⟨?_, errors.trans tracked.agree.registered⟩, ?_⟩
  · rw [listens, registers]
    exact tracked.agree.same
  · rw [registers]
    exact tracked.alive.trans opens

theorem add_epoll_event_decided (desc : Descriptors) (fd : Nat) (tracked : Tracked desc) :
    (fd ∈ desc.openFds → Tracked (addEpollEvent desc fd)) ∧ (Agree (addEpollEvent desc fd) → fd ∈ desc.openFds) := by
  by_cases listed : fd ∈ desc.listenFds
  · have inEpoll : fd ∈ desc.epollFds := tracked.agree.same ▸ listed
    have opened : fd ∈ desc.openFds := tracked.alive inEpoll
    have unchanged : addEpollEvent desc fd = desc := by
      simp only [addEpollEvent, epollCtl, if_pos listed, if_pos inEpoll, Finset.insert_eq_self.mpr listed]
    rw [unchanged]
    exact ⟨fun _ => tracked, fun _ => opened⟩
  · have notInEpoll : fd ∉ desc.epollFds := tracked.agree.same ▸ listed
    by_cases opened : fd ∈ desc.openFds
    · have allowed : fd ∈ desc.openFds ∧ fd ∉ desc.epollFds := ⟨opened, notInEpoll⟩
      refine ⟨fun _ => ?_, fun _ => opened⟩
      simp only [addEpollEvent, epollCtl, if_neg listed, if_pos allowed]
      refine ⟨⟨?_, tracked.agree.registered⟩, Finset.insert_subset opened tracked.alive⟩
      exact congrArg (insert fd) tracked.agree.same
    · have refused : ¬ (fd ∈ desc.openFds ∧ fd ∉ desc.epollFds) := fun both => opened both.1
      refine ⟨fun is => absurd is opened, ?_⟩
      intro agree
      have logged := agree.registered
      simp only [addEpollEvent, epollCtl, if_neg listed, if_neg refused, reduceCtorEq] at logged

theorem delete_epoll_event_tracked (desc : Descriptors) (fd : Nat) (tracked : Tracked desc) :
    Tracked (deleteEpollEvent desc fd) := by
  by_cases listed : fd ∈ desc.listenFds
  · have inEpoll : fd ∈ desc.epollFds := tracked.agree.same ▸ listed
    simp only [deleteEpollEvent, epollCtl, not_not.mpr listed, if_false, if_pos inEpoll, Option.getD_some]
    refine ⟨⟨?_, tracked.agree.registered⟩, (Finset.erase_subset fd desc.epollFds).trans tracked.alive⟩
    exact congrArg (fun fds => fds.erase fd) tracked.agree.same
  · simp only [deleteEpollEvent, if_pos listed]
    exact tracked

theorem listen_on_decided (desc : Descriptors) (number eventFd : Nat) (eventType : TriggerEvent) (tracked : Tracked desc) :
    (eventFd ∈ desc.openFds → Tracked (listenOn desc number eventFd eventType)) ∧
      (Agree (listenOn desc number eventFd eventType) → eventFd ∈ desc.openFds) := by
  have heard : Tracked (modifyFdEvent desc eventFd fun event => event.listen eventType number none) :=
    tracked_transfer desc _ rfl rfl rfl (Finset.Subset.refl desc.openFds) tracked
  exact add_epoll_event_decided _ eventFd heard

theorem finish_writing_decided (desc : Descriptors) (endPoint : EndPoint) (tracked : Tracked desc) :
    (endPoint.eventFd ∈ desc.openFds → Tracked (finishWriting desc endPoint)) ∧
      (Agree (finishWriting desc endPoint) → endPoint.eventFd ∈ desc.openFds) := by
  have canceled : Tracked (cancleOn desc endPoint.eventFd .outEvent) :=
    tracked_transfer desc _ rfl rfl rfl (Finset.Subset.refl desc.openFds) tracked
  exact add_epoll_event_decided _ endPoint.eventFd canceled

theorem construct_client_tracked (desc : Descriptors) (fd : Nat) (tracked : Tracked desc) :
    Tracked (constructClient desc fd) :=
  tracked_transfer desc _ rfl rfl rfl (Finset.subset_insert fd desc.openFds) tracked

theorem accept_connection_tracked (desc : Descriptors) (fd : Nat) (tracked : Tracked desc) :
    Tracked (acceptConnection desc fd) := by
  have accepted : Tracked (addEndPoint (openFd desc fd) { isClient := false, fd := fd, eventFd := fd }) :=
    tracked_transfer desc _ rfl rfl rfl (Finset.subset_insert fd desc.openFds) tracked
  exact (listen_on_decided _ desc.created fd .inEvent accepted).1 (Finset.mem_insert_self fd desc.openFds)

theorem connect_succeeded_tracked (desc : Descriptors) (number : Nat) (endPoint : EndPoint) (inProgress : Bool)
    (tracked : Tracked desc) : Tracked (connectSucceeded desc number endPoint inProgress) := by
  have connected : Tracked (setEndPoint desc number (some { endPoint with closed := false })) :=
    tracked_transfer desc _ rfl rfl rfl (Finset.Subset.refl desc.openFds) tracked
  cases inProgress with
  | false => exact connected
  | true => exact delete_epoll_event_tracked _ endPoint.eventFd connected

theorem clear_connection_tracked (desc : Descriptors) (number : Nat) (endPoint : EndPoint) (tracked : Tracked desc) :
    Tracked (clearConnection desc number endPoint) := by
  unfold clearConnection
  split
  · exact tracked
  · have canceled : Tracked (cancleOn (cancleOn desc endPoint.eventFd .inEvent) endPoint.eventFd .outEvent) :=
      tracked_transfer desc _ rfl rfl rfl (Finset.Subset.refl desc.openFds) tracked
    have deleted := delete_epoll_event_tracked _ endPoint.eventFd canceled
    exact tracked_transfer (deleteEpollEvent _ endPoint.eventFd) _ rfl rfl rfl (Finset.Subset.refl _) deleted

theorem epoll_error_tracked (desc : Descriptors) (fd : Nat) (tracked : Tracked desc) : Tracked (epollError desc fd) := by
  unfold epollError
  split
  · exact delete_epoll_event_tracked desc fd tracked
  · exact tracked

theorem erase_same_iff (fds : Finset Nat) (fd : Nat) : fds = fds.erase fd ↔ fd ∉ fds :=
  eq_comm.trans Finset.erase_eq_self

theorem close_fd_decided (desc : Descriptors) (fd : Nat) (tracked : Tracked desc) :
    (fd ∉ desc.listenFds → Tracked (closeFd desc fd)) ∧ (Agree (closeFd desc fd) → fd ∉ desc.listenFds) := by
  have same := tracked.agree.same
  constructor
  · intro absent
    refine ⟨⟨?_, tracked.agree.registered⟩, Finset.erase_subset_erase fd tracked.alive⟩
    exact same.trans ((erase_same_iff desc.epollFds fd).mpr (same ▸ absent))
  · intro agree
    have erased : desc.listenFds = desc.epollFds.erase fd := agree.same
    rw [same]
    exact (erase_same_iff desc.epollFds fd).mp (same.symm.trans erased)

theorem delete_listens (desc : Descriptors) (fd : Nat) :
    (deleteEpollEvent desc fd).listenFds = desc.listenFds.erase fd := by
  by_cases listed : fd ∈ desc.listenFds
  · simp only [deleteEpollEvent, epollCtl, not_not.mpr listed, if_false]
    split
    · rfl
    · rfl
  · simp only [deleteEpollEvent, if_pos listed]
    exact (Finset.erase_eq_of_notMem listed).symm

theorem delete_registers (desc : Descriptors) (fd : Nat) : (deleteEpollEvent desc fd).epollFds ⊆ desc.epollFds := by
  by_cases listed : fd ∈ desc.listenFds
  · simp only [deleteEpollEvent, epollCtl, not_not.mpr listed, if_false]
    split
    · exact Finset.erase_subset fd desc.epollFds
    · exact Finset.Subset.refl desc.epollFds
  · simp only [deleteEpollEvent, if_pos listed]
    exact Finset.Subset.refl desc.epollFds

-- Closing the fd takes it out of the epoll set before deleteEpollEvent, whose
-- EPOLL_CTL_DEL then fails and does no harm.
theorem replaced_tracked (desc replaced : Descriptors) (fd : Nat) (tracked : Tracked desc) (registered : fd ∈ desc.epollFds)
    (listens : replaced.listenFds = desc.listenFds) (registers : replaced.epollFds = desc.epollFds.erase fd)
    (errors : replaced.addErrors = desc.addErrors) (opens : desc.openFds.erase fd ⊆ replaced.openFds) :
    Tracked (deleteEpollEvent replaced fd) := by
  have listed : fd ∈ replaced.listenFds := by
    rw [listens, tracked.agree.same]
    exact registered
  have gone : fd ∉ replaced.epollFds := by
    rw [registers]
    exact Finset.notMem_erase fd desc.epollFds
  simp only [deleteEpollEvent, epollCtl, not_not.mpr listed, if_false, if_neg gone, Option.getD_none]
  refine ⟨⟨?_, errors.trans tracked.agree.registered⟩, ?_⟩
  · simp only [listens, registers, tracked.agree.same]
  · simp only [registers]
    exact (Finset.erase_subset_erase fd tracked.alive).trans opens

theorem connect_failed_decided (desc : Descriptors) (number : Nat) (endPoint : EndPoint) (fd : Nat) (tracked : Tracked desc) :
    ((endPoint.fd ∈ desc.listenFds → endPoint.fd = endPoint.eventFd) →
        Tracked (connectFailed desc number endPoint fd)) ∧
      (Agree (connectFailed desc number endPoint fd) → endPoint.fd ∈ desc.listenFds → endPoint.fd = endPoint.eventFd) := by
  let closed := closeFd desc endPoint.fd
  let replaced := setEndPoint (openFd closed fd) number (some { endPoint with fd := fd })
  change (_ → Tracked (deleteEpollEvent replaced endPoint.eventFd)) ∧
    (Agree (deleteEpollEvent replaced endPoint.eventFd) → _)
  by_cases listed : endPoint.fd ∈ desc.listenFds
  · by_cases own : endPoint.fd = endPoint.eventFd
    · refine ⟨fun _ => ?_, fun _ _ => own⟩
      have registered : endPoint.fd ∈ desc.epollFds := tracked.agree.same ▸ listed
      rw [← own]
      exact replaced_tracked desc replaced endPoint.fd tracked registered rfl rfl rfl
        (Finset.subset_insert fd closed.openFds)
    · refine ⟨fun is => absurd (is listed) own, ?_⟩
      intro agree
      have left : endPoint.fd ∈ replaced.listenFds.erase endPoint.eventFd := Finset.mem_erase_of_ne_of_mem own listed
      rw [← delete_listens replaced endPoint.eventFd, agree.same] at left
      have stillThere := delete_registers replaced endPoint.eventFd left
      exact absurd stillThere (Finset.notMem_erase endPoint.fd desc.epollFds)
  · refine ⟨fun _ => ?_, fun _ is => absurd is listed⟩
    have closedTracked : Tracked closed := (close_fd_decided desc endPoint.fd tracked).1 listed
    exact delete_epoll_event_tracked replaced endPoint.eventFd
      (tracked_transfer closed replaced rfl rfl rfl (Finset.subset_insert fd closed.openFds) closedTracked)

theorem destroy_end_point_decided (desc : Descriptors) (number : Nat) (endPoint : EndPoint) (tracked : Tracked desc) :
    ((endPoint.isClient = true ∧ endPoint.fd > 0 → endPoint.fd ∉ desc.listenFds) →
        Tracked (destroyEndPoint desc number endPoint)) ∧
      (Agree (destroyEndPoint desc number endPoint) →
        endPoint.isClient = true ∧ endPoint.fd > 0 → endPoint.fd ∉ desc.listenFds) := by
  have destroyed : Tracked (setEndPoint desc number none) :=
    tracked_transfer desc _ rfl rfl rfl (Finset.Subset.refl desc.openFds) tracked
  obtain ⟨kept, forced⟩ := close_fd_decided _ endPoint.fd destroyed
  by_cases closes : endPoint.isClient = true ∧ endPoint.fd > 0
  · simp only [destroyEndPoint, if_pos closes]
    exact ⟨fun absent => kept (absent closes), fun agree _ => forced agree⟩
  · simp only [destroyEndPoint, if_neg closes]
    exact ⟨fun _ => destroyed, fun _ is => absurd is closes⟩

-- An object that listens has an FdEvent whose number is open, a socket is only
-- replaced when its number is that of the FdEvent or is not listened to, and
-- ~TcpClient closes a fd that is not listened to.
def EpollGuard (desc : Descriptors) : DescriptorAction → Prop
  | .connect number => ∀ endPoint ∈ desc.endPoints number, endPoint.eventFd ∈ desc.openFds
  | .writeMessage number => ∀ endPoint ∈ desc.endPoints number, endPoint.eventFd ∈ desc.openFds
  | .readMessage number => ∀ endPoint ∈ desc.endPoints number, endPoint.eventFd ∈ desc.openFds
  | .finishWriting number => ∀ endPoint ∈ desc.endPoints number, endPoint.eventFd ∈ desc.openFds
  | .connectFailed number fd =>
      ∀ endPoint ∈ desc.endPoints number, fd ∉ desc.openFds.erase endPoint.fd →
        endPoint.fd ∈ desc.listenFds → endPoint.fd = endPoint.eventFd
  | .destroy number =>
      ∀ endPoint ∈ desc.endPoints number, endPoint.isClient = true ∧ endPoint.fd > 0 → endPoint.fd ∉ desc.listenFds
  | _ => True

theorem descriptor_step_decided (desc : Descriptors) (action : DescriptorAction) (tracked : Tracked desc) :
    ∃ later, descriptorStep desc action = some later ∧
      (EpollGuard desc action → Tracked later) ∧ (Agree later → EpollGuard desc action) := by
  cases action with
  | construct fd =>
      by_cases opened : fd ∈ desc.openFds
      · exact ⟨desc, if_pos opened, fun _ => tracked, fun _ => trivial⟩
      · exact ⟨_, if_neg opened, fun _ => construct_client_tracked desc fd tracked, fun _ => trivial⟩
  | accept fd =>
      by_cases opened : fd ∈ desc.openFds
      · exact ⟨desc, if_pos opened, fun _ => tracked, fun _ => trivial⟩
      · exact ⟨_, if_neg opened, fun _ => accept_connection_tracked desc fd tracked, fun _ => trivial⟩
  | connect number =>
      exact with_end_point_decided Tracked Agree _ desc number _ tracked fun endPoint _ =>
        listen_on_decided desc number endPoint.eventFd .outEvent tracked
  | connectSucceeded number inProgress =>
      exact with_end_point_free Tracked Agree desc number _ tracked fun endPoint _ =>
        connect_succeeded_tracked desc number endPoint inProgress tracked
  | connectFailed number fd =>
      refine with_end_point_decided Tracked Agree _ desc number _ tracked ?_
      intro endPoint _
      by_cases opened : fd ∈ desc.openFds.erase endPoint.fd
      · simp only [if_pos opened]
        exact ⟨fun _ => tracked, fun _ free => absurd opened free⟩
      · simp only [if_neg opened]
        obtain ⟨kept, forced⟩ := connect_failed_decided desc number endPoint fd tracked
        exact ⟨fun allowed => kept (allowed opened), fun agree _ => forced agree⟩
  | writeMessage number =>
      exact with_end_point_decided Tracked Agree _ desc number _ tracked fun endPoint _ =>
        listen_on_decided desc number endPoint.eventFd .outEvent tracked
  | readMessage number =>
      exact with_end_point_decided Tracked Agree _ desc number _ tracked fun endPoint _ =>
        listen_on_decided desc number endPoint.eventFd .inEvent tracked
  | finishWriting number =>
      exact with_end_point_decided Tracked Agree _ desc number _ tracked fun endPoint _ =>
        finish_writing_decided desc endPoint tracked
  | clear number =>
      exact with_end_point_free Tracked Agree desc number _ tracked fun endPoint _ =>
        clear_connection_tracked desc number endPoint tracked
  | epollError fd => exact ⟨_, rfl, fun _ => epoll_error_tracked desc fd tracked, fun _ => trivial⟩
  | destroy number =>
      exact with_end_point_decided Tracked Agree _ desc number _ tracked fun endPoint _ =>
        destroy_end_point_decided desc number endPoint tracked

theorem epoll_agrees_iff (loopFds : Finset Nat) (actions : List DescriptorAction) :
    Always descriptorStep Agree (loopDescriptors loopFds) actions ↔
      Guarded descriptorStep EpollGuard (loopDescriptors loopFds) actions :=
  always_iff_decided descriptorStep EpollGuard Tracked Agree (fun _ tracked => tracked.agree) descriptor_step_decided
    (loopDescriptors loopFds) actions (loop_tracked loopFds)

-- The first client reads and is destroyed while its fd is listened to. The next
-- one gets the same fd, its EPOLL_CTL_MOD fails, and no event ever comes.
theorem reused_fd_diverges :
    ∃ actions later, run descriptorStep (loopDescriptors ∅) actions = some later ∧
      actions = [.construct 5, .readMessage 0, .destroy 0, .construct 5, .writeMessage 1] ∧
      5 ∈ later.openFds ∧ 5 ∈ later.listenFds ∧ 5 ∉ later.epollFds ∧ later.addErrors = [5] ∧
      ¬ Always descriptorStep Agree (loopDescriptors ∅) actions :=
  ⟨_, _, rfl, rfl, by decide⟩

end Rocket
