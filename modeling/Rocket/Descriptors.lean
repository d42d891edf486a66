import Rocket.FdEvent
import Rocket.Lib.Trace

set_option autoImplicit false

namespace Rocket

-- A TcpClient together with its connection, or a TcpConnection of the server.
structure EndPoint where
  isClient : Bool
  fd : Nat
  eventFd : Nat
  closed : Bool := false
deriving DecidableEq, Repr

-- One loop thread and the kernel under it. A callback is the number of the end
-- point it belongs to.
structure Descriptors where
  openFds : Finset Nat := ∅
  epollFds : Finset Nat := ∅
  listenFds : Finset Nat := ∅
  addErrors : List Nat := []
  fdEvents : Nat → FdEvent Nat := fun _ => {}
  endPoints : Nat → Option EndPoint := fun _ => none
  created : Nat := 0

inductive EpollOp where
  | add
  | mod
  | del
deriving DecidableEq, Repr

def epollCtl (desc : Descriptors) (op : EpollOp) (fd : Nat) : Option Descriptors :=
  match op with
  | .add =>
      if fd ∈ desc.openFds ∧ fd ∉ desc.epollFds then some { desc with epollFds := insert fd desc.epollFds } else none
  | .mod => if fd ∈ desc.epollFds then some desc else none
  | .del => if fd ∈ desc.epollFds then some { desc with epollFds := desc.epollFds.erase fd } else none

def closeFd (desc : Descriptors) (fd : Nat) : Descriptors :=
  { desc with openFds := desc.openFds.erase fd, epollFds := desc.epollFds.erase fd }

def openFd (desc : Descriptors) (fd : Nat) : Descriptors := { desc with openFds := insert fd desc.openFds }

def addEpollEvent (desc : Descriptors) (fd : Nat) : Descriptors :=
  let op := if fd ∈ desc.listenFds then EpollOp.mod else EpollOp.add
  let called :=
    match epollCtl desc op fd with
    | some registered => registered
    | none => { desc with addErrors := fd :: desc.addErrors }
  { called with listenFds := insert fd called.listenFds }

def deleteEpollEvent (desc : Descriptors) (fd : Nat) : Descriptors :=
  if fd ∉ desc.listenFds then desc
  else
    let called := (epollCtl desc .del fd).getD desc
    { called with listenFds := called.listenFds.erase fd }

def modifyFdEvent (desc : Descriptors) (fd : Nat) (change : FdEvent Nat → FdEvent Nat) : Descriptors :=
  { desc with fdEvents := Function.update desc.fdEvents fd (change (desc.fdEvents fd)) }

def setEndPoint (desc : Descriptors) (number : Nat) (endPoint : Option EndPoint) : Descriptors :=
  { desc with endPoints := Function.update desc.endPoints number endPoint }

def addEndPoint (desc : Descriptors) (endPoint : EndPoint) : Descriptors :=
  { setEndPoint desc desc.created (some endPoint) with created := desc.created + 1 }

def listenOn (desc : Descriptors) (number eventFd : Nat) (eventType : TriggerEvent) : Descriptors :=
  addEpollEvent (modifyFdEvent desc eventFd fun event => event.listen eventType number none) eventFd

def cancleOn (desc : Descriptors) (eventFd : Nat) (eventType : TriggerEvent) : Descriptors :=
  modifyFdEvent desc eventFd fun event => event.cancle eventType

def constructClient (desc : Descriptors) (fd : Nat) : Descriptors :=
  addEndPoint (openFd desc fd) { isClient := true, fd := fd, eventFd := fd }

def acceptConnection (desc : Descriptors) (fd : Nat) : Descriptors :=
  listenOn (addEndPoint (openFd desc fd) { isClient := false, fd := fd, eventFd := fd }) desc.created fd .inEvent

def connectSucceeded (desc : Descriptors) (number : Nat) (endPoint : EndPoint) (inProgress : Bool) : Descriptors :=
  let connected := setEndPoint desc number (some { endPoint with closed := false })
  if inProgress = true then deleteEpollEvent connected endPoint.eventFd else connected

-- m_fd is replaced, m_fd_event stays the one of the old number.
def connectFailed (desc : Descriptors) (number : Nat) (endPoint : EndPoint) (fd : Nat) : Descriptors :=
  let replaced := setEndPoint (openFd (closeFd desc endPoint.fd) fd) number (some { endPoint with fd := fd })
  deleteEpollEvent replaced endPoint.eventFd

def finishWriting (desc : Descriptors) (endPoint : EndPoint) : Descriptors :=
  addEpollEvent (cancleOn desc endPoint.eventFd .outEvent) endPoint.eventFd

def clearConnection (desc : Descriptors) (number : Nat) (endPoint : EndPoint) : Descriptors :=
  if endPoint.closed = true then desc
  else
    let canceled := cancleOn (cancleOn desc endPoint.eventFd .inEvent) endPoint.eventFd .outEvent
    setEndPoint (deleteEpollEvent canceled endPoint.eventFd) number (some { endPoint with closed := true })

-- EPOLLERR in loop. None of these end points gives an error callback to listen.
def epollError (desc : Descriptors) (fd : Nat) : Descriptors :=
  if fd ∈ desc.epollFds then deleteEpollEvent desc fd else desc

def destroyEndPoint (desc : Descriptors) (number : Nat) (endPoint : EndPoint) : Descriptors :=
  let destroyed := setEndPoint desc number none
  if endPoint.isClient = true ∧ endPoint.fd > 0 then closeFd destroyed endPoint.fd else destroyed

def loopDescriptors (loopFds : Finset Nat) : Descriptors :=
  { openFds := loopFds, epollFds := loopFds, listenFds := loopFds }

-- writeMessage and readMessage stand for every listenWrite and listenRead, those
-- of reply too. connect is one that is in progress.
inductive DescriptorAction where
  | construct (fd : Nat)
  | accept (fd : Nat)
  | connect (number : Nat)
  | connectSucceeded (number : Nat) (inProgress : Bool)
  | connectFailed (number fd : Nat)
  | writeMessage (number : Nat)
  | readMessage (number : Nat)
  | finishWriting (number : Nat)
  | clear (number : Nat)
  | epollError (fd : Nat)
  | destroy (number : Nat)
deriving DecidableEq, Repr

def withEndPoint (desc : Descriptors) (number : Nat) (change : EndPoint → Descriptors) : Option Descriptors :=
  match desc.endPoints number with
  | none => some desc
  | some endPoint => some (change endPoint)

theorem with_end_point_decided (inv good : Descriptors → Prop) (guard : EndPoint → Prop) (desc : Descriptors) (number : Nat)
    (change : EndPoint → Descriptors) (here : inv desc)
    (decided : ∀ endPoint, desc.endPoints number = some endPoint →
      (guard endPoint → inv (change endPoint)) ∧ (good (change endPoint) → guard endPoint)) :
    ∃ later, withEndPoint desc number change = some later ∧
      ((∀ endPoint ∈ desc.endPoints number, guard endPoint) → inv later) ∧
      (good later → ∀ endPoint ∈ desc.endPoints number, guard endPoint) := by
  cases found : desc.endPoints number with
  | none =>
      refine ⟨desc, by simp only [withEndPoint, found], fun _ => here, ?_⟩
      intro _ endPoint wrong
      cases wrong
  | some endPoint =>
      obtain ⟨kept, forced⟩ := decided endPoint found
      refine ⟨change endPoint, by simp only [withEndPoint, found], fun allowed => kept (allowed endPoint rfl), ?_⟩
      intro goodLater other same
      cases same
      exact forced goodLater

theorem with_end_point_free (inv good : Descriptors → Prop) (desc : Descriptors) (number : Nat)
    (change : EndPoint → Descriptors) (here : inv desc)
    (kept : ∀ endPoint, desc.endPoints number = some endPoint → inv (change endPoint)) :
    ∃ later, withEndPoint desc number change = some later ∧ (True → inv later) ∧ (good later → True) := by
  obtain ⟨later, taken, keeps, _⟩ :=
    with_end_point_decided inv good (fun _ => True) desc number change here fun endPoint found =>
      ⟨fun _ => kept endPoint found, fun _ => trivial⟩
  exact ⟨later, taken, fun _ => keeps fun _ _ => trivial, fun _ => trivial⟩

-- The kernel hands out a closed number, which may be one that was just closed.
def descriptorStep (desc : Descriptors) : DescriptorAction → Option Descriptors
  | .construct fd => if fd ∈ desc.openFds then some desc else some (constructClient desc fd)
  | .accept fd => if fd ∈ desc.openFds then some desc else some (acceptConnection desc fd)
  | .connect number => withEndPoint desc number fun endPoint => listenOn desc number endPoint.eventFd .outEvent
  | .connectSucceeded number inProgress =>
      withEndPoint desc number fun endPoint => connectSucceeded desc number endPoint inProgress
  | .connectFailed number fd =>
      withEndPoint desc number fun endPoint =>
        if fd ∈ desc.openFds.erase endPoint.fd then desc else connectFailed desc number endPoint fd
  | .writeMessage number => withEndPoint desc number fun endPoint => listenOn desc number endPoint.eventFd .outEvent
  | .readMessage number => withEndPoint desc number fun endPoint => listenOn desc number endPoint.eventFd .inEvent
  | .finishWriting number => withEndPoint desc number fun endPoint => finishWriting desc endPoint
  | .clear number => withEndPoint desc number fun endPoint => clearConnection desc number endPoint
  | .epollError fd => some (epollError desc fd)
  | .destroy number => withEndPoint desc number fun endPoint => destroyEndPoint desc number endPoint

end Rocket
