import Rocket.TcpServer

set_option autoImplicit false

namespace Rocket

open Trace

structure ClientConnection where
  fd : Nat
  connection : ServerConnection
deriving DecidableEq, Repr

-- openFds are the accepted descriptors that the kernel holds open. There are
-- fewer of them than ints, so the counter is not taken modulo anything.
structure TcpServer where
  clientCounts : Int := 0
  client : List ClientConnection := []
  openFds : List Nat := []
deriving DecidableEq, Repr

-- The constructor, setState and the insert of onAccept.
def acceptedConnection : ServerConnection := ServerConnection.accept (ServerConnection.accept (ServerConnection.accept {}))

def onAccept (server : TcpServer) (clientFd : Nat) : TcpServer :=
  { clientCounts := server.clientCounts + 1
    client := server.client ++ [⟨clientFd, acceptedConnection⟩]
    openFds := clientFd :: server.openFds }

-- Erasing destroys the connection, and ~TcpConnection only deletes its coder.
def eraseClosed : List ClientConnection → List ClientConnection
  | [] => []
  | client :: rest => if client.connection.state = .closed then eraseClosed rest else client :: eraseClosed rest

def clearClientTimer (server : TcpServer) : TcpServer := { server with client := eraseClosed server.client }

inductive ClientCall where
  | onRead (input : TaskInput)
  | onWrite (input : TaskInput)
  | clear
  | shutdown
deriving DecidableEq, Repr

def callClient (client : ClientConnection) (call : ClientCall) : ClientConnection :=
  { client with
    connection :=
      match call with
      | .onRead input => client.connection.onRead input
      | .onWrite input => client.connection.onWrite input
      | .clear => client.connection.clear
      | .shutdown => client.connection.shutdown }

inductive ServerAction where
  | onAccept (clientFd : Nat)
  | call (index : Nat) (call : ClientCall)
  | clearClientTimer
deriving DecidableEq, Repr

-- accept returns a descriptor that is not open.
def bookkeepingStep (server : TcpServer) : ServerAction → Option TcpServer
  | .onAccept clientFd => if clientFd ∈ server.openFds then some server else some (onAccept server clientFd)
  | .call index call =>
      match server.client[index]? with
      | none => some server
      | some client => some { server with client := server.client.set index (callClient client call) }
  | .clearClientTimer => some (clearClientTimer server)

structure Balanced (server : TcpServer) : Prop where
  counts : server.clientCounts = server.client.length
  fds : ∀ fd, fd ∈ server.openFds ↔ fd ∈ server.client.map ClientConnection.fd

structure Bookkeeping (server : TcpServer) (action : ServerAction) (later : TcpServer) : Prop where
  balanced : Balanced later
  swept : action = .clearClientTimer →
    later.client = server.client.filter fun client => client.connection.state ≠ .closed

def NothingClosed (server : TcpServer) : ServerAction → Prop
  | .clearClientTimer => ∀ client ∈ server.client, client.connection.state ≠ .closed
  | _ => True

theorem erase_closed_filter (clients : List ClientConnection) :
    eraseClosed clients = clients.filter fun client => client.connection.state ≠ .closed := by
  induction clients with
  | nil => rfl
  | cons client rest ih =>
      by_cases closed : client.connection.state = .closed
      · simpa [eraseClosed, closed] using ih
      · simpa [eraseClosed, closed] using ih

theorem on_accept_balanced (server : TcpServer) (clientFd : Nat) (balanced : Balanced server) :
    Balanced (onAccept server clientFd) := by
  constructor
  · simp [onAccept, balanced.counts]
  · intro fd
    simp only [onAccept, List.mem_cons, List.map_append, List.mem_append, List.map_cons, List.map_nil, List.not_mem_nil,
      or_false]
    rw [balanced.fds fd, or_comm]

theorem call_client_balanced (server : TcpServer) (index : Nat) (client : ClientConnection) (call : ClientCall)
    (found : server.client[index]? = some client) (balanced : Balanced server) :
    Balanced { server with client := server.client.set index (callClient client call) } := by
  obtain ⟨inside, same⟩ := List.getElem?_eq_some_iff.mp found
  have sameFds : (server.client.set index (callClient client call)).map ClientConnection.fd =
      server.client.map ClientConnection.fd := by
    have bound : index < (server.client.map ClientConnection.fd).length := by simpa using inside
    have again : (callClient client call).fd = (server.client.map ClientConnection.fd)[index] := by simp [same, callClient]
    rw [List.map_set, again, List.set_getElem_self]
  constructor
  · simpa using balanced.counts
  · intro fd
    rw [sameFds]
    exact balanced.fds fd

theorem clear_client_timer_decided (server : TcpServer) (balanced : Balanced server) :
    (NothingClosed server .clearClientTimer → Balanced (clearClientTimer server)) ∧
      (Balanced (clearClientTimer server) → NothingClosed server .clearClientTimer) := by
  constructor
  · intro opened
    have same : eraseClosed server.client = server.client := by
      rw [erase_closed_filter]
      exact List.filter_eq_self.mpr (fun client member => by simpa using opened client member)
    rw [clearClientTimer, same]
    exact balanced
  · intro after client member
    have counts := after.counts
    rw [clearClientTimer, balanced.counts, erase_closed_filter] at counts
    have every := List.length_filter_eq_length_iff.mp (Int.ofNat_inj.mp counts).symm
    simpa using every client member

theorem bookkeeping_step_decided (server : TcpServer) (action : ServerAction) (balanced : Balanced server) :
    ∃ later, bookkeepingStep server action = some later ∧
      (NothingClosed server action → Balanced later ∧ Bookkeeping server action later) ∧
      (Bookkeeping server action later → NothingClosed server action) := by
  cases action with
  | onAccept clientFd =>
      by_cases taken : clientFd ∈ server.openFds
      · exact ⟨server, if_pos taken, fun _ => ⟨balanced, balanced, (fun wrong => nomatch wrong)⟩, fun _ => trivial⟩
      · have after := on_accept_balanced server clientFd balanced
        exact ⟨_, if_neg taken, fun _ => ⟨after, after, (fun wrong => nomatch wrong)⟩, fun _ => trivial⟩
  | call index call =>
      cases found : server.client[index]? with
      | none =>
          exact ⟨server, by simp only [bookkeepingStep, found], fun _ => ⟨balanced, balanced, (fun wrong => nomatch wrong)⟩,
            fun _ => trivial⟩
      | some client =>
          have after := call_client_balanced server index client call found balanced
          exact ⟨_, by simp only [bookkeepingStep, found], fun _ => ⟨after, after, (fun wrong => nomatch wrong)⟩, fun _ => trivial⟩
  | clearClientTimer =>
      obtain ⟨keeps, forced⟩ := clear_client_timer_decided server balanced
      refine ⟨_, rfl, ?_, fun kept => forced kept.balanced⟩
      intro nothing
      exact ⟨keeps nothing, keeps nothing, fun _ => erase_closed_filter server.client⟩

theorem bookkeeping_iff (actions : List ServerAction) :
    Throughout bookkeepingStep Bookkeeping {} actions ↔ Guarded bookkeepingStep NothingClosed {} actions := by
  apply throughout_iff_decided bookkeepingStep NothingClosed Balanced Bookkeeping bookkeeping_step_decided
  exact ⟨rfl, fun fd => by simp⟩

-- A client comes and goes: the sweep removes its connection, but neither the
-- count of it nor its descriptor.
def goneClient : List ServerAction := [.onAccept 7, .call 0 (.onRead { isClose := true })]

theorem gone_client_leaks : run bookkeepingStep {} (goneClient ++ [.clearClientTimer]) = some ⟨1, [], [7]⟩ := by
  decide

theorem gone_client_diverges : ¬ Throughout bookkeepingStep Bookkeeping {} (goneClient ++ [.clearClientTimer]) := by
  intro throughout
  obtain ⟨_, later, _, reached, kept⟩ := throughout_last bookkeepingStep Bookkeeping {} goneClient _ throughout
  cases gone_client_leaks.symm.trans reached
  have counts := kept.balanced.counts
  cases counts

end Rocket
