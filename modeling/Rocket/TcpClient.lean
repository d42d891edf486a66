import Rocket.CleanFdEvent
import Rocket.EpollAgreement
import Rocket.RpcChannel
import Rocket.TcpConnection

set_option autoImplicit false

namespace Rocket

open Word32 Trace

-- A client with the loop and the kernel under it. fd is m_fd, without a value
-- when socket has failed, and fdEvent the number of m_fd_event. The connection
-- has its own copy of the fd. A callback in m_fd_event is the number of the
-- connect that put it there, and invoked records the done callbacks that ran
-- and whether their attempts had succeeded.
structure TcpClient where
  desc : Descriptors
  fd : Option Nat
  fdEvent : Option Nat
  connection : Option (Nat × TcpState)
  connectErrorCode : Int := 0
  connectErrorMsg : Bytes := []
  started : Nat := 0
  invoked : List (Nat × Bool) := []

-- An answer of socket, which is no number that is in use.
def freshSocket (desc : Descriptors) (socket : Option Nat) : Option Nat :=
  socket.filter fun fd => decide (fd ∉ desc.openFds)

def newTcpClient (desc : Descriptors) (socket : Option Nat) : TcpClient :=
  match freshSocket desc socket with
  | none => { desc := desc, fd := none, fdEvent := none, connection := none }
  | some fd => { desc := openFd desc fd, fd := some fd, fdEvent := some fd, connection := some (fd, .notConnected) }

-- Without a connection this is a call through a null pointer.
def setConnected (client : TcpClient) : Option TcpClient :=
  client.connection.map fun connection => { client with connection := some (connection.1, .connected) }

def invokeDone (client : TcpClient) (attempt : Nat) (succeeded : Bool) : TcpClient :=
  { client with invoked := client.invoked ++ [(attempt, succeeded)] }

-- The kernel connects no descriptor that does not exist.
def connectAnswer (client : TcpClient) (result : ConnectResult) : ConnectResult :=
  if client.fd = none then .failed (text "Bad file descriptor") else result

def TcpClient.connect (client : TcpClient) (result : ConnectResult) : Option TcpClient := do
  let called := { client with started := client.started + 1 }
  match connectAnswer client result with
  | .success => do
      let connected ← setConnected called
      some (invokeDone connected client.started true)
  | .inProgress => do
      let eventFd ← client.fdEvent
      some { called with desc := listenOn client.desc client.started eventFd .outEvent }
  | .failed sysError =>
      let failed := { called with
        connectErrorCode := ERROR_FAILED_CONNECT
        connectErrorMsg := text "connect error, sys error = " ++ sysError }
      some (invokeDone failed client.started false)

def connectError (client : TcpClient) (inProgress : Bool) (sysError : Bytes) : TcpClient :=
  if inProgress = true then
    { client with
      connectErrorCode := ERROR_PEER_CLOSED
      connectErrorMsg := text "connect refused, sys error = " ++ sysError }
  else
    { client with
      connectErrorCode := ERROR_FAILED_CONNECT
      connectErrorMsg := text "connect unknown error, sys error = " ++ sysError }

def closeSocket (desc : Descriptors) : Option Nat → Descriptors
  | none => desc
  | some fd => closeFd desc fd

def openSocket (desc : Descriptors) : Option Nat → Descriptors
  | none => desc
  | some fd => openFd desc fd

-- m_fd is replaced, m_fd_event and the connection keep the old number.
def replaceSocket (client : TcpClient) (socket : Option Nat) : TcpClient :=
  let closed := closeSocket client.desc client.fd
  let fresh := freshSocket closed socket
  { client with desc := openSocket closed fresh, fd := fresh }

-- What connect has made m_fd_event call.
def connectCallback (client : TcpClient) (attempt eventFd : Nat) (result : ReadyResult) (socket : Option Nat) :
    Option TcpClient :=
  match result with
  | .success => do
      let connected ← setConnected client
      some (invokeDone { connected with desc := deleteEpollEvent connected.desc eventFd } attempt true)
  | .failed inProgress sysError =>
      let replaced := replaceSocket (connectError client inProgress sysError) socket
      some (invokeDone { replaced with desc := deleteEpollEvent replaced.desc eventFd } attempt false)

inductive ClientAction where
  | connect (result : ConnectResult)
  | writable (result : ReadyResult) (socket : Option Nat)
deriving DecidableEq, Repr

-- The descriptor can only become writable while it is registered.
def clientStep (client : TcpClient) : ClientAction → Option TcpClient
  | .connect result => client.connect result
  | .writable result socket =>
      match client.fdEvent with
      | none => some client
      | some eventFd =>
          match (client.desc.fdEvents eventFd).handler .outEvent with
          | none => some client
          | some attempt =>
              if eventFd ∈ client.desc.epollFds then connectCallback client attempt eventFd result socket
              else some client

-- The attempt waits for the socket that it connects to become writable.
def Awaits (client : TcpClient) (attempt : Nat) : Prop :=
  ∃ fd, client.fd = some fd ∧ client.fdEvent = some fd ∧ fd ∈ client.desc.epollFds ∧
    (client.desc.fdEvents fd).requested .outEvent = true ∧ (client.desc.fdEvents fd).handler .outEvent = some attempt

def OneDescriptor (client : TcpClient) : Prop :=
  ∃ fd, client.fd = some fd ∧ client.fdEvent = some fd ∧ client.connection = some (fd, .connected) ∧
    fd ∈ client.desc.openFds

-- No done callback has run twice, each has run or waits for its socket, and
-- what the last one could see was right.
structure ConnectOk (client : TcpClient) : Prop where
  once : (client.invoked.map Prod.fst).Nodup
  kept : ∀ attempt < client.started, attempt ∈ client.invoked.map Prod.fst ∨ Awaits client attempt
  code : ∀ last, client.invoked.getLast? = some last → (client.connectErrorCode = 0 ↔ last.2 = true)
  connected : ∀ last, client.invoked.getLast? = some last → last.2 = true → OneDescriptor client

-- No attempt succeeds after one that has failed, and none is in progress while
-- another waits or on a socket that m_fd_event does not watch.
def ConnectGuard (client : TcpClient) : ClientAction → Prop
  | .connect result =>
      match connectAnswer client result with
      | .success => client.connectErrorCode = 0
      | .inProgress => client.fd = client.fdEvent ∧ ∀ eventFd ∈ client.fdEvent, eventFd ∉ client.desc.epollFds
      | .failed _ => True
  | .writable .success _ => (∃ eventFd ∈ client.fdEvent, eventFd ∈ client.desc.epollFds) → client.connectErrorCode = 0
  | .writable (.failed _ _) _ => True

structure ClientInv (client : TcpClient) : Prop where
  ok : ConnectOk client
  tracked : Tracked client.desc
  opened : ∀ fd ∈ client.fd, fd ∈ client.desc.openFds
  held : client.fd ≠ none → ∃ eventFd state, client.fdEvent = some eventFd ∧ client.connection = some (eventFd, state)
  unreplaced : client.connectErrorCode = 0 → client.fd = client.fdEvent
  waiting : ∀ eventFd ∈ client.fdEvent, eventFd ∈ client.desc.epollFds → client.fd = some eventFd ∧
    ∃ attempt < client.started, (client.desc.fdEvents eventFd).handler .outEvent = some attempt ∧
      attempt ∉ client.invoked.map Prod.fst
  born : ∀ attempt ∈ client.invoked.map Prod.fst, attempt < client.started

theorem fresh_socket_unused (desc : Descriptors) (socket : Option Nat) (fd : Nat) (fresh : freshSocket desc socket = some fd) :
    fd ∉ desc.openFds := by
  obtain ⟨_, unused⟩ := Option.filter_eq_some_iff.mp fresh
  exact of_decide_eq_true unused

theorem new_client_ok (client : TcpClient) (fresh : client.started = 0) (nothing : client.invoked = []) : ConnectOk client := by
  refine ⟨?_, ?_, ?_, ?_⟩
  · rw [nothing]
    exact List.nodup_nil
  · intro attempt early
    rw [fresh] at early
    exact absurd early (Nat.not_lt_zero attempt)
  · intro last found
    rw [nothing] at found
    cases found
  · intro last found
    rw [nothing] at found
    cases found

theorem new_tcp_client_inv (desc : Descriptors) (socket : Option Nat) (tracked : Tracked desc) :
    ClientInv (newTcpClient desc socket) := by
  rw [newTcpClient]
  cases opened : freshSocket desc socket with
  | none =>
      refine ⟨new_client_ok _ rfl rfl, tracked, ?_, fun absent => absurd rfl absent, fun _ => rfl, ?_,
        fun attempt member => absurd member List.not_mem_nil⟩
      · intro fd missing
        cases missing
      · intro eventFd missing
        cases missing
  | some fd =>
      have unused := fresh_socket_unused desc socket fd opened
      refine ⟨new_client_ok _ rfl rfl, ?_, ?_, fun _ => ⟨fd, .notConnected, rfl, rfl⟩, fun _ => rfl, ?_,
        fun attempt member => absurd member List.not_mem_nil⟩
      · exact tracked_transfer desc _ rfl rfl rfl (Finset.subset_insert fd desc.openFds) tracked
      · intro other same
        cases same
        exact Finset.mem_insert_self fd desc.openFds
      · intro eventFd same registered
        cases same
        exact absurd (tracked.alive registered) unused

theorem invoke_done_ok (client : TcpClient) (attempt : Nat) (succeeded : Bool) (once : (client.invoked.map Prod.fst).Nodup)
    (fresh : attempt ∉ client.invoked.map Prod.fst)
    (kept : ∀ other < client.started, other ≠ attempt → other ∈ client.invoked.map Prod.fst ∨ Awaits client other)
    (code : client.connectErrorCode = 0 ↔ succeeded = true) (connected : succeeded = true → OneDescriptor client) :
    ConnectOk (invokeDone client attempt succeeded) := by
  have recorded : (invokeDone client attempt succeeded).invoked.map Prod.fst = client.invoked.map Prod.fst ++ [attempt] :=
    List.map_append
  have lastly (last : Nat × Bool) (found : (invokeDone client attempt succeeded).invoked.getLast? = some last) :
      last = (attempt, succeeded) := by
    rw [invokeDone, List.getLast?_concat] at found
    exact (Option.some.inj found).symm
  refine ⟨?_, ?_, ?_, ?_⟩
  · rw [recorded, List.nodup_append]
    refine ⟨once, List.nodup_singleton attempt, ?_⟩
    intro other member same isSame equal
    rw [List.mem_singleton] at isSame
    exact fresh (isSame ▸ equal ▸ member)
  · intro other early
    rw [recorded, List.mem_append, List.mem_singleton]
    by_cases same : other = attempt
    · exact Or.inl (Or.inr same)
    · exact (kept other early same).imp Or.inl id
  · intro last found
    rw [lastly last found]
    exact code
  · intro last found
    rw [lastly last found]
    exact connected

theorem done_code (client : TcpClient) (attempt : Nat) (succeeded : Bool) (ok : ConnectOk (invokeDone client attempt succeeded)) :
    client.connectErrorCode = 0 ↔ succeeded = true :=
  ok.code (attempt, succeeded) (by rw [invokeDone, List.getLast?_concat])

theorem delete_unwatches (desc : Descriptors) (fd : Nat) (tracked : Tracked (deleteEpollEvent desc fd)) :
    fd ∉ (deleteEpollEvent desc fd).epollFds := by
  rw [← tracked.agree.same, delete_listens]
  exact Finset.notMem_erase fd desc.listenFds

theorem add_listens (desc : Descriptors) (fd : Nat) : fd ∈ (addEpollEvent desc fd).listenFds := by
  rw [addEpollEvent]
  exact Finset.mem_insert_self fd _

theorem listen_on_event (desc : Descriptors) (attempt eventFd : Nat) :
    (listenOn desc attempt eventFd .outEvent).fdEvents eventFd =
      (desc.fdEvents eventFd).listen .outEvent attempt none := by
  have registers := add_epoll_event_registers
    (modifyFdEvent desc eventFd fun event => event.listen .outEvent attempt none) eventFd
  exact (congrFun registers.events eventFd).trans (Function.update_self eventFd _ desc.fdEvents)

theorem listen_on_heard (desc : Descriptors) (attempt eventFd : Nat) :
    ((listenOn desc attempt eventFd .outEvent).fdEvents eventFd).requested .outEvent = true ∧
      ((listenOn desc attempt eventFd .outEvent).fdEvents eventFd).handler .outEvent = some attempt := by
  rw [listen_on_event]
  exact FdEvent.listen_same (desc.fdEvents eventFd) .outEvent attempt none out_event_data

theorem listen_on_spec (desc : Descriptors) (attempt eventFd : Nat) (tracked : Tracked desc) (opened : eventFd ∈ desc.openFds) :
    Tracked (listenOn desc attempt eventFd .outEvent) ∧
      eventFd ∈ (listenOn desc attempt eventFd .outEvent).epollFds ∧
      (listenOn desc attempt eventFd .outEvent).openFds = desc.openFds := by
  have after := (listen_on_decided desc attempt eventFd .outEvent tracked).1 opened
  have registers := add_epoll_event_registers
    (modifyFdEvent desc eventFd fun event => event.listen .outEvent attempt none) eventFd
  refine ⟨after, ?_, registers.opens⟩
  rw [← after.agree.same]
  exact add_listens _ eventFd

theorem started_not_invoked (client : TcpClient) (inv : ClientInv client) : client.started ∉ client.invoked.map Prod.fst :=
  fun member => absurd (inv.born client.started member) (Nat.lt_irrefl client.started)

theorem mem_invoke_done (client : TcpClient) (attempt other : Nat) (succeeded : Bool) :
    other ∈ (invokeDone client attempt succeeded).invoked.map Prod.fst ↔
      other ∈ client.invoked.map Prod.fst ∨ other = attempt := by
  rw [invokeDone, List.map_append, List.mem_append, List.map_cons, List.map_nil, List.mem_singleton]

-- A connect that is answered at once leaves the watch on the descriptor alone.
theorem immediate_done_inv (client middle : TcpClient) (succeeded : Bool) (inv : ClientInv client)
    (sameDesc : middle.desc = client.desc) (sameFd : middle.fd = client.fd) (sameEvent : middle.fdEvent = client.fdEvent)
    (counted : middle.started = client.started + 1) (sameInvoked : middle.invoked = client.invoked)
    (held : middle.fd ≠ none → ∃ eventFd state, middle.fdEvent = some eventFd ∧ middle.connection = some (eventFd, state))
    (code : middle.connectErrorCode = 0 ↔ succeeded = true) (unreplaced : succeeded = true → client.fd = client.fdEvent)
    (connected : succeeded = true → OneDescriptor middle) : ClientInv (invokeDone middle client.started succeeded) := by
  have fresh := started_not_invoked client inv
  refine ⟨invoke_done_ok middle client.started succeeded ?_ ?_ ?_ code connected, ?_, ?_, held, ?_, ?_, ?_⟩
  · rw [sameInvoked]
    exact inv.ok.once
  · rw [sameInvoked]
    exact fresh
  · intro other early different
    rw [sameInvoked, Awaits, sameFd, sameEvent, sameDesc]
    exact inv.ok.kept other (by omega)
  · exact sameDesc.symm ▸ inv.tracked
  · intro fd found
    rw [invokeDone, sameDesc]
    exact inv.opened fd (sameFd ▸ found)
  · intro clean
    have fine := unreplaced (code.mp clean)
    simp only [invokeDone]
    rw [sameFd, sameEvent, fine]
  · intro eventFd found registered
    simp only [invokeDone, sameEvent, sameDesc] at found registered
    obtain ⟨same, attempt, early, handler, waits⟩ := inv.waiting eventFd found registered
    refine ⟨sameFd.trans same, attempt, ?_, ?_, ?_⟩
    · simp only [invokeDone, counted]
      omega
    · simpa only [invokeDone, sameDesc] using handler
    · rw [mem_invoke_done, sameInvoked]
      rintro (member | rfl)
      · exact waits member
      · exact absurd early (Nat.lt_irrefl client.started)
  · intro other member
    rw [mem_invoke_done, sameInvoked] at member
    simp only [invokeDone, counted]
    rcases member with old | rfl
    · exact Nat.lt_succ_of_lt (inv.born other old)
    · exact Nat.lt_succ_self client.started

-- After the callback nothing is watched, and nobody else has been waiting.
theorem callback_done_inv (client middle : TcpClient) (attempt eventFd : Nat) (succeeded : Bool) (inv : ClientInv client)
    (watched : client.fdEvent = some eventFd) (registered : eventFd ∈ client.desc.epollFds)
    (handler : (client.desc.fdEvents eventFd).handler .outEvent = some attempt)
    (tracked : Tracked middle.desc) (unwatched : eventFd ∉ middle.desc.epollFds)
    (opened : ∀ fd ∈ middle.fd, fd ∈ middle.desc.openFds)
    (sameEvent : middle.fdEvent = client.fdEvent) (sameStarted : middle.started = client.started)
    (sameInvoked : middle.invoked = client.invoked)
    (held : middle.fd ≠ none → ∃ eventFd state, middle.fdEvent = some eventFd ∧ middle.connection = some (eventFd, state))
    (code : middle.connectErrorCode = 0 ↔ succeeded = true) (unreplaced : succeeded = true → middle.fd = middle.fdEvent)
    (connected : succeeded = true → OneDescriptor middle) : ClientInv (invokeDone middle attempt succeeded) := by
  obtain ⟨_, own, early, sameHandler, waits⟩ := inv.waiting eventFd watched registered
  obtain rfl : attempt = own := Option.some.inj (handler.symm.trans sameHandler)
  have others (other : Nat) (before : other < client.started) (different : other ≠ attempt) :
      other ∈ client.invoked.map Prod.fst := by
    rcases inv.ok.kept other before with member | ⟨fd, _, event, _, _, theirs⟩
    · exact member
    · obtain rfl : eventFd = fd := Option.some.inj (watched.symm.trans event)
      exact absurd (Option.some.inj (theirs.symm.trans handler)) different
  refine ⟨invoke_done_ok middle attempt succeeded ?_ ?_ ?_ code connected, tracked, opened, held,
    fun clean => unreplaced (code.mp clean), ?_, ?_⟩
  · rw [sameInvoked]
    exact inv.ok.once
  · rw [sameInvoked]
    exact waits
  · intro other before different
    rw [sameInvoked]
    exact Or.inl (others other (sameStarted ▸ before) different)
  · intro fd found inEpoll
    simp only [invokeDone, sameEvent] at found inEpoll
    obtain rfl : eventFd = fd := Option.some.inj (watched.symm.trans found)
    exact absurd inEpoll unwatched
  · intro other member
    rw [mem_invoke_done, sameInvoked] at member
    simp only [invokeDone, sameStarted]
    rcases member with old | rfl
    · exact inv.born other old
    · exact early

def watching (client : TcpClient) (eventFd : Nat) : TcpClient :=
  { client with started := client.started + 1, desc := listenOn client.desc client.started eventFd .outEvent }

theorem watching_inv (client : TcpClient) (eventFd : Nat) (inv : ClientInv client) (event : client.fdEvent = some eventFd)
    (same : client.fd = some eventFd) (unwatched : eventFd ∉ client.desc.epollFds) : ClientInv (watching client eventFd) := by
  obtain ⟨requested, handler⟩ := listen_on_heard client.desc client.started eventFd
  obtain ⟨tracked, registered, sameOpen⟩ :=
    listen_on_spec client.desc client.started eventFd inv.tracked (inv.opened eventFd same)
  refine ⟨⟨inv.ok.once, ?_, inv.ok.code, ?_⟩, tracked, ?_, inv.held, inv.unreplaced, ?_, ?_⟩
  · intro other early
    rcases Nat.lt_succ_iff_lt_or_eq.mp early with before | rfl
    · rcases inv.ok.kept other before with member | ⟨fd, _, otherEvent, inEpoll, _⟩
      · exact Or.inl member
      · obtain rfl : eventFd = fd := Option.some.inj (event.symm.trans otherEvent)
        exact absurd inEpoll unwatched
    · exact Or.inr ⟨eventFd, same, event, registered, requested, handler⟩
  · intro last found succeeded
    obtain ⟨fd, isFd, isEvent, isConnection, isOpen⟩ := inv.ok.connected last found succeeded
    exact ⟨fd, isFd, isEvent, isConnection, by simpa only [watching, sameOpen] using isOpen⟩
  · intro fd found
    simpa only [watching, sameOpen] using inv.opened fd found
  · intro fd found _
    obtain rfl : eventFd = fd := Option.some.inj (event.symm.trans found)
    exact ⟨same, client.started, Nat.lt_succ_self _, handler, started_not_invoked client inv⟩
  · exact fun other member => Nat.lt_succ_of_lt (inv.born other member)

-- An older attempt on the same FdEvent would have lost its callback.
theorem watching_forced (client : TcpClient) (eventFd : Nat) (inv : ClientInv client) (event : client.fdEvent = some eventFd)
    (ok : ConnectOk (watching client eventFd)) :
    client.fd = client.fdEvent ∧ ∀ fd ∈ client.fdEvent, fd ∉ client.desc.epollFds := by
  obtain ⟨_, handler⟩ := listen_on_heard client.desc client.started eventFd
  constructor
  · rcases ok.kept client.started (Nat.lt_succ_self _) with member | ⟨fd, isFd, isEvent, _⟩
    · exact absurd member (started_not_invoked client inv)
    · exact isFd.trans isEvent.symm
  · intro fd found inEpoll
    obtain rfl : eventFd = fd := Option.some.inj (event.symm.trans found)
    obtain ⟨_, attempt, early, _, waits⟩ := inv.waiting eventFd event inEpoll
    rcases ok.kept attempt (Nat.lt_succ_of_lt early) with member | ⟨other, _, isEvent, _, _, theirs⟩
    · exact waits member
    · obtain rfl : eventFd = other := Option.some.inj (event.symm.trans isEvent)
      have same := Option.some.inj (handler.symm.trans theirs)
      omega

theorem client_connect_decided (client : TcpClient) (result : ConnectResult) (inv : ClientInv client) :
    ∃ later, client.connect result = some later ∧ (ConnectGuard client (.connect result) → ClientInv later) ∧
      (ConnectOk later → ConnectGuard client (.connect result)) := by
  have present (answer : ConnectResult) (answered : connectAnswer client result = answer)
      (notRefused : ∀ sysError, answer ≠ .failed sysError) : client.fd ≠ none := by
    intro missing
    rw [connectAnswer, if_pos missing] at answered
    exact notRefused _ answered.symm
  rw [TcpClient.connect, ConnectGuard]
  cases answered : connectAnswer client result with
  | success =>
      obtain ⟨eventFd, state, event, connection⟩ := inv.held (present _ answered fun _ wrong => by cases wrong)
      simp only [setConnected, connection, Option.map_some, Option.bind_eq_bind, Option.bind_some]
      refine ⟨_, rfl, ?_, fun ok => (done_code _ client.started true ok).mpr rfl⟩
      intro clean
      have same := inv.unreplaced clean
      refine immediate_done_inv client _ true inv rfl rfl rfl rfl rfl (fun _ => ⟨eventFd, .connected, event, rfl⟩)
        ⟨fun _ => rfl, fun _ => clean⟩ (fun _ => same) ?_
      intro _
      exact ⟨eventFd, same.trans event, event, rfl, inv.opened eventFd (same.trans event)⟩
  | inProgress =>
      obtain ⟨eventFd, state, event, connection⟩ := inv.held (present _ answered fun _ wrong => by cases wrong)
      refine ⟨watching client eventFd, by simp only [event, Option.bind_eq_bind, Option.bind_some, watching], ?_,
        watching_forced client eventFd inv event⟩
      rintro ⟨same, unwatched⟩
      exact watching_inv client eventFd inv event (same.trans event) (unwatched eventFd event)
  | failed sysError =>
      refine ⟨_, rfl, fun _ => ?_, fun _ => trivial⟩
      refine immediate_done_inv client _ false inv rfl rfl rfl rfl rfl inv.held ⟨?_, ?_⟩ ?_ ?_
      · intro clean
        exact absurd clean (by decide : ERROR_FAILED_CONNECT ≠ 0)
      · intro wrong
        cases wrong
      · intro wrong
        cases wrong
      · intro wrong
        cases wrong

theorem connect_error_spec (client : TcpClient) (inProgress : Bool) (sysError : Bytes) :
    ∃ code message, connectError client inProgress sysError =
      { client with connectErrorCode := code, connectErrorMsg := message } ∧ code ≠ 0 := by
  cases inProgress with
  | true => exact ⟨ERROR_PEER_CLOSED, _, rfl, by decide⟩
  | false => exact ⟨ERROR_FAILED_CONNECT, _, rfl, by decide⟩

theorem open_socket_keeps (desc : Descriptors) (socket : Option Nat) : (openSocket desc socket).listenFds = desc.listenFds ∧
    (openSocket desc socket).epollFds = desc.epollFds ∧ (openSocket desc socket).addErrors = desc.addErrors ∧
    desc.openFds ⊆ (openSocket desc socket).openFds ∧ ∀ fd ∈ socket, fd ∈ (openSocket desc socket).openFds := by
  cases socket with
  | none =>
      refine ⟨rfl, rfl, rfl, Finset.Subset.refl _, ?_⟩
      intro fd missing
      cases missing
  | some fd =>
      refine ⟨rfl, rfl, rfl, Finset.subset_insert fd desc.openFds, ?_⟩
      intro other same
      cases same
      exact Finset.mem_insert_self fd desc.openFds

theorem callback_decided (client : TcpClient) (attempt eventFd : Nat) (result : ReadyResult) (socket : Option Nat)
    (inv : ClientInv client) (event : client.fdEvent = some eventFd) (registered : eventFd ∈ client.desc.epollFds)
    (handler : (client.desc.fdEvents eventFd).handler .outEvent = some attempt) :
    ∃ later, connectCallback client attempt eventFd result socket = some later ∧
      (ConnectGuard client (.writable result socket) → ClientInv later) ∧
      (ConnectOk later → ConnectGuard client (.writable result socket)) := by
  obtain ⟨same, _⟩ := inv.waiting eventFd event registered
  have present : client.fd ≠ none := by
    rw [same]
    exact Option.some_ne_none eventFd
  obtain ⟨heldFd, state, heldEvent, connection⟩ := inv.held present
  obtain rfl : eventFd = heldFd := Option.some.inj (event.symm.trans heldEvent)
  cases result with
  | success =>
      have tracked := delete_epoll_event_tracked client.desc eventFd inv.tracked
      have sameOpen := (delete_epoll_event_registers client.desc eventFd).opens
      have opened (fd : Nat) (found : client.fd = some fd) : fd ∈ (deleteEpollEvent client.desc eventFd).openFds := by
        rw [sameOpen]
        exact inv.opened fd found
      simp only [connectCallback, setConnected, connection, Option.map_some, Option.bind_eq_bind, Option.bind_some]
      refine ⟨_, rfl, ?_, fun ok _ => (done_code _ attempt true ok).mpr rfl⟩
      intro clean
      have fine := clean ⟨eventFd, event, registered⟩
      refine callback_done_inv client _ attempt eventFd true inv event registered handler tracked
        (delete_unwatches client.desc eventFd tracked) opened rfl rfl rfl (fun _ => ⟨eventFd, .connected, event, rfl⟩)
        ⟨fun _ => rfl, fun _ => fine⟩ (fun _ => same.trans event.symm) ?_
      intro _
      exact ⟨eventFd, same, event, rfl, opened eventFd same⟩
  | failed inProgress sysError =>
      obtain ⟨code, message, errored, nonzero⟩ := connect_error_spec client inProgress sysError
      obtain ⟨listens, registers, errors, opens, fresh⟩ :=
        open_socket_keeps (closeFd client.desc eventFd) (freshSocket (closeFd client.desc eventFd) socket)
      have tracked := replaced_tracked client.desc _ eventFd inv.tracked registered listens registers errors opens
      simp only [connectCallback, replaceSocket, errored, same, closeSocket]
      refine ⟨_, rfl, fun _ => ?_, fun _ => trivial⟩
      refine callback_done_inv client _ attempt eventFd false inv event registered handler tracked
        (delete_unwatches _ eventFd tracked) ?_ rfl rfl rfl (fun _ => ⟨eventFd, state, event, connection⟩)
        ⟨fun clean => absurd clean nonzero, ?_⟩ ?_ ?_
      · intro fd found
        simp only [(delete_epoll_event_registers _ eventFd).opens]
        exact fresh fd found
      · intro wrong
        cases wrong
      · intro wrong
        cases wrong
      · intro wrong
        cases wrong

theorem client_step_decided (client : TcpClient) (action : ClientAction) (inv : ClientInv client) :
    ∃ later, clientStep client action = some later ∧ (ConnectGuard client action → ClientInv later) ∧
      (ConnectOk later → ConnectGuard client action) := by
  cases action with
  | connect result => exact client_connect_decided client result inv
  | writable result socket =>
      have idle (unwatched : ∀ eventFd ∈ client.fdEvent, eventFd ∉ client.desc.epollFds) :
          ConnectGuard client (.writable result socket) := by
        cases result with
        | success =>
            rintro ⟨eventFd, event, registered⟩
            exact absurd registered (unwatched eventFd event)
        | failed inProgress sysError => trivial
      rw [clientStep]
      cases event : client.fdEvent with
      | none =>
          refine ⟨client, rfl, fun _ => inv, fun _ => idle ?_⟩
          intro eventFd found
          rw [event] at found
          cases found
      | some eventFd =>
          by_cases registered : eventFd ∈ client.desc.epollFds
          · obtain ⟨_, attempt, _, handler, _⟩ := inv.waiting eventFd event registered
            simp only [handler, if_pos registered]
            exact callback_decided client attempt eventFd result socket inv event registered handler
          · have unwatched (fd : Nat) (found : client.fdEvent = some fd) : fd ∉ client.desc.epollFds := by
              obtain rfl : eventFd = fd := Option.some.inj (event.symm.trans found)
              exact registered
            refine ⟨client, ?_, fun _ => inv, fun _ => idle unwatched⟩
            simp only [if_neg registered]
            split <;> rfl

-- A process whose loop has registered its own descriptors.
def processDescriptors (loopFds others : Finset Nat) : Descriptors :=
  { loopDescriptors loopFds with openFds := loopFds ∪ others }

theorem process_tracked (loopFds others : Finset Nat) : Tracked (processDescriptors loopFds others) :=
  ⟨⟨rfl, rfl⟩, Finset.subset_union_left⟩

theorem connects_ok_iff (loopFds others : Finset Nat) (socket : Option Nat) (actions : List ClientAction) :
    Always clientStep ConnectOk (newTcpClient (processDescriptors loopFds others) socket) actions ↔
      Guarded clientStep ConnectGuard (newTcpClient (processDescriptors loopFds others) socket) actions := by
  have initial := new_tcp_client_inv (processDescriptors loopFds others) socket (process_tracked loopFds others)
  exact always_iff_decided clientStep ConnectGuard ClientInv ConnectOk (fun _ inv => inv.ok)
    client_step_decided _ actions initial

-- The peer refuses, the socket is replaced, and the next attempt succeeds.
def refusedFirst (socket : Nat) : List ClientAction :=
  [.connect .inProgress, .writable (.failed false (text "Connection refused")) (some socket), .connect .success]

-- The second done callback reads an error, and with another number for the new
-- socket the connection is left with a closed descriptor.
theorem reconnect_keeps_error :
    ¬ Always clientStep ConnectOk (newTcpClient (processDescriptors {3} {0, 1, 2}) (some 5)) (refusedFirst 5) ∧
      ¬ Always clientStep ConnectOk (newTcpClient (processDescriptors {3} {0, 1, 2}) (some 5)) (refusedFirst 6) := by
  constructor
  · intro always
    obtain ⟨later, reached, ok⟩ := always_run _ _ _ _ always
    cases reached
    exact absurd ((ok.code (1, true) rfl).mpr rfl) (by decide)
  · intro always
    obtain ⟨later, reached, ok⟩ := always_run _ _ _ _ always
    cases reached
    obtain ⟨fd, isFd, isEvent, _⟩ := ok.connected (1, true) rfl rfl
    exact absurd (isFd.trans isEvent.symm) (by decide)

end Rocket
