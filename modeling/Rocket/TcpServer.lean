import Rocket.TcpConnection
import Rocket.Lib.Family

set_option autoImplicit false

namespace Rocket

-- What the IO loop has queued with the connection's this pointer.
inductive ConnectionTask where
  | addToEpoll
  | onRead
  | onWrite
deriving DecidableEq, Repr

inductive AcceptStage where
  | absent
  | constructed
  | connected
  | inserted
deriving DecidableEq, Repr

-- inClient says whether m_client owns the connection, and closures counts the
-- reply closures that hold its pointer and have not run.
structure ServerConnection where
  stage : AcceptStage := .absent
  state : TcpState := .notConnected
  inClient : Bool := false
  registered : Bool := false
  tasks : List ConnectionTask := []
  closures : Nat := 0
deriving DecidableEq, Repr

def ServerConnection.addEpollEvent (conn : ServerConnection) (inLoopThread : Bool) : ServerConnection :=
  if inLoopThread = true then { conn with registered := true } else { conn with tasks := conn.tasks ++ [.addToEpoll] }

def ServerConnection.setState (conn : ServerConnection) (_state : TcpState) : ServerConnection :=
  { conn with state := .connected }

def ServerConnection.clear (conn : ServerConnection) : ServerConnection :=
  if conn.state = .closed then conn else { conn with registered := false, state := .closed }

def ServerConnection.shutdown (conn : ServerConnection) : ServerConnection :=
  if conn.state = .closed ∨ conn.state = .notConnected then conn else { conn with state := .halfClosing }

def ServerConnection.listenRead (conn : ServerConnection) (inLoopThread : Bool) : ServerConnection :=
  conn.addEpollEvent inLoopThread

def ServerConnection.listenWrite (conn : ServerConnection) (inLoopThread : Bool) : ServerConnection :=
  conn.addEpollEvent inLoopThread

def ServerConnection.reply (conn : ServerConnection) (inLoopThread : Bool) : ServerConnection :=
  conn.listenWrite inLoopThread

-- Some of the requests are answered before CallMethod returns, some later.
structure TaskInput where
  isClose : Bool := false
  answered : Bool := false
  deferred : Nat := 0
  isWriteAll : Bool := true
deriving DecidableEq, Repr

def ServerConnection.execute (conn : ServerConnection) (input : TaskInput) : ServerConnection :=
  let dispatched := { conn with closures := conn.closures + input.deferred }
  if input.answered = true then dispatched.reply true else dispatched

def ServerConnection.onRead (conn : ServerConnection) (input : TaskInput) : ServerConnection :=
  if conn.state ≠ .connected then conn.clear
  else if input.isClose = true then conn.clear
  else conn.execute input

def ServerConnection.onWrite (conn : ServerConnection) (input : TaskInput) : ServerConnection :=
  if conn.state ≠ .connected then conn.clear
  else if input.isWriteAll = true then conn.addEpollEvent true
  else conn

def ServerConnection.runTask (conn : ServerConnection) (input : TaskInput) : ServerConnection :=
  match conn.tasks with
  | [] => conn
  | .addToEpoll :: rest => ServerConnection.addEpollEvent { conn with tasks := rest } true
  | .onRead :: rest => ServerConnection.onRead { conn with tasks := rest } input
  | .onWrite :: rest => ServerConnection.onWrite { conn with tasks := rest } input

def ServerConnection.poll (conn : ServerConnection) (readable writable : Bool) : ServerConnection :=
  if conn.registered = true then
    { conn with
      tasks := conn.tasks ++ (if readable = true then [.onRead] else []) ++ (if writable = true then [.onWrite] else []) }
  else conn

def ServerConnection.runClosure (conn : ServerConnection) (inLoopThread : Bool) : ServerConnection :=
  if conn.closures = 0 then conn else ServerConnection.reply { conn with closures := conn.closures - 1 } inLoopThread

def ServerConnection.accept (conn : ServerConnection) : ServerConnection :=
  match conn.stage with
  | .absent => ServerConnection.listenRead { conn with stage := .constructed } false
  | .constructed => ServerConnection.setState { conn with stage := .connected } .connected
  | .connected => { conn with stage := .inserted, inClient := true }
  | .inserted => conn

def ServerConnection.clearClientTimer (conn : ServerConnection) : ServerConnection :=
  if conn.inClient = true ∧ conn.state = .closed then { conn with inClient := false } else conn

inductive ConnectionAction where
  | accept
  | poll (readable writable : Bool)
  | runTask (input : TaskInput)
  | runClosure (inLoopThread : Bool)
  | clearClientTimer
  | shutdown
  | setState (state : TcpState)
deriving DecidableEq, Repr

-- Nobody can call a connection that is not constructed yet.
def connectionStep (conn : ServerConnection) : ConnectionAction → Option ServerConnection
  | .accept => some conn.accept
  | .poll readable writable => some (conn.poll readable writable)
  | .runTask input => some (conn.runTask input)
  | .runClosure inLoopThread => some (conn.runClosure inLoopThread)
  | .clearClientTimer => some conn.clearClientTimer
  | .shutdown => if conn.stage = .absent then some conn else some conn.shutdown
  | .setState state => if conn.stage = .absent then some conn else some (conn.setState state)

end Rocket
