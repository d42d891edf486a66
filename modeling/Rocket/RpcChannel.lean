import Mathlib.Logic.Function.Basic
import Rocket.RpcController
import Rocket.TinyPBProtocol
import Rocket.Lib.Trace

set_option autoImplicit false

namespace Rocket

open Word32 Trace

inductive CallStage where
  | idle
  | connecting
  | writing
  | reading
  | ended
deriving DecidableEq, Repr

-- Init and CallMethod each get a controller, as a rule the same one, so the
-- controllers are cells. closureRuns and outcome are never read.
structure Channel (ρ : Type) where
  isInit : Bool
  remoteAddr : Bool
  closure : Bool
  controllers : Nat → RpcController
  own : Nat
  argument : Nat
  response : ρ
  connectErrorCode : Int := 0
  connectErrorMsg : Bytes := []
  reqProtocol : TinyPBProtocol := {}
  stage : CallStage := .idle
  timerArmed : Bool := false
  closureRuns : Nat := 0
  outcome : Bool := false

variable {ρ : Type}

def initialised (remoteAddr : Bool) (controllers : Nat → RpcController) (own argument : Nat) (response : ρ) : Channel ρ :=
  { isInit := true, remoteAddr := remoteAddr, closure := true, controllers := controllers, own := own,
    argument := argument, response := response }

def modifyController (ch : Channel ρ) (ref : Nat) (change : RpcController → RpcController) : Channel ρ :=
  { ch with controllers := Function.update ch.controllers ref (change (ch.controllers ref)) }

def callBack (ch : Channel ρ) : Option (Channel ρ) :=
  if ch.isInit = false then none
  else if (ch.controllers ch.own).isFinished = true then some ch
  else if ch.closure = true then
    some (modifyController { ch with closureRuns := ch.closureRuns + 1 } ch.own (setFinished true))
  else some ch

def failCall (ch : Channel ρ) (ref : Nat) (errorCode : Int) (errorInfo : Bytes) : Option (Channel ρ) :=
  callBack { modifyController ch ref (setError errorCode errorInfo) with outcome := true }

def connectDone (ch : Channel ρ) : Option (Channel ρ) :=
  if ch.connectErrorCode ≠ 0 then
    failCall { ch with stage := .ended } ch.own ch.connectErrorCode ch.connectErrorMsg
  else some { ch with stage := .writing }

inductive ConnectResult where
  | success
  | inProgress
  | failed (sysError : Bytes)
deriving DecidableEq, Repr

def connect (ch : Channel ρ) : ConnectResult → Option (Channel ρ)
  | .success => connectDone ch
  | .inProgress => some { ch with stage := .connecting }
  | .failed sysError =>
      connectDone { ch with
        connectErrorCode := ERROR_FAILED_CONNECT
        connectErrorMsg := text "connect error, sys error = " ++ sysError }

-- present says whether request, response and done are all non-null.
structure CallArguments where
  present : Bool
  freshMsgId : Bytes
  methodName : Bytes
  serialized : Bool
  pbBody : Bytes
  connected : ConnectResult
deriving DecidableEq, Repr

def callMethod (ch : Channel ρ) (arguments : CallArguments) : Option (Channel ρ) :=
  if arguments.present = false then
    failCall { ch with stage := .ended } ch.argument ERROR_RPC_CHANNEL_INIT_FAILED
      (text "controller or request or response NULL")
  else if ch.remoteAddr = false then
    failCall { ch with stage := .ended } ch.argument ERROR_RPC_CHANNEL_INIT_FAILED (text "failed get peer addr")
  else
    let fresh := { ch with connectErrorCode := 0, connectErrorMsg := [] }
    let msgId := (fresh.controllers fresh.argument).msgId
    let named := if msgId = [] then modifyController fresh fresh.argument (setMsgId arguments.freshMsgId) else fresh
    let request := setMethodName { msgId := (named.controllers named.argument).msgId } arguments.methodName
    if named.isInit = false then
      failCall { named with stage := .ended } named.argument ERROR_RPC_CHANNEL_NOT_INIT (text "RpcChannel not inited")
    else if arguments.serialized = false then
      failCall { named with stage := .ended } named.argument ERROR_FAILED_SERIALIZE (text "failed to serialize request")
    else
      connect { named with reqProtocol := { request with pbBody := arguments.pbBody }, timerArmed := true }
        arguments.connected

inductive ReadyResult where
  | success
  | failed (inProgress : Bool) (sysError : Bytes)
deriving DecidableEq, Repr

def connectReady (ch : Channel ρ) : ReadyResult → Option (Channel ρ)
  | .success => connectDone ch
  | .failed true sysError =>
      connectDone { ch with
        connectErrorCode := ERROR_PEER_CLOSED
        connectErrorMsg := text "connect refused, sys error = " ++ sysError }
  | .failed false sysError =>
      connectDone { ch with
        connectErrorCode := ERROR_FAILED_CONNECT
        connectErrorMsg := text "connect unknown error, sys error = " ++ sysError }

def timeoutText (controller : RpcController) : Bytes :=
  text "rpc call timeout " ++ text (toString controller.timeout) ++ text "ms"

def timeoutCallback (ch : Channel ρ) : Option (Channel ρ) :=
  if (ch.controllers ch.argument).isFinished = true then some { ch with outcome := true }
  else
    let canceled := modifyController ch ch.argument startCancel
    failCall canceled canceled.argument ERROR_RPC_CALL_TIMEOUT (timeoutText (canceled.controllers canceled.argument))

section Response

-- Whether ParseFromString succeeds, and the content of the message afterwards.
variable (parseFromString : Bytes → Bool × ρ)

def responseCallback (ch : Channel ρ) (rspProtocol : TinyPBProtocol) : Option (Channel ρ) :=
  let (parsed, content) := parseFromString rspProtocol.pbBody
  let handled := { ch with response := content, outcome := true }
  if parsed = false then
    failCall handled handled.own ERROR_FAILED_DESERIALIZE (text "failed deserialize response")
  else if rspProtocol.errCode ≠ 0 then failCall handled handled.own rspProtocol.errCode rspProtocol.errInfo
  else callBack handled

inductive CallEvent where
  | call (arguments : CallArguments)
  | connectReady (result : ReadyResult)
  | written
  | response (rspProtocol : TinyPBProtocol)
  | timeout
deriving DecidableEq, Repr

-- An event that nothing is registered for leaves the call alone.
def callStep (ch : Channel ρ) : CallEvent → Option (Channel ρ)
  | .call arguments => if ch.stage = .idle then callMethod ch arguments else some ch
  | .connectReady result => if ch.stage = .connecting then connectReady ch result else some ch
  | .written => if ch.stage = .writing then some { ch with stage := .reading } else some ch
  | .response rspProtocol =>
      if ch.stage = .reading ∧ rspProtocol.msgId = ch.reqProtocol.msgId then
        responseCallback parseFromString { ch with stage := .ended } rspProtocol
      else some ch
  | .timeout => if ch.timerArmed = true then timeoutCallback { ch with timerArmed := false } else some ch

end Response

end Rocket
