import Mathlib.Logic.Function.Basic
import Rocket.RpcChannel
import Rocket.RpcDispatcher
import Rocket.Lib.Trace

set_option autoImplicit false

namespace Rocket

open Word32 Trace

-- The one static instance of the process. Interfaces have the number of the
-- request they handle.
structure RunTime where
  msgId : Bytes := []
  methodName : Bytes := []
  rpcInterface : Option Nat := none
deriving DecidableEq, Repr

inductive HandlingStage where
  | received
  | msgIdStored
  | methodNameStored
  | inRun
  | runEnded
deriving DecidableEq, Repr

-- One request in the server: outstanding counts its nested calls whose
-- closure has not run, callbacks the closures that are running.
structure RequestHandling where
  stage : HandlingStage := .received
  outstanding : Nat := 0
  callbacks : Nat := 0
deriving DecidableEq, Repr

structure NestedRequest where
  request : Nat
  controllerMsgId : Bytes
  msgId : Bytes
deriving DecidableEq, Repr

-- nested and lastStored record the requests that were issued and the request
-- whose msg_id was stored last.
structure ServerProcess where
  runTime : RunTime := {}
  handlings : Nat → RequestHandling := fun _ => {}
  nested : List NestedRequest := []
  lastStored : Option Nat := none

-- What a nested CallMethod brings along. generated is what
-- MsgUtil::generateMsgId would return.
structure NestedCall where
  controller : RpcController
  generated : Bytes
  methodName : Bytes
  pbBody : Bytes
  connected : ConnectResult
deriving DecidableEq, Repr

def runTimeMsgId (runTime : RunTime) (generated : Bytes) : Bytes :=
  if runTime.msgId ≠ [] then runTime.msgId else generated

def nestedChannel (runTime : RunTime) (call : NestedCall) : Option (Channel Unit) :=
  callMethod (initialised true (fun _ => call.controller) 0 0 ())
    ⟨true, runTimeMsgId runTime call.generated, call.methodName, true, call.pbBody, call.connected⟩

inductive ProcessAction where
  | setMsgId (request : Nat)
  | setMethodName (request : Nat)
  | callRpcInterface (request : Nat)
  | nestedCall (request : Nat) (call : NestedCall)
  | endRun (request : Nat)
  | runClosure (request : Nat)
  | endClosure (request : Nat)
deriving DecidableEq, Repr

def ServerProcess.setHandling (server : ServerProcess) (request : Nat) (handling : RequestHandling) : ServerProcess :=
  { server with handlings := Function.update server.handlings request handling }

def mayCall (handling : RequestHandling) : Prop := handling.stage = .inRun ∨ 0 < handling.callbacks

instance (handling : RequestHandling) : Decidable (mayCall handling) :=
  inferInstanceAs (Decidable (handling.stage = .inRun ∨ 0 < handling.callbacks))

section Requests

-- The requests that reach dispatch, by number.
variable (requests : Nat → TinyPBProtocol)

def storeMsgId (server : ServerProcess) (request : Nat) : ServerProcess :=
  { server.setHandling request { server.handlings request with stage := .msgIdStored } with
    runTime := { server.runTime with msgId := (requests request).msgId }, lastStored := some request }

-- The second half of the full name. A request without one never gets here.
def methodNameOf (request : TinyPBProtocol) : Bytes :=
  match parseServiceFullName request.methodName with
  | none => []
  | some (_, methodName) => methodName

def storeMethodName (server : ServerProcess) (request : Nat) : ServerProcess :=
  { server.setHandling request { server.handlings request with stage := .methodNameStored } with
    runTime := { server.runTime with methodName := methodNameOf (requests request) } }

def issueNested (server : ServerProcess) (request : Nat) (call : NestedCall) : Option ServerProcess :=
  (nestedChannel server.runTime call).map fun channel =>
    { server.setHandling request
        { server.handlings request with outstanding := (server.handlings request).outstanding + 1 } with
      nested := server.nested ++ [⟨request, call.controller.msgId, channel.reqProtocol.msgId⟩] }

def processStep (server : ServerProcess) : ProcessAction → Option ServerProcess
  | .setMsgId request =>
      if (server.handlings request).stage = .received then some (storeMsgId requests server request) else some server
  | .setMethodName request =>
      if (server.handlings request).stage = .msgIdStored then some (storeMethodName requests server request)
      else some server
  | .callRpcInterface request =>
      if (server.handlings request).stage = .methodNameStored then
        some { server.setHandling request { server.handlings request with stage := .inRun } with
          runTime := { server.runTime with rpcInterface := some request } }
      else some server
  | .nestedCall request call =>
      if mayCall (server.handlings request) then issueNested server request call else some server
  | .endRun request =>
      if (server.handlings request).stage = .inRun then
        some (server.setHandling request { server.handlings request with stage := .runEnded })
      else some server
  | .runClosure request =>
      let handling := server.handlings request
      if 0 < handling.outstanding then
        some { server.setHandling request
            { handling with outstanding := handling.outstanding - 1, callbacks := handling.callbacks + 1 } with
          runTime := { server.runTime with rpcInterface := some request } }
      else some server
  | .endClosure request =>
      let handling := server.handlings request
      if 0 < handling.callbacks then
        some (server.setHandling request { handling with callbacks := handling.callbacks - 1 })
      else some server

def PassedThrough (server : ServerProcess) : Prop :=
  ∀ sent ∈ server.nested, sent.controllerMsgId = [] → sent.msgId = (requests sent.request).msgId

instance (server : ServerProcess) : Decidable (PassedThrough requests server) :=
  inferInstanceAs (Decidable (∀ sent ∈ server.nested,
    sent.controllerMsgId = [] → sent.msgId = (requests sent.request).msgId))

def lastMsgId (server : ServerProcess) : Bytes :=
  match server.lastStored with
  | none => []
  | some request => (requests request).msgId

-- The request whose dispatch came last has the msg_id of the request for which
-- the call is made. A stored id that is empty is replaced by a generated one.
def LastDispatched (server : ServerProcess) : ProcessAction → Prop
  | .nestedCall request call =>
      mayCall (server.handlings request) → call.controller.msgId = [] →
        (lastMsgId requests server ≠ [] ∧ lastMsgId requests server = (requests request).msgId) ∨
          (lastMsgId requests server = [] ∧ call.generated = (requests request).msgId)
  | _ => True

instance (server : ServerProcess) (action : ProcessAction) : Decidable (LastDispatched requests server action) := by
  unfold LastDispatched
  split <;> infer_instance

structure ProcessInv (server : ServerProcess) : Prop where
  stored : server.runTime.msgId = lastMsgId requests server
  passed : PassedThrough requests server

end Requests

variable {ρ : Type}

theorem call_back_request (ch : Channel ρ) (init : ch.isInit = true) :
    ∃ later, callBack ch = some later ∧ later.reqProtocol = ch.reqProtocol := by
  have started : ¬ ch.isInit = false := by simp [init]
  by_cases finished : (ch.controllers ch.own).isFinished = true
  · exact ⟨ch, by rw [callBack, if_neg started, if_pos finished], rfl⟩
  · by_cases closure : ch.closure = true
    · exact ⟨modifyController { ch with closureRuns := ch.closureRuns + 1 } ch.own (setFinished true),
        by rw [callBack, if_neg started, if_neg finished, if_pos closure], rfl⟩
    · exact ⟨ch, by rw [callBack, if_neg started, if_neg finished, if_neg closure], rfl⟩

theorem connect_request (ch : Channel ρ) (result : ConnectResult) (init : ch.isInit = true) :
    ∃ later, connect ch result = some later ∧ later.reqProtocol = ch.reqProtocol := by
  have done (ch : Channel ρ) (init : ch.isInit = true) :
      ∃ later, connectDone ch = some later ∧ later.reqProtocol = ch.reqProtocol := by
    by_cases failed : ch.connectErrorCode ≠ 0
    · rw [connectDone, if_pos failed]
      exact call_back_request _ init
    · exact ⟨{ ch with stage := .writing }, by rw [connectDone, if_neg failed], rfl⟩
  cases result with
  | success => exact done ch init
  | inProgress => exact ⟨_, rfl, rfl⟩
  | failed sysError => exact done _ init

theorem nested_channel_msg_id (runTime : RunTime) (call : NestedCall) :
    ∃ channel, nestedChannel runTime call = some channel ∧
      channel.reqProtocol.msgId =
        if call.controller.msgId = [] then runTimeMsgId runTime call.generated else call.controller.msgId := by
  by_cases empty : call.controller.msgId = []
  · obtain ⟨later, connected, same⟩ := connect_request
      { modifyController (initialised true (fun _ => call.controller) 0 0 ()) 0
          (setMsgId (runTimeMsgId runTime call.generated)) with
        reqProtocol := { setMethodName { msgId := runTimeMsgId runTime call.generated } call.methodName with
          pbBody := call.pbBody }
        timerArmed := true } call.connected rfl
    refine ⟨later, ?_, by rw [same, if_pos empty]; rfl⟩
    rw [← connected]
    simp [nestedChannel, callMethod, initialised, empty, modifyController, setMsgId]
  · obtain ⟨later, connected, same⟩ := connect_request
      { initialised true (fun _ => call.controller) 0 0 () with
        reqProtocol := { setMethodName { msgId := call.controller.msgId } call.methodName with pbBody := call.pbBody }
        timerArmed := true } call.connected rfl
    refine ⟨later, ?_, by rw [same, if_neg empty]; rfl⟩
    rw [← connected]
    simp [nestedChannel, callMethod, initialised, empty]

section Requests

variable (requests : Nat → TinyPBProtocol)

theorem process_inv_frame (server later : ServerProcess) (inv : ProcessInv requests server)
    (runTime : later.runTime.msgId = server.runTime.msgId) (lastStored : later.lastStored = server.lastStored)
    (nested : later.nested = server.nested) : ProcessInv requests later := by
  constructor
  · rw [runTime, inv.stored, lastMsgId, lastMsgId, lastStored]
  · rw [PassedThrough, nested]
    exact inv.passed

theorem store_msg_id_inv (server : ServerProcess) (request : Nat) (inv : ProcessInv requests server) :
    ProcessInv requests (storeMsgId requests server request) :=
  ⟨rfl, inv.passed⟩

theorem passed_through_append (server : ServerProcess) (handlings : Nat → RequestHandling) (sent : NestedRequest) :
    PassedThrough requests { server with handlings := handlings, nested := server.nested ++ [sent] } ↔
      PassedThrough requests server ∧ (sent.controllerMsgId = [] → sent.msgId = (requests sent.request).msgId) := by
  simp only [PassedThrough, List.forall_mem_append, List.forall_mem_singleton]

theorem run_time_msg_id_eq (server : ServerProcess) (request : Nat) (generated : Bytes)
    (stored : server.runTime.msgId = lastMsgId requests server) :
    runTimeMsgId server.runTime generated = (requests request).msgId ↔
      (lastMsgId requests server ≠ [] ∧ lastMsgId requests server = (requests request).msgId) ∨
        (lastMsgId requests server = [] ∧ generated = (requests request).msgId) := by
  rw [runTimeMsgId, stored]
  by_cases empty : lastMsgId requests server = []
  · simp [empty]
  · simp [empty]

theorem issue_nested_decided (server : ServerProcess) (request : Nat) (call : NestedCall) (inv : ProcessInv requests server) :
    ∃ later, issueNested server request call = some later ∧
      ((call.controller.msgId = [] → runTimeMsgId server.runTime call.generated = (requests request).msgId) →
        ProcessInv requests later) ∧
      (PassedThrough requests later →
        call.controller.msgId = [] → runTimeMsgId server.runTime call.generated = (requests request).msgId) := by
  obtain ⟨channel, issued, carried⟩ := nested_channel_msg_id server.runTime call
  refine ⟨_, by rw [issueNested, issued, Option.map_some], ?_, ?_⟩
  · intro allowed
    refine ⟨inv.stored, (passed_through_append requests server _ _).mpr ⟨inv.passed, ?_⟩⟩
    intro empty
    rw [carried, if_pos empty]
    exact allowed empty
  · intro passed empty
    have last := ((passed_through_append requests server _ _).mp passed).2 empty
    rwa [carried, if_pos empty] at last

theorem process_step_decided (server : ServerProcess) (action : ProcessAction) (inv : ProcessInv requests server) :
    ∃ later, processStep requests server action = some later ∧
      (LastDispatched requests server action → ProcessInv requests later) ∧
      (PassedThrough requests later → LastDispatched requests server action) := by
  -- An action that is not nestedCall only has to keep the invariant.
  have quiet (later : ServerProcess) (kept : ProcessInv requests later) (free : LastDispatched requests server action) :
      (LastDispatched requests server action → ProcessInv requests later) ∧
        (PassedThrough requests later → LastDispatched requests server action) := ⟨fun _ => kept, fun _ => free⟩
  cases action with
  | setMsgId request =>
      by_cases received : (server.handlings request).stage = .received
      · exact ⟨_, if_pos received, quiet _ (store_msg_id_inv requests server request inv) trivial⟩
      · exact ⟨server, if_neg received, quiet server inv trivial⟩
  | setMethodName request =>
      by_cases stored : (server.handlings request).stage = .msgIdStored
      · exact ⟨_, if_pos stored, quiet _ (process_inv_frame requests server _ inv rfl rfl rfl) trivial⟩
      · exact ⟨server, if_neg stored, quiet server inv trivial⟩
  | callRpcInterface request =>
      by_cases stored : (server.handlings request).stage = .methodNameStored
      · exact ⟨_, if_pos stored, quiet _ (process_inv_frame requests server _ inv rfl rfl rfl) trivial⟩
      · exact ⟨server, if_neg stored, quiet server inv trivial⟩
  | nestedCall request call =>
      by_cases calling : mayCall (server.handlings request)
      · obtain ⟨later, issued, keeps, forced⟩ := issue_nested_decided requests server request call inv
        have exactly := run_time_msg_id_eq requests server request call.generated inv.stored
        refine ⟨later, by rw [processStep, if_pos calling, issued], ?_, ?_⟩
        · intro allowed
          exact keeps (fun empty => exactly.mpr (allowed calling empty))
        · intro passed _ empty
          exact exactly.mp (forced passed empty)
      · exact ⟨server, if_neg calling, quiet server inv (fun wrong => absurd wrong calling)⟩
  | endRun request =>
      by_cases running : (server.handlings request).stage = .inRun
      · exact ⟨_, if_pos running, quiet _ (process_inv_frame requests server _ inv rfl rfl rfl) trivial⟩
      · exact ⟨server, if_neg running, quiet server inv trivial⟩
  | runClosure request =>
      by_cases outstanding : 0 < (server.handlings request).outstanding
      · exact ⟨_, if_pos outstanding, quiet _ (process_inv_frame requests server _ inv rfl rfl rfl) trivial⟩
      · exact ⟨server, if_neg outstanding, quiet server inv trivial⟩
  | endClosure request =>
      by_cases running : 0 < (server.handlings request).callbacks
      · exact ⟨_, if_pos running, quiet _ (process_inv_frame requests server _ inv rfl rfl rfl) trivial⟩
      · exact ⟨server, if_neg running, quiet server inv trivial⟩

theorem passed_through_iff (actions : List ProcessAction) :
    Always (processStep requests) (PassedThrough requests) {} actions ↔
      Guarded (processStep requests) (LastDispatched requests) {} actions := by
  refine always_iff_decided (processStep requests) (LastDispatched requests) (ProcessInv requests) (PassedThrough requests)
    (fun _ inv => inv.passed) (process_step_decided requests) {} actions ⟨rfl, ?_⟩
  intro sent member
  cases member

end Requests

-- Two requests with the ids "a" and "b". The run() of the first makes its
-- nested call after the second was dispatched.
def twoRequests (request : Nat) : TinyPBProtocol := { msgId := if request = 0 then [0x61] else [0x62] }

def overtakenRequest : List ProcessAction :=
  [.setMsgId 0, .setMethodName 0, .callRpcInterface 0, .setMsgId 1, .setMethodName 1,
    .nestedCall 0 ⟨{}, [0x39], [0x6D], [], .inProgress⟩]

example : (run (processStep twoRequests) {} overtakenRequest).map (fun server => server.nested) =
    some [⟨0, [], [0x62]⟩] := by
  decide

theorem overtaken_request_diverges : ¬ Always (processStep twoRequests) (PassedThrough twoRequests) {} overtakenRequest := by
  decide

end Rocket
