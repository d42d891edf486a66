import Mathlib.Logic.Function.Basic
import Rocket.RpcDispatcher
import Rocket.Lib.Trace

set_option autoImplicit false

namespace Rocket

open Word32 Trace

-- A call of TcpConnection::reply. The serial number of the request it belongs
-- to and the answer of the serializer are only recorded.
structure Reply where
  serial : Nat
  serialized : Bool
  message : TinyPBProtocol
deriving DecidableEq, Repr

-- One server connection: the requests decoded so far, the responses that wait
-- in a closure, by the serial number of their request, and the replies made.
structure Server where
  requests : List TinyPBProtocol := []
  closures : Nat → Option TinyPBProtocol := fun _ => none
  replies : List Reply := []

inductive ServerEvent where
  | request (message : TinyPBProtocol)
  | closure (serial : Nat) (serialized : Bool) (pbBody : Bytes)
deriving DecidableEq, Repr

variable {μ : Type}

-- One round of the loop in execute.
def executeRequest (serviceMap : ServiceMap μ) (server : Server) (request : TinyPBProtocol) : Server :=
  let (_, call) := dispatch serviceMap request
  let serial := server.requests.length
  { server with
    requests := server.requests ++ [request]
    closures := Function.update server.closures serial (call.map ServiceCall.response) }

def runClosure (server : Server) (serial : Nat) (serialized : Bool) (pbBody : Bytes) : Server :=
  match server.closures serial with
  | none => server
  | some response =>
      { server with
        closures := Function.update server.closures serial none
        replies := server.replies ++ [⟨serial, serialized, closureReply response serialized pbBody⟩] }

def serverStep (serviceMap : ServiceMap μ) (server : Server) : ServerEvent → Option Server
  | .request request => some (executeRequest serviceMap server request)
  | .closure serial serialized pbBody => some (runClosure server serial serialized pbBody)

def Callable (serviceMap : ServiceMap μ) (request : TinyPBProtocol) : Prop :=
  ∃ serviceName methodName service method, parseServiceFullName request.methodName = some (serviceName, methodName) ∧
    serviceMap serviceName = some service ∧ service.findMethodByName methodName = some method ∧
    (service.parseFromString method request.pbBody).1 = true

def expectedCode (serviceMap : ServiceMap μ) (request : TinyPBProtocol) (serialized : Bool) : Int :=
  match parseServiceFullName request.methodName with
  | none => ERROR_PARSE_SERVICE_NAME
  | some (serviceName, methodName) =>
      match serviceMap serviceName with
      | none => ERROR_SERVICE_NOT_FOUND
      | some service =>
          match service.findMethodByName methodName with
          | none => ERROR_METHOD_NOT_FOUND
          | some method =>
              if (service.parseFromString method request.pbBody).1 = false then ERROR_FAILED_DESERIALIZE
              else if serialized = false then ERROR_FAILED_SERIALIZE
              else 0

def CorrectReply (serviceMap : ServiceMap μ) (server : Server) (reply : Reply) : Prop :=
  ∃ request ∈ server.requests[reply.serial]?, reply.message.msgId = request.msgId ∧
    reply.message.methodName = request.methodName ∧
    reply.message.errCode = expectedCode serviceMap request reply.serialized

def outstanding (server : Server) (serial : Nat) : Nat := if (server.closures serial).isSome then 1 else 0

def answers (server : Server) (serial : Nat) : Nat := server.replies.countP (fun reply => reply.serial = serial)

-- Every request has one reply or one closure that still has to make it.
def AnsweredOnce (serviceMap : ServiceMap μ) (server : Server) : Prop :=
  (∀ serial, serial < server.requests.length → answers server serial + outstanding server serial = 1) ∧
    ∀ reply ∈ server.replies, CorrectReply serviceMap server reply

structure ServerInv (serviceMap : ServiceMap μ) (server : Server) : Prop where
  answered : AnsweredOnce serviceMap server
  known : ∀ serial, server.requests.length ≤ serial → server.closures serial = none
  captured : ∀ serial response, server.closures serial = some response →
    ∃ request ∈ server.requests[serial]?, Callable serviceMap request ∧ response.msgId = request.msgId ∧
      response.methodName = request.methodName

def ServerGuard (serviceMap : ServiceMap μ) (_ : Server) : ServerEvent → Prop
  | .request request => Callable serviceMap request
  | .closure _ _ _ => True

theorem dispatch_callable (serviceMap : ServiceMap μ) (request : TinyPBProtocol) (callable : Callable serviceMap request) :
    ∃ call, (dispatch serviceMap request).2 = some call ∧ call.response.msgId = request.msgId ∧
      call.response.methodName = request.methodName := by
  obtain ⟨serviceName, methodName, service, method, name, registered, found, parsed⟩ := callable
  have good : ¬ (service.parseFromString method request.pbBody).1 = false := by simp [parsed]
  refine ⟨⟨service, method, setMsgId request.msgId {}, (service.parseFromString method request.pbBody).2,
    setMethodName { msgId := request.msgId } request.methodName⟩, ?_, rfl, rfl⟩
  simp only [dispatch, name, registered, found, if_neg good]

theorem dispatch_not_callable (serviceMap : ServiceMap μ) (request : TinyPBProtocol)
    (refused : ¬ Callable serviceMap request) : (dispatch serviceMap request).2 = none := by
  rw [dispatch]
  cases name : parseServiceFullName request.methodName with
  | none => rfl
  | some names =>
      obtain ⟨serviceName, methodName⟩ := names
      cases registered : serviceMap serviceName with
      | none => simp only [registered]
      | some service =>
          cases found : service.findMethodByName methodName with
          | none => simp only [registered, found]
          | some method =>
              have unparsed : (service.parseFromString method request.pbBody).1 = false := by
                cases parsed : (service.parseFromString method request.pbBody).1 with
                | false => rfl
                | true => exact absurd ⟨serviceName, methodName, service, method, name, registered, found, parsed⟩ refused
              simp only [registered, found, if_pos unparsed]

theorem closure_reply_correct (serviceMap : ServiceMap μ) (request response : TinyPBProtocol) (serialized : Bool)
    (pbBody : Bytes) (callable : Callable serviceMap request) :
    (closureReply response serialized pbBody).msgId = response.msgId ∧
      (closureReply response serialized pbBody).methodName = response.methodName ∧
      (closureReply response serialized pbBody).errCode = expectedCode serviceMap request serialized := by
  obtain ⟨serviceName, methodName, service, method, name, registered, found, parsed⟩ := callable
  have good : ¬ (service.parseFromString method request.pbBody).1 = false := by simp [parsed]
  cases serialized with
  | false => simp only [closureReply, setTinyPBErrorCode, setErrInfo, expectedCode, name, registered, found, if_neg good,
      if_true, and_self]
  | true => simp [closureReply, setErrInfo, expectedCode, name, registered, found, parsed]

theorem request_kept (requests : List TinyPBProtocol) (added request : TinyPBProtocol) (serial : Nat)
    (known : requests[serial]? = some request) : (requests ++ [added])[serial]? = some request := by
  have inside : serial < requests.length := (List.getElem?_eq_some_iff.mp known).1
  rw [List.getElem?_append_left inside, known]

theorem correct_reply_kept (serviceMap : ServiceMap μ) (server : Server) (request : TinyPBProtocol) (reply : Reply)
    (correct : CorrectReply serviceMap server reply) :
    CorrectReply serviceMap (executeRequest serviceMap server request) reply := by
  obtain ⟨known, member, fields⟩ := correct
  exact ⟨known, request_kept server.requests request known reply.serial member, fields⟩

theorem answers_fresh (serviceMap : ServiceMap μ) (server : Server) (inv : ServerInv serviceMap server) :
    answers server server.requests.length = 0 := by
  rw [answers, List.countP_eq_zero]
  intro reply member
  obtain ⟨request, known, _⟩ := inv.answered.2 reply member
  have inside : reply.serial < server.requests.length := (List.getElem?_eq_some_iff.mp known).1
  simpa using Nat.ne_of_lt inside

theorem execute_request_old (serviceMap : ServiceMap μ) (server : Server) (request : TinyPBProtocol) (serial : Nat)
    (old : serial ≠ server.requests.length) :
    (executeRequest serviceMap server request).closures serial = server.closures serial :=
  Function.update_of_ne old _ _

theorem execute_request_new (serviceMap : ServiceMap μ) (server : Server) (request : TinyPBProtocol) :
    (executeRequest serviceMap server request).closures server.requests.length =
      (dispatch serviceMap request).2.map ServiceCall.response :=
  Function.update_self _ _ _

theorem execute_request_answers (serviceMap : ServiceMap μ) (server : Server) (request : TinyPBProtocol) (serial : Nat) :
    answers (executeRequest serviceMap server request) serial = answers server serial := rfl

theorem execute_request_length (serviceMap : ServiceMap μ) (server : Server) (request : TinyPBProtocol) :
    (executeRequest serviceMap server request).requests.length = server.requests.length + 1 := by
  simp only [executeRequest, List.length_append, List.length_singleton]

theorem execute_request_keeps (serviceMap : ServiceMap μ) (server : Server) (request : TinyPBProtocol)
    (inv : ServerInv serviceMap server) (callable : Callable serviceMap request) :
    ServerInv serviceMap (executeRequest serviceMap server request) := by
  obtain ⟨call, called, sameId, sameName⟩ := dispatch_callable serviceMap request callable
  have fresh := execute_request_new serviceMap server request
  rw [called, Option.map_some] at fresh
  have longer := execute_request_length serviceMap server request
  refine ⟨⟨?_, ?_⟩, ?_, ?_⟩
  · intro serial below
    by_cases new : serial = server.requests.length
    · have none := answers_fresh serviceMap server inv
      rw [new]
      simp only [outstanding, fresh, Option.isSome_some, if_true]
      exact congrArg (· + 1) none
    · have kept := inv.answered.1 serial (by omega)
      simpa only [outstanding, execute_request_answers, execute_request_old serviceMap server request serial new] using kept
  · intro reply member
    exact correct_reply_kept serviceMap server request reply (inv.answered.2 reply member)
  · intro serial above
    rw [execute_request_old serviceMap server request serial (by omega)]
    exact inv.known serial (by omega)
  · intro serial response captured
    by_cases new : serial = server.requests.length
    · rw [new, fresh] at captured
      cases captured
      refine ⟨request, ?_, callable, sameId, sameName⟩
      simp only [executeRequest, new, List.getElem?_concat_length, Option.mem_def]
    · rw [execute_request_old serviceMap server request serial new] at captured
      obtain ⟨known, member, fields⟩ := inv.captured serial response captured
      exact ⟨known, request_kept server.requests request known serial member, fields⟩

theorem execute_request_forced (serviceMap : ServiceMap μ) (server : Server) (request : TinyPBProtocol)
    (inv : ServerInv serviceMap server) (answered : AnsweredOnce serviceMap (executeRequest serviceMap server request)) :
    Callable serviceMap request := by
  by_contra refused
  have lost := execute_request_new serviceMap server request
  rw [dispatch_not_callable serviceMap request refused, Option.map_none] at lost
  have count := answered.1 server.requests.length (by
    simp only [executeRequest, List.length_append, List.length_singleton]
    exact Nat.lt_succ_self _)
  have none : answers (executeRequest serviceMap server request) server.requests.length = 0 :=
    answers_fresh serviceMap server inv
  rw [none, outstanding, lost] at count
  exact absurd count (by decide)

section RunClosure

variable (server : Server) (serial : Nat) (serialized : Bool) (pbBody : Bytes)

theorem run_closure_requests : (runClosure server serial serialized pbBody).requests = server.requests := by
  cases waiting : server.closures serial with
  | none => simp only [runClosure, waiting]
  | some response => simp only [runClosure, waiting]

theorem run_closure_done : (runClosure server serial serialized pbBody).closures serial = none := by
  cases waiting : server.closures serial with
  | none => simp only [runClosure, waiting]
  | some response => simp only [runClosure, waiting, Function.update_self]

theorem run_closure_other (other : Nat) (different : other ≠ serial) :
    (runClosure server serial serialized pbBody).closures other = server.closures other := by
  cases waiting : server.closures serial with
  | none => simp only [runClosure, waiting]
  | some response => simp only [runClosure, waiting, Function.update_of_ne different]

theorem run_closure_replies (response : TinyPBProtocol) (waiting : server.closures serial = some response) :
    (runClosure server serial serialized pbBody).replies =
      server.replies ++ [⟨serial, serialized, closureReply response serialized pbBody⟩] := by
  simp only [runClosure, waiting]

theorem run_closure_none (nothing : server.closures serial = none) :
    runClosure server serial serialized pbBody = server := by
  simp only [runClosure, nothing]

end RunClosure

theorem run_closure_keeps (serviceMap : ServiceMap μ) (server : Server) (serial : Nat) (serialized : Bool) (pbBody : Bytes)
    (inv : ServerInv serviceMap server) : ServerInv serviceMap (runClosure server serial serialized pbBody) := by
  cases waiting : server.closures serial with
  | none =>
      rw [run_closure_none server serial serialized pbBody waiting]
      exact inv
  | some response =>
      obtain ⟨request, known, callable, sameId, sameName⟩ := inv.captured serial response waiting
      obtain ⟨idKept, nameKept, code⟩ := closure_reply_correct serviceMap request response serialized pbBody callable
      have sameRequests := run_closure_requests server serial serialized pbBody
      have done := run_closure_done server serial serialized pbBody
      have replies := run_closure_replies server serial serialized pbBody response waiting
      refine ⟨⟨?_, ?_⟩, ?_, ?_⟩
      · intro other below
        rw [sameRequests] at below
        have kept := inv.answered.1 other below
        by_cases same : other = serial
        -- The closure of this request becomes its reply, so the sum stays one.
        · rw [same] at kept ⊢
          rw [outstanding, waiting] at kept
          rw [outstanding, done, answers, replies, List.countP_append, List.countP_singleton]
          simpa [answers] using kept
        · have different : ¬ serial = other := fun back => same back.symm
          rw [outstanding, run_closure_other server serial serialized pbBody other same, answers, replies,
            List.countP_append, List.countP_singleton]
          simpa [answers, outstanding, different] using kept
      · intro reply member
        rw [CorrectReply, sameRequests]
        rw [replies] at member
        rcases List.mem_append.mp member with old | new
        · exact inv.answered.2 reply old
        · cases List.mem_singleton.mp new
          exact ⟨request, known, idKept.trans sameId, nameKept.trans sameName, code⟩
      · intro other above
        rw [sameRequests] at above
        by_cases same : other = serial
        · rw [same, done]
        · rw [run_closure_other server serial serialized pbBody other same]
          exact inv.known other above
      · intro other captured held
        rw [sameRequests]
        by_cases same : other = serial
        · rw [same, done] at held
          cases held
        · rw [run_closure_other server serial serialized pbBody other same] at held
          exact inv.captured other captured held

theorem server_step_keeps (serviceMap : ServiceMap μ) (server : Server) (event : ServerEvent)
    (inv : ServerInv serviceMap server) (guard : ServerGuard serviceMap server event) :
    ∃ later, serverStep serviceMap server event = some later ∧ ServerInv serviceMap later := by
  cases event with
  | request request => exact ⟨_, rfl, execute_request_keeps serviceMap server request inv guard⟩
  | closure serial serialized pbBody => exact ⟨_, rfl, run_closure_keeps serviceMap server serial serialized pbBody inv⟩

theorem server_step_forced (serviceMap : ServiceMap μ) (server later : Server) (event : ServerEvent)
    (inv : ServerInv serviceMap server) (taken : serverStep serviceMap server event = some later)
    (answered : AnsweredOnce serviceMap later) : ServerGuard serviceMap server event := by
  cases event with
  | request request =>
      cases taken
      exact execute_request_forced serviceMap server request inv answered
  | closure serial serialized pbBody => trivial

theorem server_inv_start (serviceMap : ServiceMap μ) : ServerInv serviceMap {} := by
  refine ⟨⟨?_, ?_⟩, fun _ _ => rfl, ?_⟩
  · intro serial below
    cases below
  · intro reply member
    cases member
  · intro serial response captured
    cases captured

-- A batch of requests whose services run the closure before CallMethod returns.
def batchEvents (complete : Nat → Bool × Bytes) : Nat → List TinyPBProtocol → List ServerEvent
  | _, [] => []
  | serial, request :: requests =>
      .request request :: .closure serial (complete serial).1 (complete serial).2 ::
        batchEvents complete (serial + 1) requests

theorem run_batch (serviceMap : ServiceMap μ) (complete : Nat → Bool × Bytes) (requests : List TinyPBProtocol)
    (server : Server) : ∃ last added,
      run (serverStep serviceMap) server (batchEvents complete server.requests.length requests) = some last ∧
      last.replies = server.replies ++ added ∧ added.length ≤ requests.length ∧
      ((∀ request ∈ requests, Callable serviceMap request) →
        added.map Reply.serial = List.range' server.requests.length requests.length) ∧
      (added.length = requests.length → ∀ request ∈ requests, Callable serviceMap request) := by
  induction requests generalizing server with
  | nil => exact ⟨server, [], rfl, (List.append_nil _).symm, Nat.le_refl 0, fun _ => rfl, fun _ _ member => by cases member⟩
  | cons request requests ih =>
      have fresh := execute_request_new serviceMap server request
      have sameRequests := run_closure_requests (executeRequest serviceMap server request) server.requests.length
        (complete server.requests.length).1 (complete server.requests.length).2
      obtain ⟨last, added, reached, replies, bound, serials, counted⟩ := ih (runClosure
        (executeRequest serviceMap server request) server.requests.length (complete server.requests.length).1
        (complete server.requests.length).2)
      rw [sameRequests, execute_request_length] at reached serials
      by_cases callable : Callable serviceMap request
      · obtain ⟨call, called, _⟩ := dispatch_callable serviceMap request callable
        rw [called, Option.map_some] at fresh
        rw [run_closure_replies _ _ _ _ call.response fresh, List.append_assoc] at replies
        refine ⟨last, _, reached, replies, ?_, ?_, ?_⟩
        · simp only [List.length_append, List.length_cons, List.length_nil]
          omega
        · intro all
          rw [List.map_append, serials (fun other member => all other (List.mem_cons_of_mem request member))]
          rfl
        · intro count other member
          simp only [List.length_append, List.length_cons, List.length_nil] at count
          rcases List.mem_cons.mp member with rfl | later
          · exact callable
          · exact counted (by omega) other later
      · rw [dispatch_not_callable serviceMap request callable, Option.map_none] at fresh
        rw [run_closure_none _ _ _ _ fresh] at replies
        refine ⟨last, added, reached, replies, Nat.le_succ_of_le bound, ?_, ?_⟩
        · intro all
          exact absurd (all request List.mem_cons_self) callable
        · intro count
          simp only [List.length_cons] at count
          omega

theorem answered_once_iff (serviceMap : ServiceMap μ) :
    (∀ events, Always (serverStep serviceMap) (AnsweredOnce serviceMap) {} events ↔
      Guarded (serverStep serviceMap) (ServerGuard serviceMap) {} events) ∧
    ∀ (complete : Nat → Bool × Bytes) (requests : List TinyPBProtocol), ∃ last,
      run (serverStep serviceMap) {} (batchEvents complete 0 requests) = some last ∧
      (last.replies.map Reply.serial = List.range requests.length ↔ ∀ request ∈ requests, Callable serviceMap request) := by
  refine ⟨fun events => ?_, fun complete requests => ?_⟩
  · exact always_iff_guarded (serverStep serviceMap) (ServerGuard serviceMap) (ServerInv serviceMap)
      (AnsweredOnce serviceMap) (fun _ inv => inv.answered) (server_step_keeps serviceMap)
      (fun server event later inv taken answered => server_step_forced serviceMap server later event inv taken answered)
      {} events (server_inv_start serviceMap)
  · obtain ⟨last, added, reached, replies, _, serials, counted⟩ := run_batch serviceMap complete requests {}
    refine ⟨last, reached, ?_⟩
    rw [replies, List.nil_append, List.range_eq_range']
    constructor
    · intro ordered
      have count := congrArg List.length ordered
      rw [List.length_map, List.length_range'] at count
      exact counted count
    · exact serials

def noServices : ServiceMap Bytes := fun _ => none

-- A name without a dot: the error code is stored and nothing is sent.
theorem unknown_name_unanswered :
    (dispatch noServices { msgId := [0x31], methodName := [0x70] }).1.errCode = ERROR_PARSE_SERVICE_NAME ∧
    ¬ Always (serverStep noServices) (AnsweredOnce noServices) {} [.request { msgId := [0x31], methodName := [0x70] }] := by
  refine ⟨by decide, ?_⟩
  rintro ⟨_, later, taken, answered, _⟩
  cases taken
  exact absurd (answered 0 (by decide)) (by decide)

end Rocket
