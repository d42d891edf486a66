import Rocket.CallbacksKept
import Rocket.Link
import Rocket.RequestReply

set_option autoImplicit false

namespace Rocket

open Memory Word32 Trace
open Resend (wire)

-- completed counts the responses that execute has looked at, calls records what
-- was given to writeMessage.
structure Conversation where
  requests : Link
  responses : Link
  server : Server := {}
  readDone : ReadDone := {}
  completed : Nat := 0
  calls : List TinyPBProtocol := []

inductive Side where
  | client
  | server
deriving DecidableEq, Repr

inductive Move where
  | writeMessage (message : TinyPBProtocol)
  | onWrite (side : Side)
  | write (side : Side) (result : WriteResult)
  | writeDone
  | read (side : Side) (action : ReceiveAction)
  | dispatch
  | closure (serial : Nat) (pbBody : Bytes)
  | response
deriving DecidableEq, Repr

def output (conv : Conversation) : Side → Link
  | .client => conv.requests
  | .server => conv.responses

def input (conv : Conversation) : Side → Link
  | .client => conv.responses
  | .server => conv.requests

def onOutput (conv : Conversation) (side : Side) (action : SenderAction) : Option Conversation := do
  let link ← linkStep (output conv side) (.send action)
  match side with
  | .client => some { conv with requests := link }
  | .server => some { conv with responses := link }

def onInput (conv : Conversation) (side : Side) (action : ReceiveAction) : Option Conversation := do
  let link ← linkStep (input conv side) (.receive action)
  match side with
  | .client => some { conv with responses := link }
  | .server => some { conv with requests := link }

-- onRead runs execute to its end, and it does not come between the steps of
-- onWrite on the same thread.
def ReadReady (conv : Conversation) : Side → ReceiveAction → Prop
  | _, .turn => True
  | .server, .onRead _ => conv.server.requests.length = conv.requests.feed.outMessage.length
  | .client, .onRead _ =>
      conv.requests.sender.phase = .idle ∧ conv.completed = conv.responses.feed.outMessage.length

instance (conv : Conversation) (side : Side) (action : ReceiveAction) : Decidable (ReadReady conv side action) :=
  match side, action with
  | .client, .turn => inferInstanceAs (Decidable True)
  | .server, .turn => inferInstanceAs (Decidable True)
  | .client, .onRead _ => inferInstanceAs (Decidable
      (conv.requests.sender.phase = .idle ∧ conv.completed = conv.responses.feed.outMessage.length))
  | .server, .onRead _ => inferInstanceAs (Decidable
      (conv.server.requests.length = conv.requests.feed.outMessage.length))

-- The done callback of CallMethod calls readMessage.
def registerCall (conv : Conversation) (next : Nat) : ReadDone :=
  match conv.requests.sender.writeDone[next]? with
  | some entry => pushReadMessage conv.readDone entry.message.msgId
  | none => conv.readDone

def writeDoneTurn (conv : Conversation) : Option Conversation :=
  match conv.requests.sender.phase with
  | .calling next => (onOutput conv .client .callback).map fun later => { later with readDone := registerCall conv next }
  | _ => some conv

def nextRequest (conv : Conversation) : Option TinyPBProtocol :=
  if conv.requests.feed.decoding = false then conv.requests.feed.outMessage[conv.server.requests.length]? else none

def nextResponse (conv : Conversation) : Option TinyPBProtocol :=
  if conv.responses.feed.decoding = false ∧ conv.requests.sender.phase = .idle then
    conv.responses.feed.outMessage[conv.completed]?
  else none

variable {μ : Type}

-- A response that serializes. The closure may run at any time after dispatch.
def closureTurn (conv : Conversation) (serial : Nat) (pbBody : Bytes) : Option Conversation :=
  match conv.server.closures serial with
  | none => some conv
  | some response =>
      if conv.responses.sender.phase = .writing then some conv
      else (onOutput conv .server (.reply [closureReply response true pbBody])).map fun later =>
        { later with server := runClosure conv.server serial true pbBody }

def conversationStep (serviceMap : ServiceMap μ) (conv : Conversation) : Move → Option Conversation
  | .writeMessage message =>
      if conv.requests.sender.phase = .idle then
        (onOutput conv .client (.push message)).map fun later => { later with calls := conv.calls ++ [message] }
      else some conv
  | .onWrite side => onOutput conv side .onWrite
  | .write side result => onOutput conv side (.write result)
  | .writeDone => writeDoneTurn conv
  | .read side action => if ReadReady conv side action then onInput conv side action else some conv
  | .dispatch =>
      match nextRequest conv with
      | none => some conv
      | some request => some { conv with server := executeRequest serviceMap conv.server request }
  | .closure serial pbBody => closureTurn conv serial pbBody
  | .response =>
      match nextResponse conv with
      | none => some conv
      | some message =>
          some { conv with readDone := executeMessage conv.readDone message [], completed := conv.completed + 1 }

-- Ids are not used twice, every method is found and its request parses, and
-- each direction is used as LinkGuard says.
def ConversationGuard (serviceMap : ServiceMap μ) (conv : Conversation) : Move → Prop
  | .writeMessage message => Plain [message] ∧ message.msgId ∉ conv.calls.map TinyPBProtocol.msgId
  | .onWrite side => LinkGuard (output conv side) (.send .onWrite)
  | .write side result => LinkGuard (output conv side) (.send (.write result))
  | .writeDone => True
  | .read side action => LinkGuard (input conv side) (.receive action)
  | .dispatch => ∀ request ∈ nextRequest conv, Callable serviceMap request
  | .closure serial pbBody =>
      ∀ response ∈ conv.server.closures serial, EncodingFits [closureReply response true pbBody] conv.responses.sender.outBuffer
  | .response => True

instance (serviceMap : ServiceMap μ) (request : TinyPBProtocol) : Decidable (Callable serviceMap request) :=
  decidable_of_iff ((dispatch serviceMap request).2.isSome) (by
    constructor
    · intro called
      by_contra refused
      rw [dispatch_not_callable serviceMap request refused] at called
      cases called
    · intro callable
      obtain ⟨call, called, _⟩ := dispatch_callable serviceMap request callable
      rw [called]
      rfl)

instance (serviceMap : ServiceMap μ) (conv : Conversation) (move : Move) :
    Decidable (ConversationGuard serviceMap conv move) := by
  unfold ConversationGuard
  split <;> infer_instance

def newConversation (clientOut serverIn serverOut clientIn : TcpBuffer) : Conversation :=
  { requests := newLink .byClient clientOut serverIn, responses := newLink .byServer serverOut clientIn }

def unsent (sender : Sender) : List TinyPBProtocol := if sender.phase = .idle then queued sender else []

def uncalled (sender : Sender) : List Bytes :=
  match sender.phase with
  | .idle => []
  | .writing => (queued sender).map TinyPBProtocol.msgId
  | .calling next => ((queued sender).map TinyPBProtocol.msgId).drop next

structure CallerInv (conv : Conversation) : Prop where
  client : conv.requests.sender.connectionType = .byClient
  distinct : (conv.calls.map TinyPBProtocol.msgId).Nodup
  contents : conv.calls.map wireContent = (conv.requests.history ++ unsent conv.requests.sender).map wireContent
  registered : conv.readDone.registered ++ uncalled conv.requests.sender =
    conv.requests.history.map TinyPBProtocol.msgId
  routing : RoutingInv none conv.readDone
  kept : CallbacksKept conv.readDone

structure DispatchInv (serviceMap : ServiceMap μ) (conv : Conversation) : Prop where
  server : conv.responses.sender.connectionType = .byServer
  executed : conv.server.requests <+: conv.requests.feed.outMessage
  service : ServerInv serviceMap conv.server
  replied : conv.responses.history = conv.server.replies.map Reply.message
  clean : ∀ reply ∈ conv.server.replies, reply.message.errCode = 0

structure CompletionInv (conv : Conversation) : Prop where
  within : conv.completed ≤ conv.responses.feed.outMessage.length
  done : ∀ message ∈ conv.responses.feed.outMessage.take conv.completed,
    message.msgId ∈ conv.readDone.registered ∧ conv.readDone.readDone message.msgId = none
  invoked : ∀ call ∈ conv.readDone.invoked, call.2 ∈ conv.responses.feed.outMessage

structure ConversationInv (serviceMap : ServiceMap μ) (conv : Conversation) : Prop where
  requests : LinkInv conv.requests
  responses : LinkInv conv.responses
  calling : CallerInv conv
  dispatching : DispatchInv serviceMap conv
  completing : CompletionInv conv

end Rocket
