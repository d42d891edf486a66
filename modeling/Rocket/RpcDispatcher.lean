import Rocket.RpcController
import Rocket.TinyPBProtocol

set_option autoImplicit false

namespace Rocket

open Word32

def findLastOf (byte : UInt8) : Bytes → Option Nat
  | [] => none
  | head :: tail =>
      match findLastOf byte tail with
      | some pos => some (pos + 1)
      | none => if head = byte then some 0 else none

def parseServiceFullName (fullName : Bytes) : Option (Bytes × Bytes) :=
  if fullName = [] then none
  else
    match findLastOf 0x2E fullName with
    | none => none
    | some pos => some (fullName.take pos, fullName.drop (pos + 1))

def setTinyPBErrorCode (msg : TinyPBProtocol) (errCode : Int) (errInfo : Bytes) : TinyPBProtocol :=
  { setErrInfo { msg with errCode := errCode } errInfo with errInfoLen := narrow errInfo.length }

-- Messages have one type μ.
structure Service (μ : Type) where
  fullName : Bytes
  findMethodByName : Bytes → Option Nat
  parseFromString : Nat → Bytes → Bool × μ

abbrev ServiceMap (μ : Type) := Bytes → Option (Service μ)

structure ServiceCall (μ : Type) where
  service : Service μ
  method : Nat
  controller : RpcController
  reqMsg : μ
  response : TinyPBProtocol

variable {μ : Type}

-- The caller drops the response that dispatch leaves it.
def dispatch (serviceMap : ServiceMap μ) (request : TinyPBProtocol) : TinyPBProtocol × Option (ServiceCall μ) :=
  let response := setMethodName { msgId := request.msgId } request.methodName
  match parseServiceFullName request.methodName with
  | none => (setTinyPBErrorCode response ERROR_PARSE_SERVICE_NAME (text "parse service name error"), none)
  | some (serviceName, methodName) =>
      match serviceMap serviceName with
      | none => (setTinyPBErrorCode response ERROR_SERVICE_NOT_FOUND (text "service not found"), none)
      | some service =>
          match service.findMethodByName methodName with
          | none => (setTinyPBErrorCode response ERROR_METHOD_NOT_FOUND (text "method not found"), none)
          | some method =>
              let (parsed, reqMsg) := service.parseFromString method request.pbBody
              if parsed = false then
                (setTinyPBErrorCode response ERROR_FAILED_DESERIALIZE (text "deserialize request error"), none)
              else (response, some ⟨service, method, setMsgId request.msgId {}, reqMsg, response⟩)

def closureReply (response : TinyPBProtocol) (serialized : Bool) (pbBody : Bytes) : TinyPBProtocol :=
  let filled := { response with pbBody := pbBody }
  if serialized = false then setTinyPBErrorCode filled ERROR_FAILED_SERIALIZE (text "serialize response error")
  else setErrInfo { filled with errCode := 0 } []

end Rocket
