import Rocket.Lib.Word32

set_option autoImplicit false

namespace Rocket

open Word32

-- error_code.h
def ERROR_PEER_CLOSED : Int := 10000000
def ERROR_FAILED_CONNECT : Int := 10000001
def ERROR_FAILED_DESERIALIZE : Int := 10000003
def ERROR_FAILED_SERIALIZE : Int := 10000004
def ERROR_RPC_CALL_TIMEOUT : Int := 20000005
def ERROR_SERVICE_NOT_FOUND : Int := 20000006
def ERROR_METHOD_NOT_FOUND : Int := 20000007
def ERROR_PARSE_SERVICE_NAME : Int := 20000008
def ERROR_RPC_CHANNEL_NOT_INIT : Int := 20000009
def ERROR_RPC_CHANNEL_INIT_FAILED : Int := 20000011

def text (literal : String) : Bytes := literal.toList.map (fun char => UInt8.ofNat char.toNat)

structure RpcController where
  errorCode : Int := 0
  errorInfo : Bytes := []
  msgId : Bytes := []
  isFailed : Bool := false
  isCanceled : Bool := false
  isFinished : Bool := false
  timeout : Int := 1000
deriving DecidableEq, Repr

def startCancel (controller : RpcController) : RpcController :=
  { controller with isCanceled := true, isFinished := true }

def setError (errorCode : Int) (errorInfo : Bytes) (controller : RpcController) : RpcController :=
  { controller with errorCode := errorCode, errorInfo := errorInfo, isFailed := true, isFinished := true }

def setMsgId (msgId : Bytes) (controller : RpcController) : RpcController := { controller with msgId := msgId }

def setFinished (finished : Bool) (controller : RpcController) : RpcController :=
  { controller with isFinished := finished }

end Rocket
