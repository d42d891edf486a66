import Rocket.TinyPBProtocol
import Rocket.Lib.WhileLoop

set_option autoImplicit false

namespace Rocket

open Memory Word32 WhileLoop

def getInt32FromNetByte (tmp : Bytes) (index : Int) : Option Int := (slice tmp index 4).map fromBigEndian

structure Frame where
  startIndex : Int
  endIndex : Int
  pkLen : Int
deriving DecidableEq, Repr

-- The inner for loop of decode, with the number of positions left to try. A
-- length whose end lies behind the write index only moves the scan on by one
-- byte; the four length bytes themselves are not compared with it.
def scanFrom (tmp : Bytes) (writeIndex : Int) : Nat → Int → Option (Option Frame)
  | 0, _ => some none
  | left + 1, i => do
      let byte ← cell tmp i
      if byte = PB_START ∧ i + 1 < writeIndex then
        let pkLen ← getInt32FromNetByte tmp (i + 1)
        let sum ← checked (i + pkLen)
        let j ← checked (sum - 1)
        if j ≥ writeIndex then scanFrom tmp writeIndex left (i + 1)
        else do
          let last ← cell tmp j
          if last = PB_END then some (some ⟨i, j, pkLen⟩) else scanFrom tmp writeIndex left (i + 1)
      else scanFrom tmp writeIndex left (i + 1)

def scan (tmp : Bytes) (startIndex writeIndex : Int) : Option (Option Frame) :=
  scanFrom tmp writeIndex (writeIndex - startIndex).toNat startIndex

def copyField (tmp : Bytes) (capacity index length : Int) : Option Bytes :=
  if length ≤ capacity then slice tmp index length else none

-- std::string(error_info): up to the first NUL of a zero-initialised array.
def cString (capacity : Int) (copied : Bytes) : Option Bytes :=
  if copied.length < capacity ∨ 0 ∈ copied then some (copied.takeWhile (· ≠ 0)) else none

-- The body length repeats the two consecutive minus signs of the source.
def parsePbBody (tmp : Bytes) (message : TinyPBProtocol) (errorInfoIndex : Int) : Option (Option TinyPBProtocol) := do
  let sum ← checked (message.pkLength - message.msgIdLen - message.methodNameLen - -message.errInfoLen)
  let pbBodyLen := sum - 2 - 24
  let pbBodyIndex := errorInfoIndex + message.errInfoLen
  let pbBody ← slice tmp pbBodyIndex pbBodyLen
  some (some { message with pbBody := pbBody, paraseSuccess := true })

-- The body of decode after a frame was accepted, one stage for each field. An
-- inner none is one of the four parse errors, which drop the message.
def parseErrInfo (tmp : Bytes) (endIndex : Int) (message : TinyPBProtocol) (errorInfoLenIndex : Int) :
    Option (Option TinyPBProtocol) :=
  if errorInfoLenIndex ≥ endIndex then some none
  else do
    let errorInfoLen ← getInt32FromNetByte tmp errorInfoLenIndex
    let copied ← copyField tmp 512 (errorInfoLenIndex + 4) errorInfoLen
    let errorInfo ← cString 512 copied
    parsePbBody tmp (setErrInfo message errorInfo) (errorInfoLenIndex + 4)

def parseErrCode (tmp : Bytes) (endIndex : Int) (message : TinyPBProtocol) (errCodeIndex : Int) :
    Option (Option TinyPBProtocol) :=
  if errCodeIndex ≥ endIndex then some none
  else do
    let errCode ← getInt32FromNetByte tmp errCodeIndex
    parseErrInfo tmp endIndex { message with errCode := errCode } (errCodeIndex + 4)

def parseMethodName (tmp : Bytes) (endIndex : Int) (message : TinyPBProtocol) (methodNameLenIndex : Int) :
    Option (Option TinyPBProtocol) :=
  if methodNameLenIndex ≥ endIndex then some none
  else do
    let methodNameLen ← getInt32FromNetByte tmp methodNameLenIndex
    let methodName ← copyField tmp 512 (methodNameLenIndex + 4) methodNameLen
    parseErrCode tmp endIndex (setMethodName message methodName) (methodNameLenIndex + 4 + methodNameLen)

def parseMsgId (tmp : Bytes) (endIndex : Int) (message : TinyPBProtocol) (msgIdLenIndex : Int) :
    Option (Option TinyPBProtocol) :=
  if msgIdLenIndex ≥ endIndex then some none
  else do
    let msgIdLen ← getInt32FromNetByte tmp msgIdLenIndex
    let msgId ← copyField tmp 100 (msgIdLenIndex + 4) msgIdLen
    parseMethodName tmp endIndex { message with msgId := msgId, msgIdLen := msgIdLen } (msgIdLenIndex + 4 + msgIdLen)

def parseFrame (tmp : Bytes) (frame : Frame) : Option (Option TinyPBProtocol) :=
  parseMsgId tmp frame.endIndex { pkLength := frame.pkLen } (frame.startIndex + 1 + 4)

abbrev DecodeState := List TinyPBProtocol × TcpBuffer

-- One iteration of while (1): the vector is copied before the read index moves.
def decodeTurn (state : DecodeState) : Option (Flow DecodeState DecodeState) := do
  let (outMessage, buf) := state
  let tmp := buf.buffer
  match ← scan tmp buf.readIndex buf.writeIndex with
  | none => some (.stop (outMessage, buf))
  | some frame => do
      let buf ← moveReadIndex buf (frame.endIndex - frame.startIndex + 1)
      match ← parseFrame tmp frame with
      | none => some (.next (outMessage, buf))
      | some message => some (.next (outMessage ++ [message], buf))

def Decodes (outMessage : List TinyPBProtocol) (buf : TcpBuffer) (result : DecodeState) : Prop :=
  Returns decodeTurn (outMessage, buf) result

theorem decode_turn_appends (out later : List TinyPBProtocol) (buf next : TcpBuffer)
    (turn : decodeTurn (out, buf) = some (.next (later, next))) : ∃ added, later = out ++ added := by
  simp only [decodeTurn, Option.bind_eq_bind, Option.bind_eq_some_iff] at turn
  obtain ⟨found, _, turn⟩ := turn
  cases found with
  | none => cases turn
  | some frame =>
      simp only [Option.bind_eq_some_iff] at turn
      obtain ⟨moved, _, parsed, _, turn⟩ := turn
      cases parsed with
      | none =>
          cases turn
          exact ⟨[], (List.append_nil _).symm⟩
      | some message =>
          cases turn
          exact ⟨[message], rfl⟩

theorem decode_turns_append (count : Nat) (out later : List TinyPBProtocol) (buf next : TcpBuffer)
    (turned : turns decodeTurn count (out, buf) = some (.next (later, next))) : ∃ added, later = out ++ added := by
  induction count generalizing out buf with
  | zero =>
      cases turned
      exact ⟨[], (List.append_nil _).symm⟩
  | succ count ih =>
      cases turn : decodeTurn (out, buf) with
      | none => simp [turns, run, List.replicate_succ, turn] at turned
      | some flow =>
          cases flow with
          | stop result =>
              rw [turns_stop decodeTurn count _ result turn] at turned
              cases turned
          | next state =>
              obtain ⟨middle, between⟩ := state
              rw [turns_succ decodeTurn count _ _ turn] at turned
              obtain ⟨first, rfl⟩ := decode_turn_appends out middle buf between turn
              obtain ⟨second, rfl⟩ := ih (out ++ first) between turned
              exact ⟨first ++ second, List.append_assoc _ _ _⟩

end Rocket
