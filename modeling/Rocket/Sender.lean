import Rocket.TcpConnection
import Rocket.Lib.Trace

set_option autoImplicit false

namespace Rocket

open Memory Word32 Trace

-- An entry of m_write_done. Pushes are numbered.
structure Queued where
  serial : Nat
  message : TinyPBProtocol
deriving DecidableEq, Repr

structure Span where
  serial : Nat
  start : Nat
  length : Nat
deriving DecidableEq, Repr

inductive WritePhase where
  | idle
  | writing
  | calling (next : Nat)
deriving DecidableEq, Repr

-- The output side of a connection. The last six fields record the run: pushes,
-- all encodings, all bytes and ranges of the stream that the kernel accepted,
-- the frames of pushed messages and the callbacks made.
structure Sender where
  connectionType : TcpConnectionType
  state : TcpState := .connected
  outBuffer : TcpBuffer
  writeDone : List Queued := []
  phase : WritePhase := .idle
  pushed : Nat := 0
  encoded : Bytes := []
  accepted : Bytes := []
  writes : List (Nat × Nat) := []
  spans : List Span := []
  called : List Nat := []
deriving DecidableEq, Repr

-- An answer of write: this many of the offered bytes, EAGAIN, or another error.
inductive WriteResult where
  | accepted (count : Nat)
  | again
  | failed
deriving DecidableEq, Repr

def reply (sender : Sender) (messages : List TinyPBProtocol) : Option Sender := do
  let bytes ← encodedBytes messages
  let (_, outBuffer) ← encode messages sender.outBuffer
  some { sender with outBuffer := outBuffer, encoded := sender.encoded ++ bytes }

def pushSendMessage (sender : Sender) (message : TinyPBProtocol) : Sender :=
  { sender with writeDone := sender.writeDone ++ [⟨sender.pushed, message⟩], pushed := sender.pushed + 1 }

def spansFrom : Nat → List Queued → List Span
  | _, [] => []
  | start, entry :: entries =>
      let length := frameLength (ensureMsgId entry.message)
      ⟨entry.serial, start, length⟩ :: spansFrom (start + length) entries

def startWrite (sender : Sender) : Option Sender :=
  if sender.state ≠ .connected then some { sender with state := .closed }
  else if sender.connectionType = .byClient then do
    let messages := sender.writeDone.map Queued.message
    let bytes ← encodedBytes messages
    let (sent, outBuffer) ← encode messages sender.outBuffer
    some { sender with
      outBuffer := outBuffer
      writeDone := List.zipWith (fun entry message => { entry with message := message }) sender.writeDone sent
      phase := .writing
      encoded := sender.encoded ++ bytes
      spans := sender.spans ++ spansFrom sender.encoded.length sender.writeDone }
  else some { sender with phase := .writing }

def finishWrite (sender : Sender) : Sender :=
  if sender.connectionType = .byClient then { sender with phase := .calling 0 }
  else { sender with phase := .idle, writeDone := [] }

-- One turn of the write loop. It asks for no system call when nothing is
-- readable, and it never moves the read index.
def writeTurn (sender : Sender) (result : WriteResult) : Option Sender :=
  let writeCount := readAble sender.outBuffer
  if writeCount = 0 then some (finishWrite sender)
  else
    match result with
    | .accepted count => do
        let offered ← slice sender.outBuffer.buffer sender.outBuffer.readIndex writeCount
        let taken := offered.take count
        let later := { sender with
          accepted := sender.accepted ++ taken
          writes := sender.writes ++ [(sender.encoded.length - offered.length, taken.length)] }
        if (taken.length : Int) ≥ writeCount then some (finishWrite later) else some later
    | .again => some (finishWrite sender)
    | .failed => some sender

-- The callback loop reads the size of m_write_done again on every turn.
def callbackTurn (sender : Sender) (next : Nat) : Sender :=
  match sender.writeDone[next]? with
  | some entry => { sender with called := sender.called ++ [entry.serial], phase := .calling (next + 1) }
  | none => { sender with phase := .idle, writeDone := [] }

inductive SenderAction where
  | reply (messages : List TinyPBProtocol)
  | push (message : TinyPBProtocol)
  | onWrite
  | write (result : WriteResult)
  | callback
deriving DecidableEq, Repr

-- One thread runs all of it, so nothing comes between two turns of the write
-- loop, but a done callback may push and reply.
def senderStep (sender : Sender) : SenderAction → Option Sender
  | .reply messages => if sender.phase = .writing then some sender else reply sender messages
  | .push message => if sender.phase = .writing then some sender else some (pushSendMessage sender message)
  | .onWrite => if sender.phase = .idle then startWrite sender else some sender
  | .write result => if sender.phase = .writing then writeTurn sender result else some sender
  | .callback =>
      match sender.phase with
      | .calling next => some (callbackTurn sender next)
      | _ => some sender

def newSender (connectionType : TcpConnectionType) (outBuffer : TcpBuffer) : Sender :=
  { connectionType := connectionType, outBuffer := outBuffer }

theorem finish_write_out (sender : Sender) : (finishWrite sender).outBuffer = sender.outBuffer ∧
    (finishWrite sender).state = sender.state ∧ (finishWrite sender).accepted = sender.accepted ∧
    (finishWrite sender).encoded = sender.encoded := by
  rw [finishWrite]
  split <;> exact ⟨rfl, rfl, rfl, rfl⟩

theorem callback_turn_out (sender : Sender) (next : Nat) : (callbackTurn sender next).outBuffer = sender.outBuffer ∧
    (callbackTurn sender next).state = sender.state ∧ (callbackTurn sender next).accepted = sender.accepted ∧
    (callbackTurn sender next).encoded = sender.encoded := by
  rw [callbackTurn]
  split <;> exact ⟨rfl, rfl, rfl, rfl⟩

theorem encode_conserves (messages : List TinyPBProtocol) (outBuffer : TcpBuffer) (ok : BufferOk outBuffer)
    (fits : EncodingFits messages outBuffer) :
    ∃ bytes sent next, encodedBytes messages = some bytes ∧ encode messages outBuffer = some (sent, next) ∧
      BufferOk next ∧ readable next = readable outBuffer ++ bytes := by
  obtain ⟨⟨sent, next⟩, encoded⟩ := encode_defined messages outBuffer ok fits
  obtain ⟨bytes, collected, nextOk, content⟩ := encode_appends messages sent outBuffer next ok encoded
  exact ⟨bytes, sent, next, collected, encoded, nextOk, content⟩

theorem reply_spec (sender : Sender) (messages : List TinyPBProtocol) (ok : BufferOk sender.outBuffer)
    (fits : EncodingFits messages sender.outBuffer) :
    ∃ bytes next, reply sender messages = some { sender with outBuffer := next, encoded := sender.encoded ++ bytes } ∧
      BufferOk next ∧ readable next = readable sender.outBuffer ++ bytes := by
  obtain ⟨bytes, sent, next, collected, encoded, nextOk, content⟩ := encode_conserves messages sender.outBuffer ok fits
  refine ⟨bytes, next, ?_, nextOk, content⟩
  simp only [reply, collected, encoded, Option.bind_eq_bind, Option.bind_some]

theorem start_write_spec (sender : Sender) (connected : sender.state = .connected)
    (client : sender.connectionType = .byClient) (ok : BufferOk sender.outBuffer)
    (fits : EncodingFits (sender.writeDone.map Queued.message) sender.outBuffer) :
    ∃ bytes sent next, startWrite sender = some { sender with
        outBuffer := next
        writeDone := List.zipWith (fun entry message => { entry with message := message }) sender.writeDone sent
        phase := .writing
        encoded := sender.encoded ++ bytes
        spans := sender.spans ++ spansFrom sender.encoded.length sender.writeDone } ∧
      encodedBytes (sender.writeDone.map Queued.message) = some bytes ∧ sent.length = sender.writeDone.length ∧
      BufferOk next ∧ readable next = readable sender.outBuffer ++ bytes := by
  obtain ⟨bytes, sent, next, collected, encoded, nextOk, content⟩ := encode_conserves _ sender.outBuffer ok fits
  have sameLength := encode_length _ sent sender.outBuffer next encoded
  rw [List.length_map] at sameLength
  refine ⟨bytes, sent, next, ?_, collected, sameLength, nextOk, content⟩
  simp only [startWrite, if_neg (not_not_intro connected), if_pos client, collected, encoded, Option.bind_eq_bind,
    Option.bind_some]

def spareBuffer : TcpBuffer := ⟨0, 0, 64, List.replicate 64 0⟩

theorem spare_buffer_ok : BufferOk spareBuffer := (new_tcp_buffer_ok 64 spareBuffer (by decide) (by decide)).1

def firstMessage : TinyPBProtocol := { msgId := [0x31], methodName := [0x70] }
def secondMessage : TinyPBProtocol := { msgId := [0x32], methodName := [0x70] }

end Rocket
