import Rocket.TinyPBProtocol
import Rocket.Lib.WhileLoop

set_option autoImplicit false

namespace Rocket

open Memory Word32 WhileLoop

inductive TcpState where
  | notConnected
  | connected
  | halfClosing
  | closed
deriving DecidableEq, Repr

inductive TcpConnectionType where
  | byServer
  | byClient
deriving DecidableEq, Repr

-- An answer of read: at most as many of these bytes as were asked for (none at
-- the end of the file), EAGAIN, or another error.
inductive ReadResult where
  | data (bytes : Bytes)
  | again
  | failed
deriving DecidableEq, Repr

inductive ReadEnd where
  | execute
  | clear
deriving DecidableEq, Repr

structure Reading where
  inBuffer : TcpBuffer
  returned : Bytes := []
deriving DecidableEq, Repr

def readTurn (reading : Reading) (result : ReadResult) : Option (Flow Reading (ReadEnd × Reading)) := do
  let buf ←
    if writeAble reading.inBuffer = 0 then resizeBuffer reading.inBuffer (narrow (2 * reading.inBuffer.buffer.length))
    else some reading.inBuffer
  let readCount := writeAble buf
  match result with
  | .data bytes =>
      let bytes := bytes.take readCount.toNat
      if bytes = [] then some (.stop (.clear, { reading with inBuffer := buf }))
      else do
        let cells ← blit buf.buffer buf.writeIndex bytes
        let moved ← moveWriteIndex { buf with buffer := cells } bytes.length
        let later : Reading := ⟨moved, reading.returned ++ bytes⟩
        if (bytes.length : Int) = readCount then some (.next later) else some (.stop (.execute, later))
  | .again => some (.stop (.execute, { reading with inBuffer := buf }))
  | .failed => some (.next { reading with inBuffer := buf })

-- onRead up to the call of execute or clear that ends it.
def onRead (state : TcpState) (inBuffer : TcpBuffer) (results : List ReadResult) :
    Option (Flow Reading (ReadEnd × Reading)) :=
  if state ≠ .connected then some (.stop (.clear, ⟨inBuffer, []⟩)) else run readTurn ⟨inBuffer, []⟩ results

end Rocket
