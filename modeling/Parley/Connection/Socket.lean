import Parley.Wire.Error
import Parley.Wire.Word

/-! Sockets: what they answer when they are read and written, and pairs of byte queues that answer
as connected sockets do. -/

namespace Parley.Connection

open Wire (Bytes IoError)

inductive ReadAnswer where
  | data (bytes : Bytes)
  | wouldBlock
  | interrupted
  | ended
  | failed (error : IoError)
  deriving DecidableEq, Repr

def ReadAnswer.size : ReadAnswer → Nat
  | data bytes => bytes.length
  | _ => 0

/-- How a socket answers an attempt to write: it takes so many bytes, or none for a reason. -/
inductive WriteAnswer where
  | accepted (count : Nat)
  | wouldBlock
  | interrupted
  | failed (error : IoError)
  deriving DecidableEq, Repr

def connectionReset : IoError := ⟨.connectionReset, "Connection reset by peer (os error 104)"⟩

def brokenPipe : IoError := ⟨.brokenPipe, "Broken pipe (os error 32)"⟩

def writeZero : IoError := ⟨.writeZero, "write zero"⟩

def interruption : IoError := ⟨.interrupted, "Interrupted system call (os error 4)"⟩

/-- One direction between two sockets. -/
structure Stream where
  /-- Written and not yet read. -/
  bytes : Bytes := []
  /-- The writer has written its last byte. -/
  ended : Bool := false
  /-- The writer has gone away without reading all that was sent to it. -/
  reset : Bool := false
  /-- The reader has gone away. -/
  refused : Bool := false
  deriving DecidableEq, Repr

namespace Stream

/-- What a reader hears that reads all there is. A reset is heard once, behind the bytes. -/
def readAnswers (stream : Stream) : List ReadAnswer :=
  (if stream.bytes.isEmpty then [] else [.data stream.bytes]) ++
    [if stream.reset then .failed connectionReset
     else if stream.ended then .ended else .wouldBlock]

def drained (stream : Stream) : Stream := { stream with bytes := [], reset := false }

/-- What a writer hears if `room` bytes may wait to be read. -/
def writeAnswers (room : Nat) (stream : Stream) : List WriteAnswer :=
  if stream.refused then [.failed brokenPipe]
  else
    let free := room - stream.bytes.length
    if free = 0 then [.wouldBlock] else [.accepted free, .wouldBlock]

/-- Bytes that were written are there to be read, unless the writer has ended or nobody will read
them. -/
def push (stream : Stream) (bytes : Bytes) : Stream :=
  if stream.refused || stream.ended then stream
  else { stream with bytes := stream.bytes ++ bytes }

def finish (stream : Stream) : Stream := { stream with ended := true }

end Stream

/-- The two directions between a client and a server. -/
structure Link where
  toServer : Stream := {}
  toClient : Stream := {}
  deriving DecidableEq, Repr

/-- The streams that one end writes and reads, after that end has gone away. An end goes away once:
what the other end is to hear of it stays. -/
def hangUp (outgoing incoming : Stream) : Stream × Stream :=
  if incoming.refused then (outgoing, incoming)
  else
    ({ outgoing with ended := true, reset := !incoming.bytes.isEmpty },
      { incoming with bytes := [], refused := true })

namespace Link

def readByServer (link : Link) : List ReadAnswer × Link :=
  (link.toServer.readAnswers, { link with toServer := link.toServer.drained })

def readByClient (link : Link) : List ReadAnswer × Link :=
  (link.toClient.readAnswers, { link with toClient := link.toClient.drained })

def writtenByServer (link : Link) (bytes : Bytes) : Link :=
  { link with toClient := link.toClient.push bytes }

def writtenByClient (link : Link) (bytes : Bytes) : Link :=
  { link with toServer := link.toServer.push bytes }

def closeClient (link : Link) : Link :=
  let (toServer, toClient) := hangUp link.toServer link.toClient
  ⟨toServer, toClient⟩

def closeServer (link : Link) : Link :=
  let (toClient, toServer) := hangUp link.toClient link.toServer
  ⟨toServer, toClient⟩

end Link

end Parley.Connection
