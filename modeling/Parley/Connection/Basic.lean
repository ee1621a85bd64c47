import Parley.Connection.Socket
import Parley.Outbox

/-! Reading messages from a socket, and flushing an outbox to one. -/

namespace Parley

open Wire (Bytes FrameReader IoError ProtocolError)
open Connection (ReadAnswer WriteAnswer)

/-- What the I/O thread keeps for a connection, besides its outbox. -/
structure Connection where
  id : ConnectionId
  reader : FrameReader
  /-- The last flush has left something behind. -/
  awaitingWritable : Bool := false
  /-- The multiplexer has been asked to watch for room to write. -/
  writableInterest : Bool := false
  deriving DecidableEq, Repr

namespace Connection

structure ReadOutcome where
  messages : List Message
  ended : Bool
  error : Option ProtocolError
  deriving DecidableEq, Repr

/-- Feeds a reader from a socket until that has no more, and says whether it has ended or
failed. -/
def fill (reader : FrameReader) : List ReadAnswer → Bool × Option IoError × FrameReader
  | [] => (false, none, reader)
  | .data [] :: _ => (true, none, reader)
  | .data bytes :: rest => fill (reader.extend bytes) rest
  | .interrupted :: rest => fill reader rest
  | .wouldBlock :: _ => (false, none, reader)
  | .ended :: _ => (true, none, reader)
  | .failed error :: _ => (false, some error, reader)

/-- Reads all there is, and then takes the messages out. Of a failure of the socket and a frame
that is too long, the failure is reported. -/
def readMessages (connection : Connection) (answers : List ReadAnswer) :
    ReadOutcome × Connection :=
  let (ended, failure, reader) := fill connection.reader answers
  let (messages, tooLong, reader) := reader.drainMessages
  (⟨messages, ended, (failure.map .io).or tooLong⟩, { connection with reader })

/-- Writes bytes to a socket until none are left or it takes no more: what came of it, what was
written, and what is left. -/
def writeOut (written buffer : Bytes) : List WriteAnswer → Except IoError Bool × Bytes × Bytes
  | [] => (.ok buffer.isEmpty, written, buffer)
  | answer :: rest =>
    if buffer.isEmpty then (.ok true, written, buffer)
    else
      match answer with
      | .wouldBlock => (.ok false, written, buffer)
      | .interrupted => writeOut written buffer rest
      | .failed error => (.error error, written, buffer)
      | .accepted 0 => (.error writeZero, written, buffer)
      | .accepted count => writeOut (written ++ buffer.take count) (buffer.drop count) rest

end Connection

namespace Outbox

/-- Flushes to a socket: whether all is out, the bytes that were written, and the outbox. -/
def flush (box : Outbox) (answers : List WriteAnswer) : Except IoError Bool × Bytes × Outbox :=
  let (result, written, buffer) := Connection.writeOut [] box.buffer answers
  (result, written, { box with buffer })

end Outbox

end Parley
