import Parley.Wire.Message

/-! Frames: the length of a body in four bytes, the highest first, then the body.
A `FrameReader` cuts the bodies out of a stream that arrives in pieces. -/

namespace Parley

namespace Wire

def headerLength : Nat := 4

/-- The length up to which bodies are taken unless something else is agreed. -/
def defaultMaxFrame : Nat := 524288

/-- The length is cut to its lowest 32 bits. -/
def frame (body : Bytes) : Bytes := (digits headerLength body.length).reverse ++ body

/-- What a stream begins with. -/
inductive Front where
  | more
  | body (body rest : Bytes)
  | tooLarge (length : Nat)
  deriving DecidableEq, Repr

/-- Looks at the first frame of a stream. A body that is too long is refused as soon as its
header is there. -/
def front (limit : Nat) : Bytes → Front
  | a :: b :: c :: d :: rest =>
    let length := ofDigits [d, c, b, a]
    if limit < length then .tooLarge length
    else
      let (body, rest) := rest.splitAt length
      if body.length = length then .body body rest else .more
  | _ => .more

/-- Cuts frames out of the bytes it has been given and not yet given back. -/
structure FrameReader where
  limit : Nat
  buffer : Bytes := []
  deriving DecidableEq, Repr

namespace FrameReader

def extend (reader : FrameReader) (bytes : Bytes) : FrameReader :=
  { reader with buffer := reader.buffer ++ bytes }

def buffered (reader : FrameReader) : Nat := reader.buffer.length

/-- The next body, if all of it is there. A frame that is too long stays where it is. -/
def next (reader : FrameReader) : Except ProtocolError (Option Bytes) × FrameReader :=
  match front reader.limit reader.buffer with
  | .more => (.ok none, reader)
  | .body body rest => (.ok (some body), { reader with buffer := rest })
  | .tooLarge length => (.error (.frameTooLarge length reader.limit), reader)

/-- Up to `count` bodies, then why there are no more: an error, or nothing yet. -/
def drainAtMost (reader : FrameReader) (taken : List Bytes) :
    (count : Nat) → List Bytes × Option ProtocolError × FrameReader
  | 0 => (taken.reverse, none, reader)
  | count + 1 =>
    match reader.next with
    | (.ok (some body), reader) => drainAtMost reader (body :: taken) count
    | (.ok none, reader) => (taken.reverse, none, reader)
    | (.error e, reader) => (taken.reverse, some e, reader)

/-- All bodies that are there, and the error that ends them, if one does. No body comes without
a header, so there are fewer of them than bytes, but for the empty buffer. -/
def drain (reader : FrameReader) : List Bytes × Option ProtocolError × FrameReader :=
  reader.drainAtMost [] (reader.buffer.length + 1)

/-- All messages that are there, without the bodies that are none, and the error that ends
them. -/
def drainMessages (reader : FrameReader) : List Message × Option ProtocolError × FrameReader :=
  let (bodies, error, reader) := reader.drain
  (bodies.filterMap fun body => (Message.decode body).toOption, error, reader)

end FrameReader

end Wire

namespace Message

def toFrame (message : Message) : Wire.Bytes := Wire.frame message.encode

end Message

end Parley
