import Parley.Wire.Frame
import Parley.Session

/-! Posting messages to connections.
An outbox takes messages for one connection and holds their frames until they are flushed.
`Outboxes` are those of a host, with the connections that wait to be flushed. -/

namespace Parley

open Wire (Bytes ProtocolError)

structure Outbox where
  id : ConnectionId
  address : String
  /-- Bodies longer than this are refused, since the other side would not take them. -/
  limit : Nat
  closed : Bool := false
  buffer : Bytes := []
  deriving DecidableEq, Repr

namespace Outbox

def post (box : Outbox) (message : Message) : Except ProtocolError Outbox :=
  if box.closed then .error .closed
  else
    let body := message.encode
    let length := body.length
    if box.limit < length then .error (.frameTooLarge length box.limit)
    else .ok { box with buffer := box.buffer ++ Wire.frame body }

def close (box : Outbox) : Outbox := { box with closed := true }

def describe (box : Outbox) : String :=
  "ConnectionHandle \x7b id: " ++ toString box.id ++ ", addr: " ++ box.address ++ ", closed: "
    ++ (if box.closed then "true" else "false") ++ " \x7d"

end Outbox

structure Outboxes where
  boxes : List Outbox := []
  /-- A connection for every message that was accepted since flushes were last taken. -/
  requested : List ConnectionId := []
  /-- Whoever flushes has been woken up and has not noticed yet. -/
  woken : Bool := false
  deriving DecidableEq, Repr

namespace Outboxes

def find? (outboxes : Outboxes) (id : ConnectionId) : Option Outbox :=
  outboxes.boxes.find? (·.id = id)

def contains (outboxes : Outboxes) (id : ConnectionId) : Bool := (outboxes.find? id).isSome

def add (outboxes : Outboxes) (box : Outbox) : Outboxes :=
  { outboxes with boxes := outboxes.boxes ++ [box] }

def replace (outboxes : Outboxes) (box : Outbox) : Outboxes :=
  { outboxes with boxes := outboxes.boxes.map fun b => if b.id = box.id then box else b }

def close (outboxes : Outboxes) (id : ConnectionId) : Outboxes :=
  { outboxes with boxes := outboxes.boxes.map fun b => if b.id = id then b.close else b }

/-- Posts to a connection. An accepted message asks for a flush and wakes up whoever flushes. -/
def post (outboxes : Outboxes) (id : ConnectionId) (message : Message) :
    Except ProtocolError Unit × Outboxes :=
  match outboxes.find? id with
  | none => (.error .closed, outboxes)
  | some box =>
    match box.post message with
    | .error error => (.error error, outboxes)
    | .ok box =>
      let outboxes := outboxes.replace box
      (.ok (), { outboxes with requested := outboxes.requested ++ [id], woken := true })

end Outboxes

end Parley
