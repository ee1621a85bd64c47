import Parley.Connection.Manager

/-! The I/O side of a server on a network of byte queues.
A tick lets in who has come, flushes what was asked for, reads what has arrived, and goes on
writing where there is room again. -/

namespace Parley.Server

open Wire (Bytes)
open Connection

/-- A link to the server, and the connection that it has become once it was let in. -/
structure Line where
  address : String
  link : Link := {}
  connection : Option ConnectionId := none
  deriving DecidableEq, Repr

structure Gate where
  desk : Desk
  /-- The links to the server in the order in which they were made. -/
  lines : List Line := []
  /-- Bytes that may be under way to one client. -/
  room : Nat := 1048576
  deriving DecidableEq, Repr

namespace Gate

/-- Lets in who is at the other end of a line, unless that has happened before. -/
def acceptLine : Desk × List Line → Line → Desk × List Line
  | (desk, lines), line =>
    match line.connection with
    | some _ => (desk, lines ++ [line])
    | none =>
      (desk.accept line.address,
        lines ++ [{ line with connection := some desk.manager.nextId }])

def acceptAll (gate : Gate) : Gate :=
  let (desk, lines) := gate.lines.foldl acceptLine (gate.desk, [])
  { gate with desk, lines }

def link (gate : Gate) (id : ConnectionId) : Link :=
  ((gate.lines.find? (·.connection = some id)).map (·.link)).getD {}

/-- Works on a connection and its link; if that ends the connection, its socket is closed. -/
def onLine (gate : Gate) (id : ConnectionId) (work : Desk → Link → Desk × Link) : Gate :=
  match gate.desk.manager.find? id with
  | none => gate
  | some _ =>
    let (desk, link) := work gate.desk (gate.link id)
    let link := if (desk.manager.find? id).isNone then link.closeServer else link
    { gate with
      desk
      lines := gate.lines.map fun line =>
        if line.connection = some id then { line with link } else line }

def read (gate : Gate) (id : ConnectionId) : Gate :=
  gate.onLine id fun desk link =>
    let (answers, link) := link.readByServer
    (desk.read id answers, link)

def flush (gate : Gate) (id : ConnectionId) : Gate :=
  gate.onLine id fun desk link =>
    let (written, desk) := desk.flush id (link.toClient.writeAnswers gate.room)
    (desk, link.writtenByServer written)

/-- Deals with flush requests, if there was a wake-up. -/
def answerWake (gate : Gate) : Gate :=
  if gate.desk.outboxes.woken then
    let (ids, desk) := gate.desk.takeRequests
    let desk := { desk with outboxes := { desk.outboxes with woken := false } }
    ids.foldl flush { gate with desk }
  else gate

def waiting (gate : Gate) : List ConnectionId :=
  (gate.desk.manager.connections.filter (·.writableInterest)).map (·.id)

def tick (gate : Gate) : Gate :=
  let gate := gate.acceptAll.answerWake
  let gate := gate.desk.manager.ids.foldl read gate
  gate.waiting.foldl flush gate

/-- Writes out once more what a connection has to write, and closes it. -/
def sweep (gate : Gate) (id : ConnectionId) : Gate :=
  gate.onLine id fun desk link =>
    let (_, written, desk) := desk.pour id (link.toClient.writeAnswers gate.room)
    (desk.close id, link.writtenByServer written)

def shutdown (gate : Gate) : Gate := gate.desk.manager.ids.foldl sweep gate

def takeNotices (gate : Gate) : List Notice × Gate :=
  (gate.desk.notices, { gate with desk := { gate.desk with notices := [] } })

def dial (gate : Gate) (address : String) : Gate :=
  { gate with lines := gate.lines ++ [{ address }] }

end Gate

end Parley.Server
