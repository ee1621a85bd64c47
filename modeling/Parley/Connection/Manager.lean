import Parley.Connection.Basic
import Parley.Readiness.ReadySet

/-! The connections of a server.
Each socket that is ready is read or flushed. What comes in is passed on, but for pings, which
are answered here, and logoffs, which close the connection. However a connection ends, its outbox
is closed first, and its end is passed on once. -/

namespace Parley.Connection

open Wire (Bytes IoError)
open Readiness (ReadyEvent)

/-- What the connections have to tell. -/
inductive Notice where
  | received (connection : ConnectionId) (message : Message)
  | closed (connection : ConnectionId)
  deriving DecidableEq, Repr

def listenerToken : Nat := 0

def wakerToken : Nat := 1

def firstConnection : ConnectionId := 2

structure Manager where
  /-- The frame limit of all connections, in both directions. -/
  limit : Nat
  connections : List Connection := []
  nextId : ConnectionId := firstConnection
  deriving DecidableEq, Repr

/-- The connections together with their outboxes, and what they have told so far. -/
structure Desk where
  manager : Manager
  outboxes : Outboxes
  notices : List Notice := []
  deriving DecidableEq, Repr

namespace Manager

def ids (manager : Manager) : List ConnectionId := manager.connections.map (·.id)

def find? (manager : Manager) (id : ConnectionId) : Option Connection :=
  manager.connections.find? (·.id = id)

def replace (manager : Manager) (connection : Connection) : Manager :=
  { manager with
    connections := manager.connections.map fun c =>
      if c.id = connection.id then connection else c }

def erase (manager : Manager) (id : ConnectionId) : Manager :=
  { manager with connections := manager.connections.filter (·.id ≠ id) }

end Manager

namespace Desk

def accept (desk : Desk) (address : String) : Desk :=
  let id := desk.manager.nextId
  let limit := desk.manager.limit
  { desk with
    manager := { desk.manager with
      connections := desk.manager.connections ++ [{ id, reader := { limit } }]
      nextId := id + 1 }
    outboxes := desk.outboxes.add { id, address, limit } }

/-- Somebody has come, but the multiplexer cannot watch the socket; the number is used up. -/
def turnAway (desk : Desk) : Desk :=
  { desk with manager := { desk.manager with nextId := desk.manager.nextId + 1 } }

/-- From now on nothing can be posted to a connection. -/
def shut (desk : Desk) (id : ConnectionId) : Desk :=
  { desk with outboxes := desk.outboxes.close id }

/-- Forgets a connection, and tells of its end. -/
def release (desk : Desk) (id : ConnectionId) : Desk :=
  { desk with
    manager := desk.manager.erase id
    notices := desk.notices ++ [.closed id] }

def close (desk : Desk) (id : ConnectionId) : Desk :=
  match desk.manager.find? id with
  | none => desk
  | some _ => (desk.shut id).release id

/-- Deals with messages in turn, and says whether one of them was a logoff; what is behind it
counts for nothing. -/
def receive (id : ConnectionId) (desk : Desk) : List Message → Bool × Desk
  | [] => (false, desk)
  | .ping time :: rest =>
    receive id { desk with outboxes := (desk.outboxes.post id (.pong time)).2 } rest
  | .logoff :: _ => (true, desk)
  | message :: rest =>
    receive id { desk with notices := desk.notices ++ [.received id message] } rest

def read (desk : Desk) (id : ConnectionId) (answers : List ReadAnswer) : Desk :=
  match desk.manager.find? id with
  | none => desk
  | some connection =>
    let (outcome, connection) := connection.readMessages answers
    let desk := { desk with manager := desk.manager.replace connection }
    let (loggedOff, desk) := desk.receive id outcome.messages
    if loggedOff || outcome.error.isSome || outcome.ended then desk.close id else desk

/-- Writes out what a connection has to write, as far as its socket takes it: what came of it, and
the bytes that were written. -/
def pour (desk : Desk) (id : ConnectionId) (answers : List WriteAnswer) :
    Except IoError Bool × Bytes × Desk :=
  match desk.outboxes.find? id with
  | none => (.ok true, [], desk)
  | some box =>
    let (result, written, box) := box.flush answers
    (result, written, { desk with outboxes := desk.outboxes.replace box })

/-- Has the multiplexer watch for room to write if something was left behind, and stop watching
when all is out. -/
def watch (desk : Desk) (connection : Connection) (done : Bool) : Desk :=
  if done = connection.awaitingWritable then
    let connection := { connection with awaitingWritable := !done, writableInterest := !done }
    { desk with manager := desk.manager.replace connection }
  else desk

/-- Writes to a connection, and says whether that has failed, and which bytes were written. -/
def write (desk : Desk) (id : ConnectionId) (answers : List WriteAnswer) : Bool × Bytes × Desk :=
  match desk.manager.find? id with
  | none => (false, [], desk)
  | some connection =>
    match desk.pour id answers with
    | (.error _, written, desk) => (true, written, desk)
    | (.ok done, written, desk) => (false, written, desk.watch connection done)

/-- Flushes a connection, and gives the bytes that were written. A failure ends it. -/
def flush (desk : Desk) (id : ConnectionId) (answers : List WriteAnswer) : Bytes × Desk :=
  let (failed, written, desk) := desk.write id answers
  (written, if failed then desk.close id else desk)

/-- Takes the flush requests that have come in, each connection once and in ascending order. -/
def takeRequests (desk : Desk) : List ConnectionId × Desk :=
  (desk.outboxes.requested.eraseDups.mergeSort,
    { desk with outboxes := { desk.outboxes with requested := [] } })

end Desk

end Parley.Connection
