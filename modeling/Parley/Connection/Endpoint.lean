import Parley.Connection.Basic

/-! A connection on its own, with its outbox and the link to its client. -/

namespace Parley.Connection

open Wire (Bytes IoError ProtocolError)

structure Endpoint where
  connection : Connection
  box : Outbox
  link : Link := {}
  deriving DecidableEq, Repr

namespace Endpoint

def new (id : ConnectionId) (address : String) (limit : Nat) : Endpoint where
  connection := { id, reader := { limit } }
  box := { id, address, limit }

def post (endpoint : Endpoint) (message : Message) : Except ProtocolError Endpoint :=
  (endpoint.box.post message).map fun box => { endpoint with box }

def read (endpoint : Endpoint) : ReadOutcome × Endpoint :=
  let (answers, link) := endpoint.link.readByServer
  let (outcome, connection) := endpoint.connection.readMessages answers
  (outcome, { endpoint with connection, link })

def flush (room : Nat) (endpoint : Endpoint) : Except IoError Bool × Endpoint :=
  let (result, written, box) := endpoint.box.flush (endpoint.link.toClient.writeAnswers room)
  (result, { endpoint with box, link := endpoint.link.writtenByServer written })

end Endpoint

end Parley.Connection
