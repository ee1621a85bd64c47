import Parley.Outbox

/-! What all handlers of a server share: the sessions, the ways to post to connections, the time,
and whatever the server's own services keep.
The session table can be lost; every access to it fails from then on. -/

namespace Parley.Server

structure Lobby (α : Type) where
  sessions : SessionTable
  /-- The session table is no longer to be trusted. -/
  poisoned : Bool := false
  outboxes : Outboxes := {}
  /-- Milliseconds. -/
  clock : Nat := 0
  app : α

namespace Lobby

/-- The session table, unless it is lost. -/
def table? (lobby : Lobby α) : Option SessionTable :=
  if lobby.poisoned then none else some lobby.sessions

def post (lobby : Lobby α) (connection : ConnectionId) (message : Message) :
    Except Wire.ProtocolError Unit × Lobby α :=
  let (result, outboxes) := lobby.outboxes.post connection message
  (result, { lobby with outboxes })

/-- Posts a message to a connection and does not mind if it is refused. -/
def offer (lobby : Lobby α) (connection : ConnectionId) (message : Message) : Lobby α :=
  (lobby.post connection message).2

/-- Sends an answer to the client whose listener it is for, if that client still has a session. -/
def route (response : Response) (lobby : Lobby α) : Lobby α :=
  match lobby.table? >>= (·.find? response.token.callerOid) with
  | some session => lobby.offer session.connection (.response response)
  | none => lobby

end Lobby

end Parley.Server
