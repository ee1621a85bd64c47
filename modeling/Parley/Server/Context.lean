import Parley.Chat.Relay
import Parley.ActionQueue

/-! A server: its services, its sessions, and the commands that connections give it.
A connection logs on, calls services and goes away. What it sends before it has logged on is
dropped, and so is a call with a listener that is not its own. -/

namespace Parley

open Dispatch Server

structure Server (τ α : Type) where
  registry : Registry τ (Lobby α)
  lobby : Lobby α

inductive Server.Command where
  | startSession (connection : ConnectionId) (version : UInt32) (username : String)
  | handleRequest (connection : ConnectionId) (request : Request)
  | endSession (connection : ConnectionId)
  deriving DecidableEq, Repr

namespace Server

/-- A server that offers chat and nothing else. -/
def new [Inhabited τ] (maxClients : Nat) (app : α) : Server τ α where
  registry := (Registry.register {} ⟨Chat.relay.table, []⟩).2
  lobby := { sessions := { limit := maxClients }, app }

def modifyLobby (server : Server τ α) (f : Lobby α → Lobby α) : Server τ α :=
  { server with lobby := f server.lobby }

def refuse (server : Server τ α) (connection : ConnectionId) (reason : String) : Server τ α :=
  server.modifyLobby (·.offer connection (.failure reason))

/-- The panic of whoever counts beyond the last oid, in builds that check for overflow. -/
def overflow : String := "attempt to add with overflow"

/-- Opens a session and says with which text that panicked, if it did: when the oids have run out,
the session table is lost. -/
def startSession (server : Server τ α) (connection : ConnectionId) (version : UInt32)
    (username : String) : Option String × Server τ α :=
  if version ≠ protocolVersion then
    (none, server.refuse connection "Protocol version mismatch")
  else
    match server.lobby.table? with
    | none => (none, server.refuse connection "Server error")
    | some table =>
      match table.add username connection with
      | (.error refusal, _) => (none, server.refuse connection refusal.text)
      | (.ok oid, sessions) =>
        if table.exhausted then (some overflow, server.modifyLobby ({ · with poisoned := true }))
        else
          (none, server.modifyLobby fun lobby =>
            { lobby with sessions }.offer connection (.bootstrap oid server.registry.bindings))

def endSession (server : Server τ α) (connection : ConnectionId) : Server τ α :=
  match server.lobby.table? with
  | none => server
  | some table =>
    server.modifyLobby fun lobby =>
      { lobby with sessions := (table.removeByConnection connection).2 }

def caller? (server : Server τ α) (connection : ConnectionId) : Option Caller := do
  let table ← server.lobby.table?
  let oid ← table.oidOf? connection
  let session ← table.find? oid
  return ⟨oid, session.username⟩

/-- Some listener among the arguments belongs to another client. -/
def isForged (caller : Caller) (args : Arguments) : Bool :=
  args.listeners.any fun (_, token) => token.callerOid ≠ caller.oid

/-- Handles a call, and says with which text its handler panicked, if it did. -/
def handleRequest (server : Server τ α) (connection : ConnectionId) (request : Request) :
    Option String × Server τ α :=
  match server.caller? connection with
  | none => (none, server)
  | some caller =>
    if isForged caller request.args then (none, server)
    else
      match server.registry.dispatch Lobby.route caller request server.lobby with
      | (.panicked text, registry, x) => (some text, ⟨registry, x.state⟩)
      | (_, registry, x) => (none, ⟨registry, x.state⟩)

def perform (server : Server τ α) : Command → Option String × Server τ α
  | .startSession connection version username =>
    server.startSession connection version username
  | .handleRequest connection request => server.handleRequest connection request
  | .endSession connection => (none, server.endSession connection)

def behave (command : Command) : Activity Command (Server τ α) :=
  .read fun server =>
    match server.perform command with
    | (none, server) => .write server .done
    | (some text, server) => .write server (.panic text)

/-- What a message from a connection asks for; most messages are not for a server. -/
def command? (connection : ConnectionId) : Message → Option Command
  | .logon version username => some (.startSession connection version username)
  | .invocation request => some (.handleRequest connection request)
  | _ => none

end Server

namespace Server

/-- A server behind the queue that its connections feed. -/
abbrev Hall (τ α : Type) := ActionQueue Command (Server τ α)

namespace Hall

def new [Inhabited τ] (maxClients : Nat) (app : α) : Hall τ α :=
  { context := Server.new maxClients app }

def receive (hall : Hall τ α) (connection : ConnectionId) (message : Message) : Hall τ α :=
  match command? connection message with
  | some command => (hall.enqueue command).2
  | none => hall

def disconnect (hall : Hall τ α) (connection : ConnectionId) : Hall τ α :=
  (hall.enqueue (.endSession connection)).2

/-- Runs the commands that are queued. They put no further ones into the queue. -/
def settle (hall : Hall τ α) : Hall τ α := hall.runPending behave hall.pending.length

end Hall

end Server

end Parley
