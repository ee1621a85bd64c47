import Parley.Chat.Service
import Parley.Server.Lobby

/-! The chat service of a server: lines go from session to session. -/

namespace Parley.Chat

open Dispatch Server
open Wire (ProtocolError)

def line (target : Oid) (speaker text : String) : Message :=
  .event (.message target messageEvent [.str speaker, .str text])

def awayChange (client : Oid) (text : String) : Message :=
  .event (.attributeChanged client awayAttribute (.str text))

/-- What the speaker hears if a line cannot be delivered. -/
def relayFailure : ProtocolError → InvocationError
  | .frameTooLarge _ _ => .failed messageTooLong
  | error => error.toInvocationError

def sessions : Program (Lobby α) SessionTable := do
  match (← Program.get).table? with
  | some table => return table
  | none => .fail (.failed internalError)

def deliver (connection : ConnectionId) (message : Message) : Program (Lobby α) Unit := do
  let (result, lobby) := (← Program.get).post connection message
  match result with
  | .ok () => .write lobby (.done ())
  | .error error => .fail (relayFailure error)

/-- Says a line to one client. If that client is away, the speaker hears for how long. -/
def relayTell (caller : Caller) (target message : String) (listener : Nat) :
    Program (Lobby α) Unit := do
  match (← sessions).findByUsername? target with
  | none => .fail (.failed userNotOnline)
  | some session =>
    deliver session.connection (line session.oid caller.username message)
    match session.away with
    | none => succeed listener
    | some away => succeedIdle listener (.ofNat ((← Program.get).clock - away.since))

/-- Posts a line to the sessions in turn. Connections that are gone are passed over; a line that
is too long for one ends it. -/
def announce (speaker text : String) (lobby : Lobby α) :
    List Session → Option InvocationError × Lobby α
  | [] => (none, lobby)
  | session :: rest =>
    match lobby.post session.connection (line session.oid speaker text) with
    | (.error (.frameTooLarge length limit), lobby) =>
      (some (relayFailure (.frameTooLarge length limit)), lobby)
    | (_, lobby) => announce speaker text lobby rest

def relayBroadcast (caller : Caller) (message : String) (listener : Nat) :
    Program (Lobby α) Unit := do
  let table ← sessions
  let (failure, lobby) := announce caller.username message (← Program.get) table.sessions
  .write lobby (.done ())
  match failure with
  | some error => .fail error
  | none => confirm listener

/-- Notes that a client is away, or back, and tells the client itself. -/
def relayAway (caller : Caller) (message : String) : Program (Lobby α) Unit := do
  match (← sessions).find? caller.oid with
  | none => return
  | some session =>
    .modify fun lobby =>
      { lobby with sessions := lobby.sessions.setAway caller.oid message lobby.clock }
    deliver session.connection (awayChange caller.oid message)

def relay : Provider (Lobby α) := ⟨relayTell, relayBroadcast, relayAway⟩

end Parley.Chat
