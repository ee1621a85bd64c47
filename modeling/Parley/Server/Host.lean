import Parley.Server.Context
import Parley.Server.Gate

/-! A running server: what comes in at its gate goes through its queue, and what its services post
goes out at the gate. -/

namespace Parley.Server

open Connection

structure Host (τ α : Type) where
  hall : Hall τ α
  /-- The gate; while nothing is being done its outboxes are those of the hall. -/
  gate : Gate

namespace Host

def new [Inhabited τ] (maxClients maxFrame : Nat) (app : α) : Host τ α where
  hall := .new maxClients app
  gate := { desk := { manager := { limit := maxFrame }, outboxes := {} } }

/-- Puts what the gate has noticed into the queue. -/
def notify (hall : Hall τ α) : List Notice → Hall τ α
  | [] => hall
  | .received connection message :: rest => notify (Hall.receive hall connection message) rest
  | .closed connection :: rest => notify (Hall.disconnect hall connection) rest

/-- Runs what is queued, on the outboxes of the gate. -/
def runHall (host : Host τ α) : Host τ α :=
  let context := host.hall.context.modifyLobby fun lobby =>
    { lobby with outboxes := host.gate.desk.outboxes }
  let hall : Hall τ α := { host.hall with context }
  let hall := Hall.settle hall
  let desk := { host.gate.desk with outboxes := hall.context.lobby.outboxes }
  { hall, gate := { host.gate with desk } }

def attend (host : Host τ α) : List Notice × Host τ α :=
  let (notices, gate) := host.gate.takeNotices
  (notices, (Host.mk (notify host.hall notices) gate).runHall)

def tick (host : Host τ α) : List Notice × Host τ α :=
  let host := { host with gate := host.gate.tick }
  host.attend

def stop (host : Host τ α) : List Notice × Host τ α :=
  let host := { host with gate := host.gate.shutdown }
  let (notices, host) := host.attend
  (notices, { host with hall := host.hall.finish behave })

end Host

end Parley.Server
