import Parley.Connection.Thread
import Parley.Server.Host

/-! A server at work: the thread that serves its sockets and the consumer of its queue take their
steps in any order.
What the thread has to tell goes into the queue at once. The queue is closed when the thread is
gone, and what it has accepted until then still runs. -/

namespace Parley.Server

open Connection

structure Runtime (τ α : Type) where
  hall : Hall τ α
  /-- The thread; the outboxes of its connections are those that the server posts to. -/
  thread : Thread

namespace Runtime

inductive Action where
  /-- The thread takes a step. -/
  | work (outside : Outside)
  /-- The consumer runs the oldest command. -/
  | serve
  | wait (milliseconds : Nat)
  /-- Whoever runs the server closes the queue, once the thread is gone. -/
  | shutdown
  deriving DecidableEq, Repr

def new [Inhabited τ] (maxClients maxFrame : Nat) (app : α) : Runtime τ α where
  hall := .new maxClients app
  thread := .new maxFrame

def work (runtime : Runtime τ α) (outside : Outside) : Runtime τ α :=
  let thread := runtime.thread.work outside
  { hall := Host.notify runtime.hall thread.desk.notices
    thread := { thread with desk := { thread.desk with notices := [] } } }

def server (runtime : Runtime τ α) : Server τ α :=
  runtime.hall.context.modifyLobby fun lobby =>
    { lobby with outboxes := runtime.thread.desk.outboxes }

def serve (runtime : Runtime τ α) : Runtime τ α :=
  let hall : Hall τ α := { runtime.hall with context := runtime.server }
  match hall.step? behave with
  | none => runtime
  | some hall =>
    let outboxes := hall.context.lobby.outboxes
    { hall, thread := { runtime.thread with desk := { runtime.thread.desk with outboxes } } }

def wait (runtime : Runtime τ α) (milliseconds : Nat) : Runtime τ α :=
  let context := runtime.hall.context.modifyLobby fun lobby =>
    { lobby with clock := lobby.clock + milliseconds }
  { runtime with hall := { runtime.hall with context } }

def perform (runtime : Runtime τ α) : Action → Runtime τ α
  | .work outside => runtime.work outside
  | .serve => runtime.serve
  | .wait milliseconds => runtime.wait milliseconds
  | .shutdown =>
    if runtime.thread.stage = .gone then { runtime with hall := runtime.hall.shutdown }
    else runtime

def run (runtime : Runtime τ α) (actions : List Action) : Runtime τ α :=
  actions.foldl perform runtime

end Runtime

end Parley.Server
