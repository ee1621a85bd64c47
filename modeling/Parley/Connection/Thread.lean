import Parley.Connection.Manager

/-! The thread that serves the sockets of a server.
It asks the multiplexer which sockets are ready and deals with them one after the other, until it
is told to leave; then it flushes every connection once more and closes it. Between any two of its
steps other threads may post to the connections. -/

namespace Parley.Connection

open Readiness (ReadyEvent)

/-- What the thread has before it. -/
inductive Job where
  | attend (event : ReadyEvent)
  | read (id : ConnectionId)
  | flush (id : ConnectionId)
  /-- Flush once more, and close. -/
  | dismiss (id : ConnectionId)
  deriving DecidableEq, Repr

/-- What the thread is in the middle of. -/
inductive Task where
  | idle
  /-- Letting in who has come. -/
  | admitting
  /-- Dealing with what a connection has said, and whether the connection ends with that. -/
  | dealing (id : ConnectionId) (messages : List Message) (ended : Bool)
  | closing (id : ConnectionId)
  /-- Nothing can be posted to the connection any more, but its end has not been told. -/
  | shutting (id : ConnectionId)
  deriving DecidableEq, Repr

inductive Stage where
  | running
  | leaving
  | gone
  deriving DecidableEq, Repr

/-- What a step of the thread finds when it asks the system. -/
structure Outside where
  /-- The sockets that are ready; none if it is time to leave. -/
  ready : Option (List ReadyEvent) := none
  /-- The order in which the connections are gone through in the end. -/
  order : List ConnectionId := []
  /-- Who has come, and whether the multiplexer can watch the socket. -/
  comer : Option (String × Bool) := none
  incoming : List ReadAnswer := []
  outgoing : List WriteAnswer := []
  deriving DecidableEq, Repr

structure Thread where
  desk : Desk
  task : Task := .idle
  jobs : List Job := []
  stage : Stage := .running
  deriving DecidableEq, Repr

namespace Thread

def new (limit : Nat) : Thread := { desk := { manager := { limit }, outboxes := {} } }

/-- Asks for the sockets that are ready, if there is to be another round. A wake-up that is
reported is over with that. -/
def poll (thread : Thread) (outside : Outside) : Thread :=
  match outside.ready with
  | some events =>
    let outboxes := thread.desk.outboxes
    let woken := outboxes.woken && events.all (·.token ≠ wakerToken)
    { thread with
      desk := { thread.desk with outboxes := { outboxes with woken } }
      jobs := events.map .attend }
  | none =>
    let ids := thread.desk.manager.ids
    let order := if outside.order.Perm ids then outside.order else ids
    { thread with stage := .leaving, jobs := order.map .dismiss }

def attend (thread : Thread) (event : ReadyEvent) : Thread :=
  if event.token = listenerToken then { thread with task := .admitting }
  else if event.token = wakerToken then
    let (ids, desk) := thread.desk.takeRequests
    { thread with desk, jobs := ids.map .flush ++ thread.jobs }
  else
    let reading := if event.readable || event.closed then [.read event.token] else []
    let writing := if event.writable then [.flush event.token] else []
    { thread with jobs := reading ++ writing ++ thread.jobs }

def read (thread : Thread) (id : ConnectionId) (answers : List ReadAnswer) : Thread :=
  match thread.desk.manager.find? id with
  | none => thread
  | some connection =>
    let (outcome, connection) := connection.readMessages answers
    { thread with
      desk := { thread.desk with manager := thread.desk.manager.replace connection }
      task := .dealing id outcome.messages (outcome.error.isSome || outcome.ended) }

/-- Writes out once more what a connection has to write; then it is to be closed. -/
def dismiss (thread : Thread) (id : ConnectionId) (answers : List WriteAnswer) : Thread :=
  match thread.desk.manager.find? id with
  | none => thread
  | some _ =>
    let (_, _, desk) := thread.desk.pour id answers
    { thread with desk, task := .closing id }

def begin (thread : Thread) (outside : Outside) : Job → Thread
  | .attend event => thread.attend event
  | .read id => thread.read id outside.incoming
  | .flush id =>
    let (failed, _, desk) := thread.desk.write id outside.outgoing
    { thread with desk, task := if failed then .closing id else .idle }
  | .dismiss id => thread.dismiss id outside.outgoing

/-- Takes up the next job, or sees what there is to do if there is none. -/
def proceed (thread : Thread) (outside : Outside) : Thread :=
  match thread.jobs with
  | job :: jobs => { thread with jobs }.begin outside job
  | [] =>
    match thread.stage with
    | .running => thread.poll outside
    | .leaving => { thread with stage := .gone }
    | .gone => thread

/-- One step of the thread, of which others see one change at most. Its connections are its own:
one that ends is forgotten together with the telling of it. -/
def work (thread : Thread) (outside : Outside) : Thread :=
  match thread.task with
  | .idle => thread.proceed outside
  | .admitting =>
    match outside.comer with
    | none => { thread with task := .idle }
    | some (address, true) => { thread with desk := thread.desk.accept address }
    | some (_, false) => { thread with desk := thread.desk.turnAway }
  | .dealing id (message :: rest) ended =>
    let (loggedOff, desk) := thread.desk.receive id [message]
    { thread with desk, task := if loggedOff then .closing id else .dealing id rest ended }
  | .dealing id [] ended => { thread with task := if ended then .closing id else .idle }
  | .closing id =>
    match thread.desk.manager.find? id with
    | none => { thread with task := .idle }
    | some _ => { thread with desk := thread.desk.shut id, task := .shutting id }
  | .shutting id => { thread with desk := thread.desk.release id, task := .idle }

inductive Action where
  | work (outside : Outside)
  /-- Another thread, or whoever is told of what comes in, posts to a connection. -/
  | post (id : ConnectionId) (message : Message)
  deriving DecidableEq, Repr

def perform (thread : Thread) : Action → Thread
  | .work outside => thread.work outside
  | .post id message =>
    { thread with
      desk := { thread.desk with outboxes := (thread.desk.outboxes.post id message).2 } }

def run (thread : Thread) (actions : List Action) : Thread := actions.foldl perform thread

end Thread

end Parley.Connection
