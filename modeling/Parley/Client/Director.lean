import Parley.Client.Callback
import Parley.Wire.Error

/-! Calls that wait for their answers.
A director parks the listeners of its calls under tokens, and gives each of them one outcome: the
answer that comes for its token, a failure if that answer makes no sense, or the news that the
session is over. Making a call takes two steps, parking and posting, between which other things
may happen; a call that cannot be posted takes its listeners back. -/

namespace Parley.Client

open Wire (ProtocolError)

structure Director (κ : Type) where
  oid : Oid
  /-- The parked listeners, the oldest first. -/
  pending : List (Token × κ) := []
  nextRequest : UInt32 := 1
  closed : Bool := false
  deriving DecidableEq, Repr

namespace Director

def isPending (director : Director κ) (token : Token) : Bool :=
  director.pending.any (·.1 = token)

/-- The first request id from `id` on that no parked listener has, or the one after `tries` that
are taken. -/
def freeFrom (director : Director κ) (id : UInt32) : (tries : Nat) → UInt32
  | 0 => id
  | tries + 1 =>
    if director.isPending ⟨director.oid, id⟩ then freeFrom director (id + 1) tries else id

/-- Parks a listener under a token that is not in use. -/
def park (director : Director κ) (name : κ) : Token × Director κ :=
  let id := director.freeFrom director.nextRequest director.pending.length
  let token : Token := ⟨director.oid, id⟩
  (token, { director with pending := director.pending ++ [(token, name)], nextRequest := id + 1 })

/-- Parks all listeners among the arguments, and gives the arguments with tokens for them. -/
def parkAll (director : Director κ) : List (Argument κ) → Arguments × List Token × Director κ
  | [] => ([], [], director)
  | .value v :: rest =>
    let (args, tokens, director) := director.parkAll rest
    (v :: args, tokens, director)
  | .listener name :: rest =>
    let (token, director) := director.park name
    let (args, tokens, director) := director.parkAll rest
    (.listener token :: args, token :: tokens, director)

/-- The first step of a call: it is turned into a request. -/
def begin (director : Director κ) (call : Call κ) :
    Except InvocationError (Request × List Token) × Director κ :=
  if director.closed then (.error .sessionClosed, director)
  else
    let (args, tokens, director) := director.parkAll call.args
    (.ok (⟨call.target, call.method, args⟩, tokens), director)

/-- Takes listeners back that were parked for a call. -/
def withdraw (director : Director κ) (tokens : List Token) : Director κ :=
  { director with pending := director.pending.filter fun entry => entry.1 ∉ tokens }

def take (director : Director κ) (token : Token) : Option κ × Director κ :=
  (director.pending.lookup token, director.withdraw [token])

/-- Ends the session, and gives the listeners that are left without an answer. -/
def close (director : Director κ) : List κ × Director κ :=
  (director.pending.map (·.2), { director with pending := [], closed := true })

end Director

/-- Where calls are posted: what was accepted and has not been sent yet, and the error with
which everything is refused, if it is. -/
structure Outgoing where
  messages : List Message := []
  refusal : Option ProtocolError := none
  /-- What the next posts hear, each its own, ahead of all others. -/
  answers : List (Option ProtocolError) := []
  deriving DecidableEq, Repr

namespace Outgoing

def post (outgoing : Outgoing) (message : Message) : Except ProtocolError Unit × Outgoing :=
  let answers := outgoing.answers.tail
  match outgoing.answers.headD outgoing.refusal with
  | some error => (.error error, { outgoing with answers })
  | none => (.ok (), { outgoing with messages := outgoing.messages ++ [message], answers })

end Outgoing

/-- A client's calls, and the state of its own code. -/
structure Desk (κ ω : Type) where
  director : Director κ
  outgoing : Outgoing := {}
  state : ω

/-- How code of the client ended. -/
inductive Ending where
  | returned
  | failed (error : InvocationError)
  | panicked (text : String)
  deriving DecidableEq, Repr

namespace Desk

variable (listen : κ → Dispatcher κ ω)

/-- The second step of a call: the request is posted, or its listeners are taken back. -/
def conclude (desk : Desk κ ω) (request : Request) (tokens : List Token) :
    Except InvocationError Unit × Desk κ ω :=
  match desk.outgoing.post (.invocation request) with
  | (.ok (), outgoing) => (.ok (), { desk with outgoing })
  | (.error error, outgoing) =>
    (.error error.toInvocationError,
      { desk with director := desk.director.withdraw tokens, outgoing })

def invoke (desk : Desk κ ω) (call : Call κ) : Except InvocationError Unit × Desk κ ω :=
  match desk.director.begin call with
  | (.error error, director) => (.error error, { desk with director })
  | (.ok (request, tokens), director) => { desk with director }.conclude request tokens

end Desk

namespace Callback

/-- Runs code once the session is over: calls are refused, and there is nothing left to end. -/
def runEnded : Callback κ ω → ω → Ending × ω
  | done, state => (.returned, state)
  | fail error, state => (.failed error, state)
  | panic text, state => (.panicked text, state)
  | read next, state => (next state).runEnded state
  | write state next, _ => next.runEnded state
  | invoke _ next, state => (next (.error .sessionClosed)).runEnded state
  | endSession next, state => next.runEnded state

end Callback

namespace Desk

variable (listen : κ → Dispatcher κ ω)

/-- Tells listeners in turn that the session is over; one that panics ends it. -/
def dismiss (state : ω) : List κ → Ending × ω
  | [] => (.returned, state)
  | name :: rest =>
    match ((listen name).fail InvocationError.sessionClosed.text).runEnded state with
    | (.panicked text, state) => (.panicked text, state)
    | (_, state) => dismiss state rest

/-- Ends the session: from here on calls are refused, and all parked listeners hear of it. -/
def endSession (desk : Desk κ ω) : Ending × Desk κ ω :=
  let (names, director) := desk.director.close
  let (ending, state) := dismiss listen desk.state names
  (ending, { desk with director, state })

end Desk

namespace Callback

def run (listen : κ → Dispatcher κ ω) : Callback κ ω → Desk κ ω → Ending × Desk κ ω
  | done, desk => (.returned, desk)
  | fail error, desk => (.failed error, desk)
  | panic text, desk => (.panicked text, desk)
  | read next, desk => (next desk.state).run listen desk
  | write state next, desk => next.run listen { desk with state }
  | invoke call next, desk =>
    let (result, desk) := desk.invoke call
    (next result).run listen desk
  | endSession next, desk =>
    match desk.endSession listen with
    | (.panicked text, desk) => (.panicked text, desk)
    | (_, desk) => next.run listen desk

end Callback

namespace Desk

variable (listen : κ → Dispatcher κ ω)

/-- What a listener that is told of failure without a reason takes for one. -/
def unknownCause : String := "m.internal_error"

/-- The failure that stands for an answer which the listener's kind does not know. -/
def unknownResponse (method : UInt8) : String :=
  "m.unknown_response_" ++ toString method.toNat

/-- Gives an answer to the listener it is for. An answer that the listener refuses becomes a
failure. -/
def deliver (dispatcher : Dispatcher κ ω) (response : Response) (desk : Desk κ ω) :
    Ending × Desk κ ω :=
  if (dispatcher.kind.methodName response.method).isNone then
    (dispatcher.fail (unknownResponse response.method)).run listen desk
  else if response.method = requestFailed then
    let cause := (response.args.string 0).toOption.getD unknownCause
    (dispatcher.fail cause).run listen desk
  else
    match (dispatcher.respond response.method response.args).run listen desk with
    | (.failed error, desk) => (dispatcher.fail error.text).run listen desk
    | ended => ended

/-- An answer has come. If nobody waits for it, nothing happens. -/
def dispatch (desk : Desk κ ω) (response : Response) : Ending × Desk κ ω :=
  match desk.director.take response.token with
  | (none, _) => (.returned, desk)
  | (some name, director) => deliver listen (listen name) response { desk with director }

end Desk

end Parley.Client
