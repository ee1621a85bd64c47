import Parley.Ledger

/-! The listeners of one call, as whoever handles it has them in hand.
Every listener among the arguments has a proxy. Copies of a proxy, and what a copy is narrowed to,
keep its slot, so they answer the listener once between them. -/

namespace Parley

/-- Answers through a proxy, and says whether the answer counted. -/
def Proxy.respond (proxy : Proxy) (method : UInt8) (values : Arguments) (ledger : Ledger) :
    Bool × Ledger :=
  ledger.respond proxy.slot ⟨proxy.token, method, values⟩

/-- The arguments of a call, with a proxy for each listener among them. -/
structure ProxiedArguments where
  args : Arguments
  /-- The proxies by position, the lowest first. -/
  proxies : List (Nat × Proxy)
  deriving DecidableEq, Repr

namespace ProxiedArguments

/-- Every listener gets a slot of its own, which is called after its position. -/
def new (args : Arguments) : ProxiedArguments :=
  ⟨args, args.listeners.map fun (position, token) => (position, ⟨position, token⟩)⟩

def listener (call : ProxiedArguments) (position : Nat) : Except InvocationError Proxy :=
  match call.proxies.lookup position with
  | some proxy => .ok proxy
  | none =>
    match call.args.listener position with
    | .error error => .error error
    | .ok _ => .error (.badArguments position (.other "expected listener"))

def firstListener? (call : ProxiedArguments) : Option Proxy := call.proxies.head?.map (·.2)

end ProxiedArguments

/-- What a listener is told, in the words of its kind. -/
inductive Verdict where
  | requestFailed (cause : String)
  | requestProcessed
  | tellSucceeded
  | tellSucceededIdle (milliseconds : Int64)
  deriving DecidableEq, Repr

namespace Verdict

def method : Verdict → UInt8
  | requestFailed _ => Parley.requestFailed
  | requestProcessed => Parley.requestProcessed
  | tellSucceeded => Chat.tellSucceeded
  | tellSucceededIdle _ => Chat.tellSucceededIdle

def values : Verdict → Arguments
  | requestFailed cause => [.str cause]
  | requestProcessed => []
  | tellSucceeded => []
  | tellSucceededIdle milliseconds => [.long milliseconds]

end Verdict

/-- How a proxy is held: as it is, or wrapped so that it only says what became of a line. -/
inductive Grip where
  | plain
  | tell
  deriving DecidableEq, Repr

/-- The verdicts that can be given through a proxy that is held so. -/
def Grip.gives : Grip → Verdict → Bool
  | plain, .requestFailed _ => true
  | plain, .requestProcessed => true
  | tell, .requestFailed _ => true
  | tell, .tellSucceeded => true
  | tell, .tellSucceededIdle _ => true
  | _, _ => false

/-- A proxy in hand, narrowed to a kind of listener. -/
structure Handle where
  proxy : Proxy
  kind : ListenerDescriptor := invocationListener
  grip : Grip := .plain
  deriving DecidableEq, Repr

structure Switchboard where
  call : ProxiedArguments
  /-- The handles that have been made, the latest last. -/
  handles : List Handle := []
  ledger : Ledger := {}
  deriving DecidableEq, Repr

namespace Switchboard

def new (args : Arguments) : Switchboard := { call := .new args }

/-- What can be done with the listeners of a call. Handles go by their number. -/
inductive Use where
  | listener (position : Nat)
  | firstListener
  | clone (handle : Nat)
  | typed (handle : Nat) (kind : ListenerDescriptor)
  | tell (handle : Nat)
  | token (handle : Nat)
  | hasResponded (handle : Nat)
  | respond (handle : Nat) (method : UInt8) (values : Arguments)
  | give (handle : Nat) (verdict : Verdict)
  deriving DecidableEq, Repr

inductive Result where
  | made (handle : Nat)
  | refused (error : InvocationError)
  | absent
  | token (token : Token)
  | flag (b : Bool)
  | given
  /-- There is no such handle, or it is not held so that it can do this. -/
  | impossible
  deriving DecidableEq, Repr

def make (board : Switchboard) (handle : Handle) : Result × Switchboard :=
  (.made board.handles.length, { board with handles := board.handles ++ [handle] })

/-- Does something with a handle that is held plainly. -/
def onPlain (board : Switchboard) (handle : Nat) (act : Handle → Result × Switchboard) :
    Result × Switchboard :=
  match board.handles[handle]? with
  | some held => if held.grip = .plain then act held else (.impossible, board)
  | none => (.impossible, board)

/-- Answers through a handle; the result is told whether the answer counted. -/
def answer (board : Switchboard) (held : Handle) (method : UInt8) (values : Arguments)
    (result : Bool → Result) : Result × Switchboard :=
  let (counted, ledger) := held.proxy.respond method values board.ledger
  (result counted, { board with ledger })

def perform (board : Switchboard) : Use → Result × Switchboard
  | .listener position =>
    match board.call.listener position with
    | .ok proxy => board.make { proxy }
    | .error error => (.refused error, board)
  | .firstListener =>
    match board.call.firstListener? with
    | some proxy => board.make { proxy }
    | none => (.absent, board)
  | .clone handle => board.onPlain handle board.make
  | .typed handle kind => board.onPlain handle fun held => board.make { held with kind }
  | .tell handle => board.onPlain handle fun held =>
      board.make { held with kind := Chat.tellListener, grip := .tell }
  | .token handle => board.onPlain handle fun held => (.token held.proxy.token, board)
  | .hasResponded handle => board.onPlain handle fun held =>
      (.flag (board.ledger.hasResponded held.proxy.slot), board)
  | .respond handle method values => board.onPlain handle fun held =>
      board.answer held method values .flag
  | .give handle verdict =>
    match board.handles[handle]? with
    | some held =>
      if held.grip.gives verdict then
        board.answer held verdict.method verdict.values fun _ => .given
      else (.impossible, board)
    | none => (.impossible, board)

/-- The board after some uses, one after the other. -/
def after (board : Switchboard) (uses : List Use) : Switchboard :=
  uses.foldl (fun board use => (board.perform use).2) board

def responded? (board : Switchboard) (handle : Nat) : Option Bool :=
  board.handles[handle]?.map fun held => board.ledger.hasResponded held.proxy.slot

end Switchboard

end Parley
