import Parley.Dispatch.Program

/-! Which handler takes a call.
A table holds the handlers of one service. A chain asks its tables in turn, and the first that
has a handler for the method takes the call. -/

namespace Parley.Dispatch

/-- The handler of a method, with the state that it keeps from call to call. -/
structure Entry (τ σ : Type) where
  method : UInt8
  state : τ
  handler : Handler τ σ

structure DispatchTable (τ σ : Type) where
  service : ServiceDescriptor
  entries : List (Entry τ σ) := []

/-- A handler was given for a method that the service does not declare. -/
structure UndeclaredMethod where
  service : String
  method : UInt8
  deriving DecidableEq, Repr

namespace UndeclaredMethod

def text (fault : UndeclaredMethod) : String :=
  fault.service ++ " declares no method " ++ toString fault.method.toNat

end UndeclaredMethod

namespace DispatchTable

def entry? (table : DispatchTable τ σ) (method : UInt8) : Option (Entry τ σ) :=
  table.entries.find? (·.method = method)

def handles (table : DispatchTable τ σ) (method : UInt8) : Bool := (table.entry? method).isSome

/-- Puts an entry in the place of the one for the same method, or at the end. -/
def put (entry : Entry τ σ) : List (Entry τ σ) → List (Entry τ σ)
  | [] => [entry]
  | first :: rest =>
    if first.method = entry.method then entry :: rest else first :: put entry rest

/-- Gives a method its handler; one that it had before is replaced. Whether the service declares the
method is looked at only in builds with debug assertions, which stop at one that it does not. -/
def declare (table : DispatchTable τ σ) (entry : Entry τ σ) :
    Except UndeclaredMethod (DispatchTable τ σ) :=
  match table.service.methodName entry.method with
  | some _ => .ok { table with entries := put entry table.entries }
  | none => .error ⟨table.service.name, entry.method⟩

def dispatch? (sink : Response → σ → σ) (table : DispatchTable τ σ) (caller : Caller)
    (request : Request) (x : Exchange σ) :
    Option (Outcome Unit × DispatchTable τ σ × Exchange σ) :=
  (table.entry? request.method).map fun entry =>
    let (outcome, y) := (entry.handler caller request.args).run
      (fun response state => (state.1, sink response state.2)) request.args
      ⟨(entry.state, x.state), x.ledger⟩
    (outcome, { table with entries := put { entry with state := y.state.1 } table.entries },
      ⟨y.state.2, y.ledger⟩)

end DispatchTable

structure Chain (τ σ : Type) where
  primary : DispatchTable τ σ
  bases : List (DispatchTable τ σ) := []

namespace Chain

def tables (chain : Chain τ σ) : List (DispatchTable τ σ) := chain.primary :: chain.bases

def service (chain : Chain τ σ) : ServiceDescriptor := chain.primary.service

/-- The name of a method, from the table that handles it. -/
def methodName (chain : Chain τ σ) (method : UInt8) : Option String := do
  let table ← chain.tables.find? (·.handles method)
  table.service.methodName method

/-- The first of the tables that handles the call, and what comes of it. -/
def dispatchAmong? (sink : Response → σ → σ) (caller : Caller) (request : Request)
    (x : Exchange σ) : List (DispatchTable τ σ) →
      Option (Outcome Unit × List (DispatchTable τ σ) × Exchange σ)
  | [] => none
  | table :: rest =>
    match table.dispatch? sink caller request x with
    | some (outcome, table, x) => some (outcome, table :: rest, x)
    | none =>
      (dispatchAmong? sink caller request x rest).map fun (outcome, rest, x) =>
        (outcome, table :: rest, x)

def dispatch (sink : Response → σ → σ) (chain : Chain τ σ) (caller : Caller) (request : Request)
    (x : Exchange σ) : Outcome Unit × Chain τ σ × Exchange σ :=
  match chain.primary.dispatch? sink caller request x with
  | some (outcome, primary, x) => (outcome, { chain with primary }, x)
  | none =>
    match dispatchAmong? sink caller request x chain.bases with
    | some (outcome, bases, x) => (outcome, { chain with bases }, x)
    | none => (.failed (.unknownMethod request.target request.method), chain, x)

end Chain

end Parley.Dispatch
