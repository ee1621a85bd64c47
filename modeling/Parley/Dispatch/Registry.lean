import Parley.Dispatch.Chain

/-! The objects of a host that take calls, by oid, and the handling of a call.
A call that fails is reported to the first listener among its arguments, unless that listener
has already been answered. -/

namespace Parley.Dispatch

structure Registry (τ σ : Type) where
  /-- The registered chains, in ascending order of their oids. -/
  targets : List (Oid × Chain τ σ) := []
  /-- Where the search for a free oid begins. -/
  cursor : Nat := firstServiceOid

namespace Registry

def find? (registry : Registry τ σ) (oid : Oid) : Option (Chain τ σ) := registry.targets.lookup oid

def contains (registry : Registry τ σ) (oid : Oid) : Bool := (registry.find? oid).isSome

/-- Puts a chain at its place in ascending order, instead of one with the same oid. -/
def place (oid : Oid) (chain : Chain τ σ) : List (Oid × Chain τ σ) → List (Oid × Chain τ σ)
  | [] => [(oid, chain)]
  | first :: rest =>
    if oid < first.1 then (oid, chain) :: first :: rest
    else if oid = first.1 then (oid, chain) :: rest
    else first :: place oid chain rest

/-- The first free number from `cursor` on, or the one after `tries` that are not free. -/
def freeFrom (registry : Registry τ σ) (cursor : Nat) : (tries : Nat) → Nat
  | 0 => cursor
  | tries + 1 =>
    if registry.contains (Int32.ofNat cursor) then freeFrom registry (cursor + 1) tries
    else cursor

/-- Registers a chain under an oid that is free and has never been given out here before. -/
def register (registry : Registry τ σ) (chain : Chain τ σ) : Oid × Registry τ σ :=
  let free := registry.freeFrom registry.cursor registry.targets.length
  let oid := Int32.ofNat free
  (oid, ⟨place oid chain registry.targets, free + 1⟩)

/-- Registers a chain under the given oid, if it is free, and says whether it was. -/
def registerAt (registry : Registry τ σ) (oid : Oid) (chain : Chain τ σ) :
    Bool × Registry τ σ :=
  if registry.contains oid then (false, registry)
  else (true, { registry with targets := place oid chain registry.targets })

def clear (registry : Registry τ σ) (oid : Oid) : Bool × Registry τ σ :=
  (registry.contains oid,
    { registry with targets := registry.targets.filter fun target => target.1 ≠ oid })

/-- The registered objects, in ascending order of their oids. -/
def bindings (registry : Registry τ σ) : List Binding :=
  registry.targets.map fun (oid, chain) => ⟨chain.service.name, oid⟩

/-- Handles a call without reporting its failure. -/
def handle (sink : Response → σ → σ) (registry : Registry τ σ) (caller : Caller)
    (request : Request) (x : Exchange σ) : Outcome Unit × Registry τ σ × Exchange σ :=
  match registry.find? request.target with
  | none => (.failed (.noSuchTarget request.target), registry, x)
  | some chain =>
    let (outcome, chain, x) := chain.dispatch sink caller request x
    (outcome, { registry with targets := place request.target chain registry.targets }, x)

/-- Tells the first listener of a failure, unless it has been answered. -/
def report (sink : Response → σ → σ) (args : Arguments) (error : InvocationError)
    (x : Exchange σ) : Exchange σ :=
  match args.firstListener? with
  | none => x
  | some (position, token) =>
    let response := Response.failed token error.text
    match x.ledger.respond position response with
    | (true, ledger) => ⟨sink response x.state, ledger⟩
    | (false, ledger) => { x with ledger }

/-- Handles a call and reports its failure. A panic is passed on and not reported. -/
def dispatch (sink : Response → σ → σ) (registry : Registry τ σ) (caller : Caller)
    (request : Request) (state : σ) : Outcome Unit × Registry τ σ × Exchange σ :=
  match registry.handle sink caller request { state } with
  | (.failed error, registry, x) =>
    (.failed error, registry, report sink request.args error x)
  | ended => ended

end Registry

end Parley.Dispatch
