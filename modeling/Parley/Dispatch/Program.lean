import Parley.Ledger

/-! What the handler of a method does.
A handler reads and changes its state, answers the listeners among its arguments, and returns,
fails or panics. Listeners are named by their position, so a handler answers no other. -/

namespace Parley.Dispatch

/-- The client on whose behalf a call is handled. -/
structure Caller where
  oid : Oid
  username : String
  deriving DecidableEq, Repr

inductive Program (σ α : Type) where
  | done (a : α)
  | fail (error : InvocationError)
  | panic (text : String)
  | read (next : σ → Program σ α)
  | write (state : σ) (next : Program σ α)
  | hasResponded (position : Nat) (next : Bool → Program σ α)
  | respond (position : Nat) (method : UInt8) (args : Arguments) (next : Bool → Program σ α)

/-- How a call ended. -/
inductive Outcome (α : Type) where
  | returned (a : α)
  | failed (error : InvocationError)
  | panicked (text : String)
  deriving DecidableEq, Repr

/-- What a running handler works on: the state, and what has been answered. -/
structure Exchange (σ : Type) where
  state : σ
  ledger : Ledger := {}

namespace Program

protected def bind : Program σ α → (α → Program σ β) → Program σ β
  | done a, f => f a
  | fail error, _ => fail error
  | panic text, _ => panic text
  | read next, f => read fun state => (next state).bind f
  | write state next, f => write state (next.bind f)
  | hasResponded position next, f => hasResponded position fun b => (next b).bind f
  | respond position method args next, f => respond position method args fun b => (next b).bind f

instance : Monad (Program σ) where
  pure := done
  bind := Program.bind

def get : Program σ σ := read done

def modify (f : σ → σ) : Program σ Unit := read fun state => write (f state) (done ())

def ofExcept : Except InvocationError α → Program σ α
  | .ok a => done a
  | .error error => fail error

def answer (position : Nat) (method : UInt8) (args : Arguments) : Program σ Bool :=
  respond position method args done

def answered (position : Nat) : Program σ Bool := hasResponded position done

/-- The same on the second part of a larger state. -/
def onShared : Program σ α → Program (τ × σ) α
  | done a => done a
  | fail error => fail error
  | panic text => panic text
  | read next => read fun state => (next state.2).onShared
  | write shared next => read fun state => write (state.1, shared) next.onShared
  | hasResponded position next => hasResponded position fun b => (next b).onShared
  | respond position method args next => respond position method args fun b => (next b).onShared

/-- Runs a handler on the arguments of a call. Every answer that counts goes to `sink` at once. -/
def run (sink : Response → σ → σ) (args : Arguments) :
    Program σ α → Exchange σ → Outcome α × Exchange σ
  | done a, x => (.returned a, x)
  | fail error, x => (.failed error, x)
  | panic text, x => (.panicked text, x)
  | read next, x => (next x.state).run sink args x
  | write state next, x => next.run sink args { x with state }
  | hasResponded position next, x => (next (x.ledger.hasResponded position)).run sink args x
  | respond position method values next, x =>
    match args.listenerAt? position with
    | none => (next false).run sink args x
    | some token =>
      let response : Response := ⟨token, method, values⟩
      match x.ledger.respond position response with
      | (true, ledger) => (next true).run sink args ⟨sink response x.state, ledger⟩
      | (false, ledger) => (next false).run sink args { x with ledger }

end Program

/-- A handler works on a state of its own and on the state that all handlers share. -/
abbrev Handler (τ σ : Type) := Caller → Arguments → Program (τ × σ) Unit

end Parley.Dispatch
