import Parley.Message
import Parley.Descriptor

/-! What a client's own code does when it is called.
It reads and changes the client's state, makes further calls, may end the session, and returns,
fails or panics. Listeners go by names; what a name stands for is up to the client. -/

namespace Parley.Client

/-- An argument of a call that is about to be made: a value, or a listener to be parked. -/
inductive Argument (κ : Type) where
  | value (v : Value)
  | listener (name : κ)
  deriving DecidableEq, Repr

/-- A call that is about to be made. -/
structure Call (κ : Type) where
  target : Oid
  method : UInt8
  args : List (Argument κ)
  deriving DecidableEq, Repr

inductive Callback (κ ω : Type) where
  | done
  | fail (error : InvocationError)
  | panic (text : String)
  | read (next : ω → Callback κ ω)
  | write (state : ω) (next : Callback κ ω)
  | invoke (call : Call κ) (next : Except InvocationError Unit → Callback κ ω)
  | endSession (next : Callback κ ω)

namespace Callback

def modify (f : ω → ω) : Callback κ ω := read fun state => write (f state) done

end Callback

/-- What a parked listener does with its outcome: an answer that its kind knows, or failure. -/
structure Dispatcher (κ ω : Type) where
  kind : ListenerDescriptor
  respond : UInt8 → Arguments → Callback κ ω
  fail : String → Callback κ ω

end Parley.Client
