import Parley.InvocationError

/-! Reading the arguments of a call by position and kind. -/

namespace Parley

abbrev Arguments := List Value

namespace Arguments

/-- The argument at a position, if it is there and `read` takes it for one of the kind. -/
def get (args : Arguments) (kind : Kind) (read : Value → Option α) (index : Nat) :
    Except InvocationError α :=
  match args[index]? with
  | none => .error (.badArguments index (.missing kind))
  | some value =>
    match read value with
    | none => .error (.badArguments index (.mismatch kind value.kind))
    | some a => .ok a

def bool (args : Arguments) : Nat → Except InvocationError Bool :=
  args.get .bool fun | .bool b => some b | _ => none

def int (args : Arguments) : Nat → Except InvocationError Int32 :=
  args.get .int fun | .int n => some n | _ => none

/-- An int is taken where a long is asked for, but not the other way round. -/
def long (args : Arguments) : Nat → Except InvocationError Int64 :=
  args.get .long fun | .long n => some n | .int n => some n.toInt64 | _ => none

def double (args : Arguments) : Nat → Except InvocationError UInt64 :=
  args.get .double fun | .double bits => some bits | _ => none

def string (args : Arguments) : Nat → Except InvocationError String :=
  args.get .string fun | .str s => some s | _ => none

def bytes (args : Arguments) : Nat → Except InvocationError (List UInt8) :=
  args.get .bytes fun | .bytes data => some data | _ => none

def list (args : Arguments) : Nat → Except InvocationError (List Value) :=
  args.get .list fun | .list items => some items | _ => none

def listener (args : Arguments) : Nat → Except InvocationError Token :=
  args.get .listener Value.token?

def expectLength (args : Arguments) (expected : Nat) : Except InvocationError Unit :=
  if args.length = expected then .ok () else .error (.badArity expected args.length)

/-- The listener at a position of the argument list itself. -/
def listenerAt? (args : Arguments) (index : Nat) : Option Token :=
  args[index]? >>= Value.token?

/-- Positions of the listeners, counted from `start`, with their tokens. -/
def listenersFrom (start : Nat) : Arguments → List (Nat × Token)
  | [] => []
  | value :: rest =>
    match value.token? with
    | some token => (start, token) :: listenersFrom (start + 1) rest
    | none => listenersFrom (start + 1) rest

/-- The listeners among the arguments, lowest position first. -/
def listeners (args : Arguments) : List (Nat × Token) := listenersFrom 0 args

def firstListener? (args : Arguments) : Option (Nat × Token) := args.listeners.head?

end Arguments

end Parley
