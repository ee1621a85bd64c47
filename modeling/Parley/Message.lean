import Parley.Arguments

/-! What the two hosts say to each other. -/

namespace Parley

/-- A call of a method of the object at `target`. -/
structure Request where
  target : Oid
  method : UInt8
  args : Arguments
  deriving DecidableEq, Repr

/-- The answer to a call, addressed to the listener that was parked under `token`. -/
structure Response where
  token : Token
  method : UInt8
  args : Arguments
  deriving DecidableEq, Repr

/-- Something that happened to the object at `target`. -/
inductive ObjectEvent where
  | attributeChanged (target : Oid) (name : String) (value : Value)
  | message (target : Oid) (name : String) (args : Arguments)
  deriving DecidableEq, Repr

namespace ObjectEvent

def target : ObjectEvent → Oid
  | attributeChanged target _ _ => target
  | message target _ _ => target

end ObjectEvent

/-- A service that a server offers, and the oid at which it takes calls. -/
structure Binding where
  service : String
  oid : Oid
  deriving DecidableEq, Repr

inductive Message where
  | logon (version : UInt32) (username : String)
  | invocation (request : Request)
  | ping (time : UInt64)
  | logoff
  | bootstrap (clientOid : Oid) (services : List Binding)
  | response (response : Response)
  | event (event : ObjectEvent)
  | pong (time : UInt64)
  | failure (reason : String)
  deriving DecidableEq, Repr

/-- The version of these messages that both sides have to speak. -/
def protocolVersion : UInt32 := 1

def firstServiceOid : Nat := 1

def firstClientOid : Nat := 1000

end Parley
