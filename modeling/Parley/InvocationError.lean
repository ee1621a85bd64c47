import Parley.Value

/-! Why a call failed, and the text in which its caller hears of it. -/

namespace Parley

inductive ArgumentFault where
  | missing (kind : Kind)
  | mismatch (expected found : Kind)
  | arity (expected got : Nat)
  | other (text : String)
  deriving DecidableEq, Repr

namespace ArgumentFault

def text : ArgumentFault → String
  | missing kind => "missing " ++ kind.name ++ " argument"
  | mismatch expected found => "expected " ++ expected.name ++ ", found " ++ found.name
  | arity expected got =>
    "expected " ++ toString expected ++ " arguments, got " ++ toString got
  | other text => text

end ArgumentFault

inductive InvocationError where
  | noSuchTarget (oid : Oid)
  | unknownMethod (oid : Oid) (method : UInt8)
  | badArguments (index : Nat) (fault : ArgumentFault)
  | failed (reason : String)
  | sessionClosed
  | transport (reason : String)
  deriving DecidableEq, Repr

namespace InvocationError

def text : InvocationError → String
  | noSuchTarget oid => "no invocation target registered at oid " ++ toString oid.toInt
  | unknownMethod oid method =>
    "requested to dispatch unknown method " ++ toString method.toNat ++ " on oid "
      ++ toString oid.toInt
  | badArguments index fault => "bad argument " ++ toString index ++ ": " ++ fault.text
  | failed reason => reason
  | sessionClosed => "session closed"
  | transport reason => "transport failure: " ++ reason

/-- A wrong number of arguments is blamed on the first position that is missing or too many. -/
def badArity (expected got : Nat) : InvocationError :=
  badArguments (min got expected) (.arity expected got)

end InvocationError

end Parley
