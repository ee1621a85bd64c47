import Parley.Chat.Vocabulary
import Parley.Client.Director

/-! The chat service as its clients see it: the calls, and listeners that hear of their outcome
in the words of the service. -/

namespace Parley.Chat

open Client

/-- What comes of saying a line to somebody. -/
inductive TellOutcome where
  | succeeded
  | succeededIdle (milliseconds : Int64)
  | failed (cause : String)
  deriving DecidableEq, Repr

/-- What comes of saying a line to everybody. -/
inductive ConfirmOutcome where
  | processed
  | failed (cause : String)
  deriving DecidableEq, Repr

/-- An answer that the kind of listener declares, but that nobody knows how to deliver. -/
def unhandled (method : UInt8) : InvocationError :=
  .failed ("m.unhandled_response_" ++ toString method.toNat)

def TellOutcome.ofResponse (method : UInt8) (args : Arguments) :
    Except InvocationError TellOutcome := do
  if method = tellSucceeded then return succeeded
  else if method = tellSucceededIdle then
    args.expectLength 1
    return succeededIdle (← args.long 0)
  else throw (unhandled method)

def ConfirmOutcome.ofResponse (method : UInt8) : Except InvocationError ConfirmOutcome :=
  if method = requestProcessed then .ok processed else .error (unhandled method)

/-- A listener that hears what came of saying a line to somebody. -/
def onTell (hear : TellOutcome → Callback κ ω) : Dispatcher κ ω where
  kind := tellListener
  respond method args :=
    match TellOutcome.ofResponse method args with
    | .ok outcome => hear outcome
    | .error error => .fail error
  fail cause := hear (.failed cause)

/-- A listener that hears what came of saying a line to everybody. -/
def onConfirm (hear : ConfirmOutcome → Callback κ ω) : Dispatcher κ ω where
  kind := confirmListener
  respond method _ :=
    match ConfirmOutcome.ofResponse method with
    | .ok outcome => hear outcome
    | .error error => .fail error
  fail cause := hear (.failed cause)

/-! Calls to the service at an oid. -/

def tellCall (chat : Oid) (target message : String) (listener : κ) : Call κ :=
  ⟨chat, tell, [.value (.str target), .value (.str message), .listener listener]⟩

def broadcastCall (chat : Oid) (message : String) (listener : κ) : Call κ :=
  ⟨chat, broadcast, [.value (.str message), .listener listener]⟩

def awayCall (chat : Oid) (message : String) : Call κ := ⟨chat, away, [.value (.str message)]⟩

/-- Keeps the first outcome that it is given. -/
def keepFirst (kept : Option α) (outcome : α) : Option α := kept.or (some outcome)

end Parley.Chat
