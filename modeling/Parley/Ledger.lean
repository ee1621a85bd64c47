import Parley.Message
import Parley.Chat.Vocabulary

/-! Answering listeners, each at most once.
A proxy stands for a listener on the side that answers it. Copies of a proxy share a slot of the
ledger, and a slot answers once. -/

namespace Parley

namespace Response

def failed (token : Token) (cause : String) : Response := ⟨token, requestFailed, [.str cause]⟩

def processed (token : Token) : Response := ⟨token, requestProcessed, []⟩

end Response

structure Proxy where
  slot : Nat
  token : Token
  deriving DecidableEq, Repr

structure Ledger where
  /-- Slots that have answered. -/
  answered : List Nat := []
  /-- Answers in the order in which they were given. -/
  posted : List Response := []
  deriving DecidableEq, Repr

namespace Ledger

def hasResponded (ledger : Ledger) (slot : Nat) : Bool := slot ∈ ledger.answered

/-- Answers through a slot, unless it has answered before, and says whether it did. -/
def respond (ledger : Ledger) (slot : Nat) (response : Response) : Bool × Ledger :=
  if ledger.hasResponded slot then (false, ledger)
  else (true, ⟨slot :: ledger.answered, ledger.posted ++ [response]⟩)

end Ledger

end Parley
