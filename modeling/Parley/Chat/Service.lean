import Parley.Dispatch.Registry

/-! The chat service as its provider sees it.
`Provider.table` takes the calls apart: what reaches the provider is a line of text and the
position of the listener that wants to hear of its fate. -/

namespace Parley.Chat

open Dispatch

structure Provider (σ : Type) where
  tell : Caller → (target message : String) → (listener : Nat) → Program σ Unit
  broadcast : Caller → (message : String) → (listener : Nat) → Program σ Unit
  away : Caller → (message : String) → Program σ Unit

namespace Provider

def onTell (provider : Provider σ) (caller : Caller) (args : Arguments) : Program σ Unit := do
  .ofExcept (args.expectLength 3)
  let _ ← Program.ofExcept (args.listener 2)
  let target ← .ofExcept (args.string 0)
  let message ← .ofExcept (args.string 1)
  provider.tell caller target message 2

def onBroadcast (provider : Provider σ) (caller : Caller) (args : Arguments) :
    Program σ Unit := do
  .ofExcept (args.expectLength 2)
  let _ ← Program.ofExcept (args.listener 1)
  let message ← .ofExcept (args.string 0)
  provider.broadcast caller message 1

def onAway (provider : Provider σ) (caller : Caller) (args : Arguments) : Program σ Unit := do
  .ofExcept (args.expectLength 1)
  let message ← .ofExcept (args.string 0)
  provider.away caller message

/-- The handlers of the service. They keep no state of their own. -/
def table [Inhabited τ] (provider : Provider σ) : DispatchTable τ σ where
  service := Chat.service
  entries := [
    ⟨Chat.tell, default, fun caller args => (provider.onTell caller args).onShared⟩,
    ⟨Chat.broadcast, default, fun caller args => (provider.onBroadcast caller args).onShared⟩,
    ⟨Chat.away, default, fun caller args => (provider.onAway caller args).onShared⟩]

end Provider

/-! The answers of the service. -/

def succeed (listener : Nat) : Program σ Unit := do
  let _ ← Program.answer listener tellSucceeded []

def succeedIdle (listener : Nat) (idle : Int64) : Program σ Unit := do
  let _ ← Program.answer listener tellSucceededIdle [.long idle]

def confirm (listener : Nat) : Program σ Unit := do
  let _ ← Program.answer listener requestProcessed []

end Parley.Chat
