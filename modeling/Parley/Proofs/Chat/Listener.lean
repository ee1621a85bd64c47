import Parley.Chat.Listener
import Parley.Proofs.Client.Deeds

/-! The listeners of the chat service refuse an answer only if they cannot make sense of it, and
then nobody has heard of it. -/

namespace Parley.Chat

open Client

variable {listen : κ → Dispatcher κ ω}

/-- A listener of a kind. What an answer that the kind declares stands for is for `read` to say, and
`failed` makes an outcome of the cause of a failure. -/
def typed (kind : ListenerDescriptor) (read : UInt8 → Arguments → Except InvocationError ο)
    (failed : String → ο) (hear : ο → Callback κ ω) : Dispatcher κ ω where
  kind
  respond method args :=
    match read method args with
    | .ok outcome => hear outcome
    | .error error => .fail error
  fail cause := hear (failed cause)

theorem onTell_eq_typed (hear : TellOutcome → Callback κ ω) :
    onTell hear = typed tellListener TellOutcome.ofResponse .failed hear := by
  unfold onTell typed
  congr 1
  funext method args
  cases TellOutcome.ofResponse method args <;> rfl

theorem onConfirm_eq_typed (hear : ConfirmOutcome → Callback κ ω) :
    onConfirm hear =
      typed confirmListener (fun method _ => ConfirmOutcome.ofResponse method) .failed hear := by
  unfold onConfirm typed
  congr 1
  funext method args
  dsimp only
  cases ConfirmOutcome.ofResponse method <;> rfl

theorem lawful_typed {kind : ListenerDescriptor}
    {read : UInt8 → Arguments → Except InvocationError ο} {failed : String → ο}
    {hear : ο → Callback κ ω}
    (sure : ∀ outcome desk error desk', (hear outcome).run listen desk ≠ (.failed error, desk')) :
    (typed kind read failed hear).Lawful listen := by
  intro method args desk error desk' refused
  unfold typed at refused ⊢
  dsimp only at refused ⊢
  cases known : read method args with
  | ok outcome =>
    rw [known] at refused
    exact (sure outcome desk error desk' refused).elim
  | error refusal => rfl

theorem lawful_onTell {hear : TellOutcome → Callback κ ω}
    (sure : ∀ outcome desk error desk', (hear outcome).run listen desk ≠ (.failed error, desk')) :
    (onTell hear).Lawful listen := onTell_eq_typed hear ▸ lawful_typed sure

theorem lawful_onConfirm {hear : ConfirmOutcome → Callback κ ω}
    (sure : ∀ outcome desk error desk', (hear outcome).run listen desk ≠ (.failed error, desk')) :
    (onConfirm hear).Lawful listen := onConfirm_eq_typed hear ▸ lawful_typed sure

end Parley.Chat
