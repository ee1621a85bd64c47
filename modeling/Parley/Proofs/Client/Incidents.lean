import Parley.Proofs.Client.Parking
import Parley.Proofs.History

/-! What happens at the desk of a client, told step by step.
The functions here run along with those of the desk and only watch: they tell which calls were
begun, posted and refused, what each listener was told, when the session ended, and where code of
the client panicked. -/

namespace Parley.Client

inductive Incident (κ : Type) where
  /-- The listeners of a call were parked. -/
  | began (call : Call κ) (tokens : List Token)
  /-- A call succeeded: its request was posted. -/
  | posted (call : Call κ) (tokens : List Token) (request : Request)
  /-- A call failed; its listeners, if they had been parked, were taken back. -/
  | refused (call : Call κ) (tokens : List Token) (error : InvocationError)
  /-- The dispatcher of a listener was given an answer, and took or refused it. -/
  | answered (token : Token) (name : κ) (response : Response) (refusal : Option InvocationError)
  /-- A listener was told of failure. -/
  | failed (token : Token) (name : κ) (cause : String)
  | ended
  | panicked (text : String)
  deriving DecidableEq, Repr

/-- What a listener can hear in the end. -/
inductive Outcome where
  | answer (response : Response)
  | failure (cause : String)
  deriving DecidableEq, Repr

namespace Incident

def ends : Incident κ → Bool
  | .ended => true
  | _ => false

/-- What can happen while the session has ended, or has not. The listeners of a call have a token
each; once the session has ended, calls are refused, and no listeners parked. -/
def Fits (ended : Bool) : Incident κ → Prop
  | .began call tokens => ended = false ∧ tokens.length = call.listeners.length
  | .posted call tokens _ => ended = false ∧ tokens.length = call.listeners.length
  | .refused _ tokens error => ended = true → tokens = [] ∧ error = .sessionClosed
  | _ => True

/-- The outcome of a listener, under its token. An answer that its dispatcher refuses is taken not
to have reached it. -/
def outcome? : Incident κ → Option (Token × κ × Outcome)
  | .answered token name response none => some (token, name, .answer response)
  | .failed token name cause => some (token, name, .failure cause)
  | _ => none

end Incident

def registered (history : List (Incident κ)) : List (Token × κ) :=
  history.flatMap fun | .began call tokens => tokens.zip call.listeners | _ => []

/-- The listeners of the calls that succeeded, with their tokens. -/
def entrusted (history : List (Incident κ)) : List (Token × κ) :=
  history.flatMap fun | .posted call tokens _ => tokens.zip call.listeners | _ => []

/-- The listeners that were taken back because their call failed, with their tokens. -/
def withdrawn (history : List (Incident κ)) : List (Token × κ) :=
  history.flatMap fun | .refused call tokens _ => tokens.zip call.listeners | _ => []

def requests (history : List (Incident κ)) : List Request :=
  history.filterMap fun | .posted _ _ request => some request | _ => none

def settled (history : List (Incident κ)) : List (Token × κ) :=
  history.filterMap fun incident => incident.outcome?.map fun (token, name, _) => (token, name)

def outcomes (token : Token) (history : List (Incident κ)) : List (κ × Outcome) :=
  history.filterMap fun incident => incident.outcome?.bind fun (heard, name, outcome) =>
    if heard = token then some (name, outcome) else none

def Quiet (history : List (Incident κ)) : Prop := ∀ text, .panicked text ∉ history

section

variable (history more : List (Incident κ))

theorem quiet_append : Quiet (history ++ more) ↔ Quiet history ∧ Quiet more := by
  simp only [Quiet, List.mem_append, not_or, forall_and]

@[simp] theorem registered_append :
    registered (history ++ more) = registered history ++ registered more := List.flatMap_append

@[simp] theorem entrusted_append :
    entrusted (history ++ more) = entrusted history ++ entrusted more := List.flatMap_append

@[simp] theorem withdrawn_append :
    withdrawn (history ++ more) = withdrawn history ++ withdrawn more := List.flatMap_append

@[simp] theorem requests_append :
    requests (history ++ more) = requests history ++ requests more := List.filterMap_append

@[simp] theorem settled_append :
    settled (history ++ more) = settled history ++ settled more := List.filterMap_append

theorem outcomes_append (token : Token) :
    outcomes token (history ++ more) = outcomes token history ++ outcomes token more :=
  List.filterMap_append

end

namespace Callback

def incidentsEnded : Callback κ ω → ω → List (Incident κ)
  | done, _ => []
  | fail _, _ => []
  | panic text, _ => [.panicked text]
  | read next, state => (next state).incidentsEnded state
  | write state next, _ => next.incidentsEnded state
  | invoke call next, state =>
    .refused call [] .sessionClosed :: (next (.error .sessionClosed)).incidentsEnded state
  | endSession next, state => .ended :: next.incidentsEnded state

/-- What a listener does once it has been told lets no other listener hear of anything. -/
theorem outcome?_incidentsEnded {callback : Callback κ ω} {state : ω} {incident : Incident κ}
    (mem : incident ∈ callback.incidentsEnded state) : incident.outcome? = none := by
  induction callback generalizing state with
  | done => cases mem
  | fail error => cases mem
  | panic text =>
    obtain rfl := List.mem_singleton.1 mem
    rfl
  | read next ih => exact ih state mem
  | write after next ih => exact ih mem
  | invoke call next ih =>
    obtain rfl | later := List.mem_cons.1 mem
    · rfl
    · exact ih (.error .sessionClosed) later
  | endSession next ih =>
    obtain rfl | later := List.mem_cons.1 mem
    · rfl
    · exact ih later

theorem panicked_mem_incidentsEnded {callback : Callback κ ω} {text : String} {state after : ω}
    (panics : callback.runEnded state = (.panicked text, after)) :
    .panicked text ∈ callback.incidentsEnded state := by
  induction callback generalizing state with
  | done => cases panics
  | fail error => cases panics
  | panic text =>
    cases panics
    exact List.mem_singleton_self _
  | read next ih => exact ih state panics
  | write state next ih => exact ih panics
  | invoke call next ih => exact List.mem_cons_of_mem _ (ih (.error .sessionClosed) panics)
  | endSession next ih => exact List.mem_cons_of_mem _ (ih panics)

end Callback

namespace Desk

variable (listen : κ → Dispatcher κ ω)

def beginIncident (desk : Desk κ ω) (call : Call κ) : Incident κ :=
  match desk.director.begin call with
  | (.error error, _) => .refused call [] error
  | (.ok (_, tokens), _) => .began call tokens

def concludeIncident (desk : Desk κ ω) (call : Call κ) (request : Request)
    (tokens : List Token) : Incident κ :=
  match (desk.conclude request tokens).1 with
  | .ok () => .posted call tokens request
  | .error error => .refused call tokens error

def callIncidents (desk : Desk κ ω) (call : Call κ) : List (Incident κ) :=
  desk.beginIncident call ::
    match desk.director.begin call with
    | (.error _, _) => []
    | (.ok (request, tokens), director) =>
      [{ desk with director }.concludeIncident call request tokens]

/-- A listener that panics is the last to hear of the end. -/
def dismissIncidents (state : ω) : List (Token × κ) → List (Incident κ)
  | [] => []
  | (token, name) :: rest =>
    let cause := InvocationError.sessionClosed.text
    let callback := (listen name).fail cause
    .failed token name cause :: callback.incidentsEnded state ++
      match callback.runEnded state with
      | (.panicked _, _) => []
      | (_, state) => dismissIncidents state rest

def endIncidents (desk : Desk κ ω) : List (Incident κ) :=
  .ended :: dismissIncidents listen desk.state desk.director.pending

end Desk

def Callback.incidents (listen : κ → Dispatcher κ ω) :
    Callback κ ω → Desk κ ω → List (Incident κ)
  | .done, _ => []
  | .fail _, _ => []
  | .panic text, _ => [.panicked text]
  | .read next, desk => (next desk.state).incidents listen desk
  | .write state next, desk => next.incidents listen { desk with state }
  | .invoke call next, desk =>
    let (result, desk') := desk.invoke call
    desk.callIncidents call ++ (next result).incidents listen desk'
  | .endSession next, desk =>
    desk.endIncidents listen ++
      match desk.endSession listen with
      | (.panicked _, _) => []
      | (_, desk) => next.incidents listen desk

namespace Desk

variable (listen : κ → Dispatcher κ ω)

def deliverIncidents (name : κ) (response : Response) (desk : Desk κ ω) : List (Incident κ) :=
  let dispatcher := listen name
  let token := response.token
  if (dispatcher.kind.methodName response.method).isNone then
    let cause := unknownResponse response.method
    .failed token name cause :: (dispatcher.fail cause).incidents listen desk
  else if response.method = requestFailed then
    let cause := (response.args.string 0).toOption.getD unknownCause
    .failed token name cause :: (dispatcher.fail cause).incidents listen desk
  else
    let callback := dispatcher.respond response.method response.args
    match callback.run listen desk with
    | (.failed error, desk') =>
      .answered token name response (some error) :: callback.incidents listen desk ++
        .failed token name error.text :: (dispatcher.fail error.text).incidents listen desk'
    | _ => .answered token name response none :: callback.incidents listen desk

def dispatchIncidents (desk : Desk κ ω) (response : Response) : List (Incident κ) :=
  match desk.director.take response.token with
  | (none, _) => []
  | (some name, director) => deliverIncidents listen name response { desk with director }

inductive Use (κ : Type) where
  | invoke (call : Call κ)
  | respond (response : Response)
  | endSession
  deriving DecidableEq, Repr

def perform (desk : Desk κ ω) : Use κ → List (Incident κ) × Desk κ ω
  | .invoke call => (desk.callIncidents call, (desk.invoke call).2)
  | .respond response =>
    (desk.dispatchIncidents listen response, (desk.dispatch listen response).2)
  | .endSession => (desk.endIncidents listen, (desk.endSession listen).2)

def run (desk : Desk κ ω) : List (Use κ) → List (Incident κ) × Desk κ ω
  | [] => ([], desk)
  | use :: rest =>
    let (incidents, desk) := desk.perform listen use
    let (more, desk) := desk.run rest
    (incidents ++ more, desk)

end Desk

end Parley.Client
