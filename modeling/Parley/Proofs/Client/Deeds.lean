import Parley.Client.Context

/-! What a client does, told step by step.
The functions here run along with those of the client and only watch: they tell which calls were
begun, and which listeners heard what. A callback that fails before it has done anything is taken
not to have reached its listener. -/

namespace Parley.Client

inductive Deed (κ : Type) where
  /-- A call was begun: its listeners are parked, and its request can be posted. -/
  | begun (call : Call κ) (request : Request) (tokens : List Token)
  /-- A listener has an outcome: from an answer, or because the session is over. -/
  | heard (token : Token) (name : κ) (cause : Option Response)
  deriving DecidableEq, Repr

def Call.listeners (call : Call κ) : List κ :=
  call.args.filterMap fun | .listener name => some name | .value _ => none

def parked (deeds : List (Deed κ)) : List (Token × κ) :=
  deeds.flatMap fun | .begun call _ tokens => tokens.zip call.listeners | .heard _ _ _ => []

def informed (deeds : List (Deed κ)) : List (Token × κ) :=
  deeds.filterMap fun | .begun _ _ _ => none | .heard token name _ => some (token, name)

def replies (deeds : List (Deed κ)) : List Response :=
  deeds.filterMap fun | .begun _ _ _ => none | .heard _ _ cause => cause

@[simp] theorem parked_nil : parked ([] : List (Deed κ)) = [] := rfl

@[simp] theorem informed_nil : informed ([] : List (Deed κ)) = [] := rfl

@[simp] theorem parked_append (deeds more : List (Deed κ)) :
    parked (deeds ++ more) = parked deeds ++ parked more := List.flatMap_append

@[simp] theorem informed_append (deeds more : List (Deed κ)) :
    informed (deeds ++ more) = informed deeds ++ informed more := List.filterMap_append

@[simp] theorem replies_append (deeds more : List (Deed κ)) :
    replies (deeds ++ more) = replies deeds ++ replies more := List.filterMap_append

@[simp] theorem parked_heard (token : Token) (name : κ) (cause : Option Response)
    (deeds : List (Deed κ)) : parked (.heard token name cause :: deeds) = parked deeds := rfl

@[simp] theorem informed_heard (token : Token) (name : κ) (cause : Option Response)
    (deeds : List (Deed κ)) :
    informed (.heard token name cause :: deeds) = (token, name) :: informed deeds := rfl

@[simp] theorem parked_begun (call : Call κ) (request : Request) (tokens : List Token) :
    parked [.begun call request tokens] = tokens.zip call.listeners := List.append_nil _

@[simp] theorem informed_begun (call : Call κ) (request : Request) (tokens : List Token) :
    informed [.begun call request tokens] = [] := rfl

/-- The callback fails, and has done nothing before. -/
def Callback.refuses : Callback κ ω → ω → Bool
  | .fail _, _ => true
  | .read next, state => (next state).refuses state
  | _, _ => false

namespace Desk

variable (listen : κ → Dispatcher κ ω)

def callDeeds (desk : Desk κ ω) (call : Call κ) : List (Deed κ) :=
  match desk.director.begin call with
  | (.ok (request, tokens), _) => [.begun call request tokens]
  | (.error _, _) => []

/-- A listener that panics is the last to hear of the end. -/
def dismissDeeds (state : ω) : List (Token × κ) → List (Deed κ)
  | [] => []
  | (token, name) :: rest =>
    .heard token name none ::
      match ((listen name).fail InvocationError.sessionClosed.text).runEnded state with
      | (.panicked _, _) => []
      | (_, state) => dismissDeeds state rest

def endDeeds (desk : Desk κ ω) : List (Deed κ) :=
  dismissDeeds listen desk.state desk.director.pending

end Desk

def Callback.deeds (listen : κ → Dispatcher κ ω) : Callback κ ω → Desk κ ω → List (Deed κ)
  | .done, _ => []
  | .fail _, _ => []
  | .panic _, _ => []
  | .read next, desk => (next desk.state).deeds listen desk
  | .write state next, desk => next.deeds listen { desk with state }
  | .invoke call next, desk =>
    let (result, desk') := desk.invoke call
    desk.callDeeds call ++ (next result).deeds listen desk'
  | .endSession next, desk =>
    desk.endDeeds listen ++
      match desk.endSession listen with
      | (.panicked _, _) => []
      | (_, desk) => next.deeds listen desk

namespace Desk

variable (listen : κ → Dispatcher κ ω)

def deliverDeeds (name : κ) (response : Response) (desk : Desk κ ω) : List (Deed κ) :=
  let dispatcher := listen name
  let heard : Deed κ := .heard response.token name (some response)
  if (dispatcher.kind.methodName response.method).isNone then
    heard :: (dispatcher.fail (unknownResponse response.method)).deeds listen desk
  else if response.method = requestFailed then
    let cause := (response.args.string 0).toOption.getD unknownCause
    heard :: (dispatcher.fail cause).deeds listen desk
  else
    let callback := dispatcher.respond response.method response.args
    (if callback.refuses desk.state then [] else [heard]) ++ callback.deeds listen desk ++
      match callback.run listen desk with
      | (.failed error, desk) => heard :: (dispatcher.fail error.text).deeds listen desk
      | _ => []

def dispatchDeeds (desk : Desk κ ω) (response : Response) : List (Deed κ) :=
  match desk.director.take response.token with
  | (none, _) => []
  | (some name, director) => deliverDeeds listen name response { desk with director }

end Desk

namespace Context

variable (code : Code κ ν ω)

def presentDeeds (target : Oid) (name : String) (args : Arguments) (desk : Desk κ ω) :
    List ν → List (Deed κ)
  | [] => []
  | observer :: rest =>
    let callback := code.observe observer target name args
    callback.deeds code.listen desk ++
      match callback.run code.listen desk with
      | (.panicked _, _) => []
      | (_, desk) => presentDeeds target name args desk rest

def deeds (context : Context κ ν ω) : Command ν → List (Deed κ)
  | .respond response => context.desk.dispatchDeeds code.listen response
  | .apply (.attributeChanged _ _ _) => []
  | .apply (.message target name args) =>
    presentDeeds code target name args context.desk context.observers
  | .endSession => context.desk.endDeeds code.listen
  | .addObserver _ => []

end Context

/-- The listener refuses no answer once it has begun to deal with it. -/
def Dispatcher.Lawful (listen : κ → Dispatcher κ ω) (dispatcher : Dispatcher κ ω) : Prop :=
  ∀ method args desk error desk',
    (dispatcher.respond method args).run listen desk = (.failed error, desk') →
      (dispatcher.respond method args).refuses desk.state

def Code.Lawful (code : Code κ ν ω) : Prop := ∀ name, (code.listen name).Lawful code.listen

end Parley.Client
