import Parley.Client.ObjectTable
import Parley.Client.Director
import Parley.ActionQueue

/-! What a client's queue works on: its calls, its picture of the objects, and its observers,
which are shown every message event. -/

namespace Parley.Client

/-- The code of a client: what its listeners and its observers do. -/
structure Code (κ ν ω : Type) where
  listen : κ → Dispatcher κ ω
  observe : ν → (target : Oid) → (name : String) → Arguments → Callback κ ω

structure Context (κ ν ω : Type) where
  desk : Desk κ ω
  objects : ObjectTable := []
  observers : List ν := []

/-- What can be put into a client's queue. -/
inductive Command (ν : Type) where
  | respond (response : Response)
  | apply (event : ObjectEvent)
  | endSession
  | addObserver (name : ν)
  deriving DecidableEq, Repr

namespace Context

variable (code : Code κ ν ω)

/-- Shows a message to observers in turn; one that panics ends it. -/
def present (target : Oid) (name : String) (args : Arguments) (desk : Desk κ ω) :
    List ν → Ending × Desk κ ω
  | [] => (.returned, desk)
  | observer :: rest =>
    match (code.observe observer target name args).run code.listen desk with
    | (.panicked text, desk) => (.panicked text, desk)
    | (_, desk) => present target name args desk rest

def apply (context : Context κ ν ω) (event : ObjectEvent) : Ending × Context κ ν ω :=
  let context := { context with objects := context.objects.apply event }
  match event with
  | .attributeChanged _ _ _ => (.returned, context)
  | .message target name args =>
    let (ending, desk) := present code target name args context.desk context.observers
    (ending, { context with desk })

def perform (context : Context κ ν ω) : Command ν → Ending × Context κ ν ω
  | .respond response =>
    let (ending, desk) := context.desk.dispatch code.listen response
    (ending, { context with desk })
  | .apply event => context.apply code event
  | .endSession =>
    let (ending, desk) := context.desk.endSession code.listen
    (ending, { context with desk })
  | .addObserver name => (.returned, { context with observers := context.observers ++ [name] })

def behave (command : Command ν) : Activity (Command ν) (Context κ ν ω) :=
  .read fun context =>
    match context.perform code command with
    | (.panicked text, context) => .write context (.panic text)
    | (_, context) => .write context .done

end Context

end Parley.Client
