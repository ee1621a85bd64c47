import Parley.Message

/-! What a client knows of objects: the attributes that it has been told of. -/

namespace Parley.Client

abbrev Attributes := List (String × Value)

/-- Objects by oid, the one first heard of first. -/
abbrev ObjectTable := List (Oid × Attributes)

/-- Binds a key, in the place that it has already or at the end. -/
def bindKey [DecidableEq α] (key : α) (value : β) : List (α × β) → List (α × β)
  | [] => [(key, value)]
  | first :: rest => if first.1 = key then (key, value) :: rest else first :: bindKey key value rest

namespace ObjectTable

def attribute? (objects : ObjectTable) (oid : Oid) (name : String) : Option Value := do
  (← objects.lookup oid).lookup name

/-- Takes note of an event. Only changes of attributes leave anything to note. -/
def apply (objects : ObjectTable) : ObjectEvent → ObjectTable
  | .attributeChanged target name value =>
    bindKey target (bindKey name value ((objects.lookup target).getD [])) objects
  | .message _ _ _ => objects

end ObjectTable

end Parley.Client
