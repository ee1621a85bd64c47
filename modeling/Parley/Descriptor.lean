/-! Which methods a service or a kind of listener has, and under which ids.
`ServiceDescriptor.validate` and `ListenerDescriptor.validate` find the first thing wrong with a
declaration, in the order in which it is read. -/

namespace Parley

structure Method where
  name : String
  id : UInt8
  deriving DecidableEq, Repr

/-- Methods in the order of their declaration; of several with one name or id, look-up finds
the first. -/
abbrev MethodTable := List Method

namespace MethodTable

def idOf (table : MethodTable) (name : String) : Option UInt8 :=
  (table.find? (·.name = name)).map (·.id)

def nameOf (table : MethodTable) (id : UInt8) : Option String :=
  (table.find? (·.id = id)).map (·.name)

def ids (table : MethodTable) : List UInt8 := table.map (·.id)

end MethodTable

/-- What a declaration must not contain. -/
inductive DeclarationFault where
  | reservedId (method : Method)
  | sharedId (method other : Method)
  | declaredTwice (name : String)
  deriving DecidableEq, Repr

namespace DeclarationFault

/-- The complaint about the declaration of `owner`. -/
def text (owner : String) : DeclarationFault → String
  | reservedId method =>
    owner ++ ": method " ++ method.name ++ " has reserved id " ++ toString method.id.toNat
  | sharedId method other =>
    owner ++ ": " ++ method.name ++ " and " ++ other.name ++ " share id "
      ++ toString method.id.toNat
  | declaredTwice name => owner ++ ": " ++ name ++ " declared twice"

end DeclarationFault

namespace MethodTable

/-- The earliest later method that shares the id or the name of `method`, the id first. -/
def clash? (method : Method) : MethodTable → Option DeclarationFault
  | [] => none
  | other :: rest =>
    if other.id = method.id then some (.sharedId method other)
    else if other.name = method.name then some (.declaredTwice method.name)
    else clash? method rest

/-- The first fault of a table whose ids have to be at least `least`. -/
def fault? (least : UInt8) : MethodTable → Option DeclarationFault
  | [] => none
  | method :: rest =>
    if method.id < least then some (.reservedId method)
    else (clash? method rest).or (fault? least rest)

def validate (table : MethodTable) (least : UInt8) : Except DeclarationFault Unit :=
  match table.fault? least with
  | some fault => .error fault
  | none => .ok ()

end MethodTable

structure ServiceDescriptor where
  name : String
  methods : MethodTable
  deriving DecidableEq, Repr

namespace ServiceDescriptor

def methodId (service : ServiceDescriptor) (name : String) : Option UInt8 :=
  service.methods.idOf name

def methodName (service : ServiceDescriptor) (id : UInt8) : Option String :=
  service.methods.nameOf id

def validate (service : ServiceDescriptor) : Except DeclarationFault Unit :=
  service.methods.validate 1

end ServiceDescriptor

/-- The outcomes of a kind of listener, on top of the failure that every listener knows. -/
structure ListenerDescriptor where
  name : String
  methods : MethodTable
  deriving DecidableEq, Repr

/-- The outcome of a call that failed, which every kind of listener has. -/
def requestFailed : UInt8 := 0

def requestProcessed : UInt8 := 1

/-- The base of all kinds of listener: it hears of failure and of nothing else. -/
def invocationListener : ListenerDescriptor :=
  ⟨"InvocationListener", [⟨"request_failed", requestFailed⟩]⟩

def confirmListener : ListenerDescriptor :=
  ⟨"ConfirmListener", [⟨"request_processed", requestProcessed⟩]⟩

namespace ListenerDescriptor

def methodId (listener : ListenerDescriptor) (name : String) : Option UInt8 :=
  (listener.methods.idOf name).or (invocationListener.methods.idOf name)

def methodName (listener : ListenerDescriptor) (id : UInt8) : Option String :=
  (listener.methods.nameOf id).or (invocationListener.methods.nameOf id)

def validate (listener : ListenerDescriptor) : Except DeclarationFault Unit :=
  listener.methods.validate (requestFailed + 1)

end ListenerDescriptor

end Parley
