/-! Sockets that are ready, in the order in which they became so.
A socket stands in the set once; what it is ready for accumulates until it is taken out. -/

namespace Parley.Readiness

structure ReadyEvent where
  token : Nat
  readable : Bool
  writable : Bool
  closed : Bool
  deriving DecidableEq, Repr

namespace ReadyEvent

/-- Ready for whatever either event is ready for. -/
def merge (a b : ReadyEvent) : ReadyEvent :=
  ⟨a.token, a.readable || b.readable, a.writable || b.writable, a.closed || b.closed⟩

end ReadyEvent

abbrev ReadySet := List ReadyEvent

namespace ReadySet

def insert (event : ReadyEvent) : ReadySet → ReadySet
  | [] => [event]
  | first :: rest =>
    if first.token = event.token then first.merge event :: rest else first :: insert event rest

def insertAll (set : ReadySet) (events : List ReadyEvent) : ReadySet :=
  events.foldl (fun set event => set.insert event) set

def pop : ReadySet → Option ReadyEvent × ReadySet
  | [] => (none, [])
  | first :: rest => (some first, rest)

end ReadySet

end Parley.Readiness
