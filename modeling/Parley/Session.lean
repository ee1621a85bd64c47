import Parley.Message

/-! Who is logged on.
A session binds a client's oid to its name and its connection; a connection has at most one
session, and no two sessions share a name. -/

namespace Parley

abbrev ConnectionId := Nat

/-- A client's away text, and when it was set. -/
structure Away where
  text : String
  since : Nat
  deriving DecidableEq, Repr

structure Session where
  oid : Oid
  username : String
  connection : ConnectionId
  away : Option Away := none
  deriving DecidableEq, Repr

/-- Why nobody is let in. -/
inductive LogonRefused where
  | serverFull
  | alreadyLoggedOn
  | usernameInUse
  deriving DecidableEq, Repr

namespace LogonRefused

def text : LogonRefused → String
  | serverFull => "Server full"
  | alreadyLoggedOn => "Already logged on"
  | usernameInUse => "Username in use"

end LogonRefused

structure SessionTable where
  limit : Nat
  /-- The open sessions under their oids, the oldest first. -/
  byOid : List (Oid × Session) := []
  /-- The oid of the session that a connection has. -/
  byConnection : List (ConnectionId × Oid) := []
  nextOid : Nat := firstClientOid
  deriving DecidableEq, Repr

namespace SessionTable

/-- The open sessions, the oldest first. -/
def sessions (table : SessionTable) : List Session := table.byOid.map (·.2)

def find? (table : SessionTable) (oid : Oid) : Option Session := table.byOid.lookup oid

def oidOf? (table : SessionTable) (connection : ConnectionId) : Option Oid :=
  table.byConnection.lookup connection

def findByConnection? (table : SessionTable) (connection : ConnectionId) : Option Session :=
  table.oidOf? connection >>= table.find?

def findByUsername? (table : SessionTable) (username : String) : Option Session :=
  table.sessions.find? (·.username = username)

/-- Why a logon is refused, if it is; of several reasons the first of these. -/
def refusal? (table : SessionTable) (username : String) (connection : ConnectionId) :
    Option LogonRefused :=
  if (table.oidOf? connection).isSome then some .alreadyLoggedOn
  else if (table.findByUsername? username).isSome then some .usernameInUse
  else if table.limit ≤ table.byOid.length then some .serverFull
  else none

/-- Opens a session under an oid that no session has had. -/
def add (table : SessionTable) (username : String) (connection : ConnectionId) :
    Except LogonRefused Oid × SessionTable :=
  match table.refusal? username connection with
  | some refusal => (.error refusal, table)
  | none =>
    let oid := Int32.ofNat table.nextOid
    (.ok oid,
      { table with
        byOid := table.byOid ++ [(oid, { oid, username, connection })]
        byConnection := table.byConnection ++ [(connection, oid)]
        nextOid := table.nextOid + 1 })

/-- The oids have run out: one more session, and there is no next one to note. Only builds that
check for overflow notice it. -/
def exhausted (table : SessionTable) : Bool := 2147483647 ≤ table.nextOid

def erase (table : SessionTable) (oid : Oid) (connection : ConnectionId) : SessionTable :=
  { table with
    byOid := table.byOid.filter (·.1 ≠ oid)
    byConnection := table.byConnection.filter (·.1 ≠ connection) }

def remove (table : SessionTable) (oid : Oid) : Option Session × SessionTable :=
  match table.find? oid with
  | some session => (some session, table.erase oid session.connection)
  | none => (none, table)

def removeByConnection (table : SessionTable) (connection : ConnectionId) :
    Option Session × SessionTable :=
  match table.oidOf? connection with
  | some oid => table.remove oid
  | none => (none, table)

/-- Sets the away text of a client; the empty text says that it is back. -/
def setAway (table : SessionTable) (oid : Oid) (text : String) (now : Nat) : SessionTable :=
  let away := if text.isEmpty then none else some ⟨text, now⟩
  { table with
    byOid := table.byOid.map fun (key, session) =>
      (key, if key = oid then { session with away } else session) }

end SessionTable

end Parley
