import Mathlib.Algebra.Group.Nat.Defs
import Mathlib.Data.List.Nodup
import Mathlib.Data.List.Range
import Parley.Proofs.Oids
import Parley.Session

/-! The session table, whatever is done to it.
The sessions, the index of connections and the next oid stay consistent: every way to look up a
session finds the one that there is, there is room for no more than the limit, and the oids that
are given out count up. -/

namespace Parley

namespace SessionTable

variable {table after : SessionTable} {oid : Oid} {session : Session} {username : String}
  {connection : ConnectionId}

/-- The two maps and the counter go together. -/
structure Consistent (table : SessionTable) : Prop where
  oids : (table.byOid.map (·.1)).Nodup
  connections : (table.byConnection.map (·.1)).Nodup
  names : (table.sessions.map (·.username)).Nodup
  keyed : ∀ oid session, (oid, session) ∈ table.byOid → session.oid = oid
  indexed : ∀ connection oid, (connection, oid) ∈ table.byConnection ↔
    ∃ session, (oid, session) ∈ table.byOid ∧ session.connection = connection
  counted : ∀ oid session, (oid, session) ∈ table.byOid →
    ∃ n, n < table.nextOid ∧ n < 2 ^ 31 ∧ oid = .ofNat n
  room : table.byOid.length ≤ table.limit

theorem Consistent.empty (limit : Nat) : ({ limit } : SessionTable).Consistent :=
  ⟨List.nodup_nil, List.nodup_nil, List.nodup_nil, nofun, by simp, nofun, Nat.zero_le _⟩

section LookUp

variable (consistent : table.Consistent)

include consistent

theorem Consistent.find?_eq_some : table.find? oid = some session ↔ (oid, session) ∈ table.byOid :=
  lookup_eq_some_iff_mem consistent.oids

theorem Consistent.oidOf?_eq_some : table.oidOf? connection = some oid ↔
    ∃ session, table.find? oid = some session ∧ session.connection = connection := by
  rw [oidOf?, lookup_eq_some_iff_mem consistent.connections, consistent.indexed]
  simp only [consistent.find?_eq_some]

theorem Consistent.findByUsername?_eq_some : table.findByUsername? username = some session ↔
    session ∈ table.sessions ∧ session.username = username :=
  find?_eq_some_iff_mem consistent.names

theorem Consistent.mem_sessions :
    session ∈ table.sessions ↔ table.find? session.oid = some session := by
  rw [consistent.find?_eq_some]
  constructor
  · intro mem
    obtain ⟨⟨oid, session⟩, known, rfl⟩ := List.mem_map.1 mem
    rwa [consistent.keyed oid session known]
  · exact fun known => List.mem_map_of_mem known

variable {other : Session}

theorem Consistent.eq_of_find? (found : table.find? oid = some session)
    (mem : other ∈ table.sessions) (own : other.oid = oid) : other = session := by
  have known := consistent.mem_sessions.1 mem
  rw [own] at known
  exact Option.some.inj (known.symm.trans found)

theorem Consistent.eq_of_connection (mem : session ∈ table.sessions)
    (mem' : other ∈ table.sessions) (same : session.connection = other.connection) :
    session = other := by
  have known := consistent.mem_sessions.1 mem
  have known' := consistent.mem_sessions.1 mem'
  have indexed := consistent.oidOf?_eq_some.2 ⟨session, known, same⟩
  have indexed' := consistent.oidOf?_eq_some.2 ⟨other, known', rfl⟩
  have own : other.oid = session.oid := Option.some.inj (indexed'.symm.trans indexed)
  exact (consistent.eq_of_find? known mem' own).symm

theorem Consistent.nodup_connections : (table.sessions.map (·.connection)).Nodup :=
  (List.Nodup.of_map _ consistent.names).map_on fun _ mem _ mem' same =>
    consistent.eq_of_connection mem mem' same

end LookUp

def withoutAway (table : SessionTable) : SessionTable :=
  { table with byOid := table.byOid.map fun (oid, session) => (oid, { session with away := none }) }

theorem withoutAway_setAway (table : SessionTable) (oid : Oid) (text : String) (now : Nat) :
    (table.setAway oid text now).withoutAway = table.withoutAway := by
  unfold withoutAway setAway
  congr 1
  rw [List.map_map]
  refine List.map_congr_left fun entry _ => ?_
  dsimp only [Function.comp]
  split <;> rfl

theorem find?_setAway (table : SessionTable) (oid : Oid) (text : String) (now : Nat) (key : Oid) :
    (table.setAway oid text now).find? key = (table.find? key).map fun session =>
      if key = oid then
        { session with away := if text.isEmpty then none else some ⟨text, now⟩ }
      else session := by
  unfold setAway find?
  dsimp only
  induction table.byOid with
  | nil => rfl
  | cons first rest ih =>
    rw [List.map_cons, List.lookup_cons, List.lookup_cons]
    by_cases here : key = first.1
    · simp only [here, beq_self_eq_true, Option.map_some]
    · rw [beq_false_of_ne here]
      exact ih

section SameClients

variable (same : after.withoutAway = table.withoutAway)

include same

theorem mem_byOid_of_withoutAway (mem : (oid, session) ∈ after.byOid) : ∃ old,
    (oid, old) ∈ table.byOid ∧ old.oid = session.oid ∧ old.username = session.username ∧
      old.connection = session.connection := by
  have listed : (oid, { session with away := none }) ∈ after.withoutAway.byOid :=
    List.mem_map.2 ⟨_, mem, rfl⟩
  rw [same] at listed
  obtain ⟨⟨key, old⟩, known, both⟩ := List.mem_map.1 listed
  obtain ⟨rfl, equal⟩ := Prod.mk.inj both
  obtain ⟨own, name, place, -⟩ := Session.mk.inj equal
  exact ⟨old, known, own, name, place⟩

theorem map_byOid_of_withoutAway (f : Oid × Session → β)
    (blind : ∀ oid session, f (oid, { session with away := none }) = f (oid, session)) :
    after.byOid.map f = table.byOid.map f := by
  have lists := congrArg (·.byOid.map f) same
  simpa only [withoutAway, List.map_map, Function.comp_def, blind] using lists

theorem Consistent.of_withoutAway (consistent : table.Consistent) : after.Consistent := by
  have index : after.byConnection = table.byConnection := congrArg (·.byConnection) same
  have next : after.nextOid = table.nextOid := congrArg (·.nextOid) same
  have limit : after.limit = table.limit := congrArg (·.limit) same
  have keys := map_byOid_of_withoutAway same (·.1) fun _ _ => rfl
  have names := map_byOid_of_withoutAway same (·.2.username) fun _ _ => rfl
  refine ⟨?_, index ▸ consistent.connections, ?_, fun oid session mem => ?_,
    fun connection oid => ?_, fun oid session mem => ?_, ?_⟩
  · exact keys ▸ consistent.oids
  · have listed := consistent.names
    rw [sessions, List.map_map] at listed ⊢
    exact names ▸ listed
  · obtain ⟨old, known, own, -⟩ := mem_byOid_of_withoutAway same mem
    exact own ▸ consistent.keyed oid old known
  · rw [index, consistent.indexed]
    constructor
    · rintro ⟨session, mem, own⟩
      obtain ⟨new, known, -, -, equal⟩ := mem_byOid_of_withoutAway same.symm mem
      exact ⟨new, known, equal.trans own⟩
    · rintro ⟨session, mem, own⟩
      obtain ⟨old, known, -, -, equal⟩ := mem_byOid_of_withoutAway same mem
      exact ⟨old, known, equal.trans own⟩
  · obtain ⟨old, known, -⟩ := mem_byOid_of_withoutAway same mem
    rw [next]
    exact consistent.counted oid old known
  · have lengths := congrArg List.length keys
    simp only [List.length_map] at lengths
    rw [lengths, limit]
    exact consistent.room

end SameClients

theorem refusal?_eq_none (h : table.refusal? username connection = none) :
    table.oidOf? connection = none ∧ table.findByUsername? username = none ∧
      table.byOid.length < table.limit := by
  unfold refusal? at h
  split at h
  · cases h
  · split at h
    · cases h
    · split at h
      · cases h
      · simp_all

theorem add_eq_ok (h : table.add username connection = (.ok oid, after)) :
    table.refusal? username connection = none ∧ oid = .ofNat table.nextOid ∧
      after = { table with
        byOid := table.byOid ++ [(oid, { oid, username, connection })]
        byConnection := table.byConnection ++ [(connection, oid)]
        nextOid := table.nextOid + 1 } := by
  unfold add at h
  split at h
  · cases h
  · rename_i free
    cases h
    exact ⟨free, rfl, rfl⟩

theorem add_eq_error {refusal : LogonRefused}
    (h : table.add username connection = (.error refusal, after)) : after = table := by
  unfold add at h
  split at h
  · cases h
    rfl
  · cases h

/-- Whoever is refused is refused for a session that there is, or for the number of sessions. -/
theorem Consistent.refusal?_eq (consistent : table.Consistent) (username : String)
    (connection : ConnectionId) :
    table.refusal? username connection =
      if ∃ session ∈ table.sessions, session.connection = connection then some .alreadyLoggedOn
      else if ∃ session ∈ table.sessions, session.username = username then some .usernameInUse
      else if table.limit ≤ table.sessions.length then some .serverFull
      else none := by
  have busy : (table.oidOf? connection).isSome = true ↔
      ∃ session ∈ table.sessions, session.connection = connection := by
    rw [Option.isSome_iff_exists]
    constructor
    · rintro ⟨oid, known⟩
      obtain ⟨session, found, place⟩ := consistent.oidOf?_eq_some.1 known
      exact ⟨session, List.mem_map_of_mem (consistent.find?_eq_some.1 found), place⟩
    · rintro ⟨session, mem, place⟩
      exact ⟨session.oid,
        consistent.oidOf?_eq_some.2 ⟨session, consistent.mem_sessions.1 mem, place⟩⟩
  have taken : (table.findByUsername? username).isSome = true ↔
      ∃ session ∈ table.sessions, session.username = username := by
    simp [findByUsername?]
  have count : table.sessions.length = table.byOid.length := List.length_map _
  simp only [SessionTable.refusal?, busy, taken, count]

/-- A new session goes under a number that no session has had. -/
theorem Consistent.add (consistent : table.Consistent) (fresh : table.nextOid < 2 ^ 31)
    (added : table.add username connection = (.ok oid, after)) : after.Consistent := by
  obtain ⟨free, rfl, rfl⟩ := add_eq_ok added
  obtain ⟨noSession, noName, room⟩ := refusal?_eq_none free
  have newOid (session : Session) : (.ofNat table.nextOid, session) ∉ table.byOid := by
    intro mem
    obtain ⟨n, less, small, same⟩ := consistent.counted _ session mem
    have equal := ofNat_injective fresh small same
    omega
  have newConnection (oid : Oid) : (connection, oid) ∉ table.byConnection := by
    intro mem
    rw [← lookup_eq_some_iff_mem consistent.connections] at mem
    cases noSession.symm.trans mem
  have newName : ∀ session ∈ table.sessions, session.username ≠ username := by
    simpa [findByUsername?] using noName
  refine ⟨?_, ?_, ?_, fun oid session mem => ?_, fun c oid => ?_, fun oid session mem => ?_, ?_⟩
  · rw [List.map_append]
    refine consistent.oids.append (List.nodup_singleton _) (List.disjoint_singleton.2 fun mem => ?_)
    obtain ⟨⟨oid, session⟩, known, rfl⟩ := List.mem_map.1 mem
    exact newOid session known
  · rw [List.map_append]
    refine consistent.connections.append (List.nodup_singleton _)
      (List.disjoint_singleton.2 fun mem => ?_)
    obtain ⟨⟨connection, oid⟩, known, rfl⟩ := List.mem_map.1 mem
    exact newConnection oid known
  · rw [sessions, List.map_append, List.map_append]
    refine consistent.names.append (List.nodup_singleton _)
      (List.disjoint_singleton.2 fun mem => ?_)
    obtain ⟨session, known, same⟩ := List.mem_map.1 mem
    exact newName session known same
  · obtain mem | mem := List.mem_append.1 mem
    · exact consistent.keyed oid session mem
    · obtain ⟨rfl, rfl⟩ := Prod.mk.inj (List.mem_singleton.1 mem)
      rfl
  · rw [List.mem_append, consistent.indexed, List.mem_singleton]
    constructor
    · rintro (⟨session, mem, own⟩ | new)
      · exact ⟨session, List.mem_append_left _ mem, own⟩
      · obtain ⟨rfl, rfl⟩ := Prod.mk.inj new
        exact ⟨_, List.mem_append_right _ (List.mem_singleton_self _), rfl⟩
    · rintro ⟨session, mem, own⟩
      obtain mem | mem := List.mem_append.1 mem
      · exact .inl ⟨session, mem, own⟩
      · obtain ⟨rfl, rfl⟩ := Prod.mk.inj (List.mem_singleton.1 mem)
        exact .inr (by rw [← own])
  · obtain mem | mem := List.mem_append.1 mem
    · obtain ⟨n, less, known⟩ := consistent.counted oid session mem
      exact ⟨n, Nat.lt_succ_of_lt less, known⟩
    · obtain ⟨rfl, -⟩ := Prod.mk.inj (List.mem_singleton.1 mem)
      exact ⟨table.nextOid, Nat.lt_succ_self _, fresh, rfl⟩
  · rw [List.length_append]
    exact room

theorem Consistent.erase (consistent : table.Consistent) (known : (oid, session) ∈ table.byOid) :
    (table.erase oid session.connection).Consistent := by
  have fewer : (table.erase oid session.connection).byOid.Sublist table.byOid :=
    List.filter_sublist
  refine ⟨consistent.oids.sublist (fewer.map _),
    consistent.connections.sublist (List.filter_sublist.map _),
    consistent.names.sublist ((fewer.map _).map _),
    fun o s mem => consistent.keyed o s (fewer.subset mem), fun c o => ?_,
    fun o s mem => consistent.counted o s (fewer.subset mem),
    fewer.length_le.trans consistent.room⟩
  simp only [SessionTable.erase, List.mem_filter, decide_eq_true_eq]
  rw [consistent.indexed]
  constructor
  · rintro ⟨⟨s, mem, rfl⟩, other⟩
    refine ⟨s, ⟨mem, ?_⟩, rfl⟩
    rintro rfl
    have both := consistent.find?_eq_some.2 mem
    rw [consistent.find?_eq_some.2 known] at both
    exact other (congrArg _ (Option.some.inj both)).symm
  · rintro ⟨s, ⟨mem, other⟩, rfl⟩
    refine ⟨⟨s, mem, rfl⟩, fun same => other ?_⟩
    have both := (consistent.indexed s.connection o).2 ⟨s, mem, rfl⟩
    have own := (consistent.indexed s.connection oid).2 ⟨session, known, same.symm⟩
    rw [← lookup_eq_some_iff_mem consistent.connections] at both own
    exact Option.some.inj (both.symm.trans own)

theorem Consistent.remove (consistent : table.Consistent) (oid : Oid) :
    (table.remove oid).2.Consistent := by
  unfold SessionTable.remove
  split
  · rename_i session found
    exact consistent.erase (consistent.find?_eq_some.1 found)
  · exact consistent

theorem Consistent.removeByConnection (consistent : table.Consistent) (connection : ConnectionId) :
    (table.removeByConnection connection).2.Consistent := by
  unfold SessionTable.removeByConnection
  split
  · exact consistent.remove _
  · exact consistent

theorem Consistent.setAway (consistent : table.Consistent) (oid : Oid) (text : String)
    (now : Nat) : (table.setAway oid text now).Consistent :=
  consistent.of_withoutAway (table.withoutAway_setAway oid text now)

theorem Consistent.of_mem_setAway (consistent : table.Consistent) {text : String} {now : Nat}
    (mem : session ∈ (table.setAway oid text now).sessions) : ∃ old ∈ table.sessions,
      session = if old.oid = oid then
        { old with away := if text.isEmpty then none else some ⟨text, now⟩ } else old := by
  obtain ⟨entry, listed, rfl⟩ := List.mem_map.1 mem
  obtain ⟨⟨key, old⟩, known, rfl⟩ := List.mem_map.1 listed
  obtain rfl := consistent.keyed key old known
  exact ⟨old, List.mem_map_of_mem known, rfl⟩

theorem Consistent.connection_eq_iff (consistent : table.Consistent)
    (mem : (oid, session) ∈ table.byOid) :
    session.connection = connection ↔ table.oidOf? connection = some oid := by
  rw [consistent.oidOf?_eq_some, consistent.find?_eq_some.2 mem]
  simp

theorem Consistent.byOid_removeByConnection (consistent : table.Consistent)
    (connection : ConnectionId) : (table.removeByConnection connection).2.byOid =
      table.byOid.filter (·.2.connection ≠ connection) := by
  have owners (entry : Oid × Session) (mem : entry ∈ table.byOid) :
      entry.2.connection ≠ connection ↔ table.oidOf? connection ≠ some entry.1 :=
    not_congr (consistent.connection_eq_iff mem)
  unfold SessionTable.removeByConnection
  split
  · rename_i oid known
    obtain ⟨session, found, rfl⟩ := consistent.oidOf?_eq_some.1 known
    rw [SessionTable.remove, found]
    refine List.filter_congr fun entry mem => decide_eq_decide.2 ?_
    rw [owners entry mem, known, ne_eq, ne_eq, Option.some_inj, eq_comm]
  · rename_i known
    refine (List.filter_eq_self.2 fun entry mem => ?_).symm
    rw [decide_eq_true_eq, owners entry mem, known]
    exact nofun

theorem Consistent.oidOf?_removeByConnection (consistent : table.Consistent)
    (connection : ConnectionId) :
    (table.removeByConnection connection).2.oidOf? connection = none := by
  refine Option.eq_none_iff_forall_not_mem.2 fun oid indexed => ?_
  have rest := consistent.removeByConnection connection
  obtain ⟨session, found, place⟩ := rest.oidOf?_eq_some.1 indexed
  have stays := rest.find?_eq_some.1 found
  rw [consistent.byOid_removeByConnection, List.mem_filter] at stays
  exact of_decide_eq_true stays.2 place

inductive Operation where
  | add (username : String) (connection : ConnectionId)
  | remove (oid : Oid)
  | removeByConnection (connection : ConnectionId)
  | setAway (oid : Oid) (text : String) (now : Nat)
  deriving DecidableEq, Repr

def perform (table : SessionTable) : Operation → Option Oid × SessionTable
  | .add username connection =>
    ((table.add username connection).1.toOption, (table.add username connection).2)
  | .remove oid => (none, (table.remove oid).2)
  | .removeByConnection connection => (none, (table.removeByConnection connection).2)
  | .setAway oid text now => (none, table.setAway oid text now)

def run (table : SessionTable) : List Operation → List Oid × SessionTable
  | [] => ([], table)
  | operation :: rest =>
    let later := (table.perform operation).2.run rest
    ((table.perform operation).1.toList ++ later.1, later.2)

/-- What an operation leaves of the table: the limit, and the counter, which goes on by one with each
oid that it gives out. -/
structure Stepped (table : SessionTable) (oid? : Option Oid) (after : SessionTable) : Prop where
  limit : after.limit = table.limit
  nextOid : after.nextOid = table.nextOid + oid?.toList.length
  oid : ∀ oid ∈ oid?, oid = .ofNat table.nextOid

theorem stepped_remove (table : SessionTable) (oid : Oid) :
    table.Stepped none (table.remove oid).2 := by
  unfold SessionTable.remove
  split <;> exact ⟨rfl, rfl, nofun⟩

theorem stepped_perform (table : SessionTable) (operation : Operation) :
    table.Stepped (table.perform operation).1 (table.perform operation).2 := by
  cases operation with
  | add username connection =>
    rcases added : table.add username connection with ⟨refusal | oid, after⟩
    · obtain rfl := add_eq_error added
      simp only [perform, added, Except.toOption]
      exact ⟨rfl, rfl, nofun⟩
    · obtain ⟨-, rfl, rfl⟩ := add_eq_ok added
      simp only [perform, added, Except.toOption]
      exact ⟨rfl, rfl, by simp⟩
  | remove oid => exact table.stepped_remove oid
  | removeByConnection connection =>
    simp only [perform, SessionTable.removeByConnection]
    split
    · exact table.stepped_remove _
    · exact ⟨rfl, rfl, nofun⟩
  | setAway oid text now => exact ⟨rfl, rfl, nofun⟩

theorem Consistent.perform (consistent : table.Consistent) (operation : Operation)
    (fresh : table.nextOid + (table.perform operation).1.toList.length ≤ 2 ^ 31) :
    (table.perform operation).2.Consistent := by
  cases operation with
  | add username connection =>
    rcases added : table.add username connection with ⟨refusal | oid, after⟩
    · obtain rfl := add_eq_error added
      simp only [SessionTable.perform, added]
      exact consistent
    · simp only [SessionTable.perform, added, Except.toOption, Option.toList_some,
        List.length_singleton] at fresh ⊢
      exact consistent.add fresh added
  | remove oid => exact consistent.remove oid
  | removeByConnection connection => exact consistent.removeByConnection connection
  | setAway oid text now => exact consistent.setAway oid text now

theorem Consistent.run (consistent : table.Consistent) (operations : List Operation)
    (fresh : table.nextOid + (table.run operations).1.length ≤ 2 ^ 31) :
    (table.run operations).2.Consistent ∧ (table.run operations).2.limit = table.limit ∧
      (table.run operations).1 =
        (List.range' table.nextOid (table.run operations).1.length).map .ofNat := by
  induction operations generalizing table with
  | nil => exact ⟨consistent, rfl, rfl⟩
  | cons operation rest ih =>
    obtain ⟨limit, next, given⟩ := table.stepped_perform operation
    rw [SessionTable.run] at fresh ⊢
    dsimp only at fresh ⊢
    rw [List.length_append] at fresh ⊢
    have now := consistent.perform operation (by omega)
    obtain ⟨last, limit', oids⟩ := ih now (by rw [next]; omega)
    refine ⟨last, limit'.trans limit, ?_⟩
    rw [← List.range'_append_1, List.map_append, ← next, ← oids]
    congr 1
    cases out : (table.perform operation).1 with
    | none => rfl
    | some oid =>
      rw [given oid out]
      rfl

theorem run_append (table : SessionTable) (first second : List Operation) :
    (table.run (first ++ second)).2 = ((table.run first).2.run second).2 := by
  induction first generalizing table with
  | nil => rfl
  | cons operation rest ih => exact ih _

theorem nextOid_run (table : SessionTable) (operations : List Operation) :
    (table.run operations).2.nextOid = table.nextOid + (table.run operations).1.length := by
  induction operations generalizing table with
  | nil => rfl
  | cons operation rest ih =>
    have next := (table.stepped_perform operation).nextOid
    rw [SessionTable.run]
    dsimp only
    rw [ih, next, List.length_append]
    omega

/-- The table has come about from an empty one, and the oids have not run out. -/
def Reachable (table : SessionTable) : Prop :=
  ∃ limit operations,
    (({ limit } : SessionTable).run operations).1.length < 2 ^ 31 - firstClientOid ∧
    (({ limit } : SessionTable).run operations).2 = table

theorem Reachable.consistent (reachable : table.Reachable) : table.Consistent := by
  obtain ⟨limit, operations, few, rfl⟩ := reachable
  refine ((Consistent.empty limit).run operations ?_).1
  simp only [firstClientOid] at few ⊢
  omega

/-- Each way to look up a session finds just the sessions that are there under the oid, the
connection or the name. -/
theorem lookups_of_run (limit : Nat) (operations : List Operation)
    (few : (({ limit } : SessionTable).run operations).1.length < 2 ^ 31 - firstClientOid) :
    let (oids, table) := ({ limit } : SessionTable).run operations
    oids.map (·.toInt) = (List.range' firstClientOid oids.length).map Int.ofNat ∧
    (∀ oid session, table.find? oid = some session → session.oid = oid) ∧
    (∀ connection oid, table.oidOf? connection = some oid ↔
      ∃ session, table.find? oid = some session ∧ session.connection = connection) ∧
    (∀ username oid, (table.findByUsername? username).map (·.oid) = some oid ↔
      ∃ session, table.find? oid = some session ∧ session.username = username) ∧
    (∀ byOid, byOid.Perm table.byOid → ∀ username,
      ({ table with byOid }).findByUsername? username = table.findByUsername? username) ∧
    table.sessions.length ≤ limit ∧
    ∀ username connection refusal after,
      table.add username connection = (.error refusal, after) → after = table := by
  have fresh : firstClientOid + (({ limit } : SessionTable).run operations).1.length ≤ 2 ^ 31 := by
    simp only [firstClientOid] at few ⊢
    omega
  obtain ⟨consistent, limit', counted⟩ := (Consistent.empty limit).run operations fresh
  revert few fresh consistent limit' counted
  generalize ({ limit } : SessionTable).run operations = ran
  obtain ⟨oids, table⟩ := ran
  dsimp only
  intro few fresh consistent limit' counted
  refine ⟨?_, fun oid session found => ?_, fun connection oid => ?_, fun username oid => ?_,
    fun byOid perm username => ?_, ?_, fun username connection refusal after => add_eq_error⟩
  · conv_lhs => rw [counted]
    rw [List.map_map]
    refine List.map_congr_left fun n mem => ?_
    have small := (List.mem_range'_1.1 mem).2
    exact Int32.toInt_ofNat_of_lt (by omega)
  · exact consistent.keyed oid session (consistent.find?_eq_some.1 found)
  · exact consistent.oidOf?_eq_some
  · rw [Option.map_eq_some_iff]
    constructor
    · rintro ⟨session, found, rfl⟩
      obtain ⟨mem, own⟩ := consistent.findByUsername?_eq_some.1 found
      exact ⟨session, consistent.mem_sessions.1 mem, own⟩
    · rintro ⟨session, found, own⟩
      obtain rfl := consistent.keyed oid session (consistent.find?_eq_some.1 found)
      exact ⟨session,
        consistent.findByUsername?_eq_some.2 ⟨consistent.mem_sessions.2 found, own⟩, rfl⟩
  · have same : ({ table with byOid }).sessions.Perm table.sessions := perm.map _
    have names := ((same.map (·.username)).nodup_iff).2 consistent.names
    refine Option.ext fun session => ?_
    rw [consistent.findByUsername?_eq_some, ← same.mem_iff]
    exact find?_eq_some_iff_mem names
  · rw [sessions, List.length_map, ← limit']
    exact consistent.room

/-- One client comes back, and others are refused meanwhile. -/
def comeBack : List Operation :=
  [.add "a" 2, .add "a" 3, .add "b" 2, .add "b" 3, .add "c" 4, .setAway 1001 "lunch" 5,
    .removeByConnection 2, .remove 1000, .add "a" 2]

/-- A name and a connection are free again once their session has ended, its oid is not. -/
theorem lookups_of_run_comeBack :
    let (oids, table) := ({ limit := 2 } : SessionTable).run comeBack
    oids = [1000, 1001, 1002] ∧ table.oidOf? 2 = some 1002 ∧
    oids.map (·.toInt) = (List.range' firstClientOid oids.length).map Int.ofNat ∧
    ∃ session, table.find? 1002 = some session ∧ session.connection = 2 := by
  have few : (({ limit := 2 } : SessionTable).run comeBack).1.length < 2 ^ 31 - firstClientOid := by
    decide
  obtain ⟨oids, -, index, -⟩ := lookups_of_run 2 comeBack few
  exact ⟨by decide, by decide, oids, (index 2 1002).1 (by decide)⟩

end SessionTable

end Parley
