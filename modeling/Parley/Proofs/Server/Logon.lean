import Parley.Proofs.Server.Confinement
import Parley.Proofs.Server.Traffic

/-! Who is let in.
A logon is decided by its version and by the sessions that there are. Whoever is refused hears why,
and nothing else happens; whoever is let in has a session under an oid that nobody has had, and
hears of that and of the services. -/

namespace Parley.Server

variable {server : Server τ α} {connection : ConnectionId} {version : UInt32}
  {username : String} {box : Outbox}

/-- Why a logon is refused, if it is; of several reasons the first of these. -/
def objection? (server : Server τ α) (connection : ConnectionId) (version : UInt32)
    (username : String) : Option String :=
  let sessions := server.lobby.sessions.sessions
  if version ≠ protocolVersion then some "Protocol version mismatch"
  else if ∃ session ∈ sessions, session.connection = connection then some "Already logged on"
  else if ∃ session ∈ sessions, session.username = username then some "Username in use"
  else if server.lobby.sessions.limit ≤ sessions.length then some "Server full"
  else none

def joined (table : SessionTable) (username : String) (connection : ConnectionId) :
    SessionTable :=
  let oid := Int32.ofNat table.nextOid
  { table with
    byOid := table.byOid ++ [(oid, { oid, username, connection })]
    byConnection := table.byConnection ++ [(connection, oid)]
    nextOid := table.nextOid + 1 }

section

variable {granted : ConnectionId → Oid → Prop}

theorem exists_operations_perform [Inhabited τ] (chat : server.registry = Chat.registry)
    (consistent : server.lobby.sessions.Consistent) (command : Command) :
    ∃ operations : List SessionTable.Operation,
      (server.perform command).2.lobby.sessions = (server.lobby.sessions.run operations).2 := by
  cases command with
  | startSession connection version username =>
    obtain ⟨-, same, -⟩ | ⟨oid, added, -⟩ := server.startSession_cases connection version username
    · exact ⟨[], same⟩
    · exact ⟨[.add username connection], (congrArg Prod.snd added).symm⟩
  | handleRequest connection request =>
    by_cases handled : ∃ caller, server.caller? connection = some caller ∧
        isForged caller request.args = false
    · obtain ⟨caller, found, honest⟩ := handled
      rw [perform, handleRequest_eq chat consistent found honest]
      cases Chat.Call.ofRequest request with
      | away text => exact ⟨[.setAway caller.oid text server.lobby.clock], rfl⟩
      | tell target text => exact ⟨[], rfl⟩
      | broadcast text => exact ⟨[], rfl⟩
      | other => exact ⟨[], rfl⟩
    · obtain ⟨same, -⟩ := handleRequest_eq_of_dropped fun caller found => by
        by_contra honest
        exact handled ⟨caller, found, by simpa using honest⟩
      rw [perform, same]
      exact ⟨[], rfl⟩
  | endSession connection =>
    rw [perform, endSession]
    cases known : server.lobby.table? with
    | none => exact ⟨[], rfl⟩
    | some table =>
      obtain ⟨-, rfl⟩ := table?_eq_some known
      exact ⟨[.removeByConnection connection], rfl⟩

theorem takeAll_append (server : Server τ α) (turns more : List Turn) :
    server.takeAll (turns ++ more) = (server.takeAll turns).takeAll more := List.foldl_append

theorem registry_takeAll [Inhabited τ] (sound : server.Sound granted)
    (chat : server.registry = Chat.registry) (turns : List Turn) :
    (server.takeAll turns).registry = Chat.registry := by
  induction turns generalizing server granted with
  | nil => exact chat
  | cons turn rest ih =>
    have met := sound.meet turn
    have still : (server.meet turn).registry = Chat.registry := chat
    exact ih (met.perform turn.command).sound (outboxes_perform still met.consistent turn.command).1

theorem exists_operations_takeAll [Inhabited τ] (sound : server.Sound granted)
    (chat : server.registry = Chat.registry) (turns : List Turn) :
    ∃ operations : List SessionTable.Operation,
      (server.takeAll turns).lobby.sessions = (server.lobby.sessions.run operations).2 := by
  induction turns generalizing server granted with
  | nil => exact ⟨[], rfl⟩
  | cons turn rest ih =>
    have met := sound.meet turn
    have still : (server.meet turn).registry = Chat.registry := chat
    have step : ∃ operations : List SessionTable.Operation,
        (server.take turn).lobby.sessions = (server.lobby.sessions.run operations).2 :=
      exists_operations_perform still met.consistent turn.command
    obtain ⟨first, now⟩ := step
    obtain ⟨later, after⟩ :=
      ih (met.perform turn.command).sound (registry_takeAll sound chat [turn])
    refine ⟨first ++ later, ?_⟩
    rw [SessionTable.run_append, ← now]
    exact after

/-- Whatever a server that offers chat has done: its session table has come about by operations on an
empty one. -/
theorem sessions_takeAll [Inhabited τ] (maxClients : Nat) (app : α) (turns : List Turn) :
    ∃ operations : List SessionTable.Operation,
      ((Server.new maxClients app : Server τ α).takeAll turns).lobby.sessions =
        (({ limit := maxClients } : SessionTable).run operations).2 :=
  exists_operations_takeAll (.start maxClients app) rfl turns

theorem oid_ne_next [Inhabited τ] (maxClients : Nat) (app : α) (earlier later : List Turn)
    (fresh : ((Server.new maxClients app : Server τ α).takeAll
      (earlier ++ later)).lobby.sessions.nextOid < 2 ^ 31) {session : Session}
    (mem : session ∈
      ((Server.new maxClients app : Server τ α).takeAll earlier).lobby.sessions.sessions) :
    session.oid ≠ .ofNat ((Server.new maxClients app : Server τ α).takeAll
      (earlier ++ later)).lobby.sessions.nextOid := by
  have start : (Server.new maxClients app : Server τ α).Sound fun _ _ => False :=
    .start maxClients app
  obtain ⟨granted, sound⟩ := start.takeAll earlier
  obtain ⟨operations, since⟩ :=
    exists_operations_takeAll sound (registry_takeAll start rfl earlier) later
  obtain ⟨n, before, -, same⟩ := sound.counted _ _ (sound.sessions session mem)
  rw [takeAll_append, since, SessionTable.nextOid_run] at fresh ⊢
  rw [same]
  intro equal
  have equal := ofNat_injective (by omega) fresh equal
  omega

end

/-- The connection has been told of a failure, and nothing else has happened. -/
structure Refused (server : Server τ α) (connection : ConnectionId) (reason : String)
    (after : Server τ α) : Prop where
  told : server.lobby.outboxes.Handed connection (.failure reason) after.lobby.outboxes
  rest : after = server.modifyLobby ({ · with outboxes := after.lobby.outboxes })

/-- The connection has a new session, and has been told so; nothing else has happened. -/
structure Admitted (server : Server τ α) (connection : ConnectionId) (username : String)
    (welcome : Message) (after : Server τ α) : Prop where
  sessions : after.lobby.sessions = joined server.lobby.sessions username connection
  told : server.lobby.outboxes.Handed connection welcome after.lobby.outboxes
  rest : after = server.modifyLobby
    ({ · with sessions := after.lobby.sessions, outboxes := after.lobby.outboxes })

theorem handed_offer (lobby : Lobby α) {message : Message}
    (found : lobby.outboxes.find? connection = some box) (opened : box.closed = false)
    (fits : message.encode.length ≤ box.limit) :
    lobby.outboxes.Handed connection message (lobby.offer connection message).outboxes := by
  unfold Lobby.offer
  obtain ⟨refuses, -⟩ | ⟨other, found', -, verdict⟩ := lobby.post_verdict connection message
  · exact (Outboxes.not_refuses found opened refuses).elim
  · obtain rfl := Option.some.inj (found'.symm.trans found)
    obtain ⟨long, -⟩ | ⟨-, outboxes, posted, handed⟩ := verdict
    · exact (Nat.not_lt.2 fits long).elim
    · rw [posted]
      exact handed

theorem length_objection {reason : String}
    (objection : server.objection? connection version username = some reason) :
    (Message.failure reason).encode.length ≤ 64 := by
  unfold objection? at objection
  dsimp only at objection
  split_ifs at objection
  all_goals
    obtain rfl := Option.some.inj objection
    decide

theorem startSession_eq (consistent : server.lobby.sessions.Consistent)
    (fresh : server.lobby.sessions.exhausted = false) (whole : server.lobby.poisoned = false) :
    server.startSession connection version username =
      match server.objection? connection version username with
      | some reason => (none, server.refuse connection reason)
      | none => (none, server.modifyLobby fun lobby =>
          { lobby with sessions := joined lobby.sessions username connection }.offer connection
            (.bootstrap (.ofNat lobby.sessions.nextOid) server.registry.bindings)) := by
  unfold startSession objection?
  simp only [Lobby.table?, whole, Bool.false_eq_true, if_false, SessionTable.add,
    consistent.refusal?_eq, fresh]
  split_ifs <;> rfl

theorem length_welcome (oid : Oid) :
    (Message.bootstrap oid [⟨Chat.service.name, .ofNat firstServiceOid⟩]).encode.length = 32 := by
  have name : (Wire.Utf8.encode Chat.service.name).length = 4 := by decide
  simp only [Message.encode, Message.write, Binding.writeAll, Binding.write, List.foldr_cons,
    List.foldr_nil, Wire.length_writeWord, Wire.length_writeInt32, Wire.length_writeText,
    List.length_nil, List.length_cons, name]

/-- As long as there is an oid to give out, a logon is refused for the first of the reasons that
there are, or the client is let in under an oid that no session has had. -/
theorem logon_decided [Inhabited τ] (maxClients : Nat) (app : α) (past : List Turn)
    (fresh : ((Server.new maxClients app : Server τ α).takeAll past).lobby.sessions.nextOid <
      2 ^ 31 - 1)
    (outboxes : Outboxes) (clock : Nat) (found : outboxes.find? connection = some box)
    (opened : box.closed = false) (room : 64 ≤ box.limit) (version : UInt32) (username : String) :
    let turn : Turn := ⟨outboxes, clock, .startSession connection version username⟩
    let server := ((Server.new maxClients app : Server τ α).takeAll past).meet turn
    let oid := Int32.ofNat server.lobby.sessions.nextOid
    let welcome : Message := .bootstrap oid server.registry.bindings
    let after := server.perform turn.command
    after.1 = none ∧ server.lobby.sessions.limit = maxClients ∧
    server.registry.bindings = [⟨Chat.service.name, .ofNat firstServiceOid⟩] ∧
    (∀ reason, server.objection? connection version username = some reason →
      Refused server connection reason after.2) ∧
    (server.objection? connection version username = none →
      (∀ earlier later, past = earlier ++ later →
        ∀ session ∈ ((Server.new maxClients app : Server τ α).takeAll
          earlier).lobby.sessions.sessions, session.oid ≠ oid) ∧
      Admitted server connection username welcome after.2) := by
  intro turn server oid welcome after
  have start : (Server.new maxClients app : Server τ α).Sound fun _ _ => False :=
    .start maxClients app
  obtain ⟨granted, sound⟩ := start.takeAll past
  have sound : server.Sound granted := sound.meet turn
  have chat : server.registry = Chat.registry := registry_takeAll start rfl past
  obtain ⟨operations, kept⟩ := sessions_takeAll (τ := τ) maxClients app past
  have next : server.lobby.sessions.nextOid < 2 ^ 31 - 1 := fresh
  have known : server.lobby.sessions.exhausted = false := decide_eq_false (by omega)
  have trusted : server.lobby.poisoned = false := by
    cases lost : server.lobby.poisoned with
    | false => rfl
    | true => cases known.symm.trans (sound.lost lost)
  have limit : server.lobby.sessions.limit = maxClients := by
    have counted := SessionTable.nextOid_run { limit := maxClients } operations
    rw [← kept] at counted
    obtain ⟨-, limit, -⟩ :=
      (SessionTable.Consistent.empty maxClients).run operations (by rw [← counted]; omega)
    rw [← kept] at limit
    exact limit
  have bindings : server.registry.bindings = [⟨Chat.service.name, .ofNat firstServiceOid⟩] := by
    rw [chat]
    rfl
  have whole : after = _ := startSession_eq sound.consistent known trusted
  cases objection : server.objection? connection version username with
  | some reason =>
    rw [objection] at whole
    rw [whole]
    refine ⟨rfl, limit, bindings, fun _ same => ?_, nofun⟩
    obtain rfl := Option.some.inj same
    have fits := Nat.le_trans (length_objection objection) room
    exact ⟨handed_offer server.lobby found opened fits, rfl⟩
  | none =>
    rw [objection] at whole
    rw [whole]
    refine ⟨rfl, limit, bindings, nofun, fun _ => ⟨?_, rfl, ?_, rfl⟩⟩
    · rintro earlier later rfl session mem
      exact oid_ne_next maxClients app earlier later (by omega) mem
    · refine handed_offer _ found opened ?_
      dsimp only [welcome]
      rw [bindings, length_welcome]
      omega

def vestibule : Outboxes :=
  { boxes := [{ id := 2, address := "", limit := 64 }, { id := 3, address := "", limit := 64 }] }

/-- Somebody is logged on: the name is refused to somebody else, and another name is let in. -/
theorem logon_decided_vestibule :
    let server := (Server.new 4 () : Server Unit Unit).takeAll
      [⟨vestibule, 0, .startSession 2 protocolVersion "a"⟩]
    let logon (username : String) : Turn := ⟨vestibule, 0, .startSession 3 protocolVersion username⟩
    Refused (server.meet (logon "a")) 3 "Username in use"
      ((server.meet (logon "a")).perform (logon "a").command).2 ∧
    vestibule.Handed 3 (.bootstrap 1001 [⟨"chat", 1⟩])
      ((server.meet (logon "b")).perform (logon "b").command).2.lobby.outboxes := by
  intro server logon
  have decided := @logon_decided Unit Unit 3 { id := 3, address := "", limit := 64 } _ 4 ()
    [⟨vestibule, 0, .startSession 2 protocolVersion "a"⟩] (by decide) vestibule 0 (by decide) rfl
    (Nat.le_refl 64) protocolVersion
  obtain ⟨-, -, -, refused, -⟩ := decided "a"
  obtain ⟨-, -, -, -, admitted⟩ := decided "b"
  exact ⟨refused _ (by decide), (admitted (by decide)).2.told⟩

/-! A server whose oids run out. -/

def callIn : List Turn :=
  [⟨vestibule, 0, .startSession 2 protocolVersion "a"⟩, ⟨vestibule, 0, .endSession 2⟩]

def vacant (nextOid : Nat) (outboxes : Outboxes) : Server Unit Unit where
  registry := Chat.registry
  lobby := { sessions := { limit := 4, nextOid }, outboxes, app := () }

theorem removeByConnection_joined (nextOid : Nat) :
    ((joined { limit := 4, nextOid } "a" 2).removeByConnection 2).2 =
      { limit := 4, nextOid := nextOid + 1 } := by
  simp [joined, SessionTable.removeByConnection, SessionTable.remove, SessionTable.oidOf?,
    SessionTable.find?, SessionTable.erase]

theorem takeAll_callIn (nextOid : Nat) (few : nextOid < 2 ^ 31 - 1) (outboxes : Outboxes) :
    (vacant nextOid outboxes).takeAll callIn = vacant (nextOid + 1) vestibule := by
  have consistent : (vacant nextOid vestibule).lobby.sessions.Consistent :=
    ⟨List.nodup_nil, List.nodup_nil, List.nodup_nil, nofun, by simp [vacant], nofun, Nat.zero_le _⟩
  have fresh : (vacant nextOid vestibule).lobby.sessions.exhausted = false :=
    decide_eq_false (by change ¬ 2147483647 ≤ nextOid; omega)
  have logon : (vacant nextOid vestibule).startSession 2 protocolVersion "a" = _ :=
    startSession_eq consistent fresh rfl
  have none : (vacant nextOid vestibule).objection? 2 protocolVersion "a" = none := rfl
  change (((vacant nextOid vestibule).startSession 2 protocolVersion "a").2.meet
    ⟨vestibule, 0, .endSession 2⟩).endSession 2 = _
  rw [logon, none]
  change (vacant 0 vestibule).modifyLobby (fun lobby => { lobby with
    sessions := ((joined { limit := 4, nextOid } "a" 2).removeByConnection 2).2 }) = _
  rw [removeByConnection_joined]
  rfl

theorem takeAll_callIns (count nextOid : Nat) (few : nextOid + count < 2 ^ 31)
    (outboxes : Outboxes) : ∃ outboxes',
      (vacant nextOid outboxes).takeAll (List.replicate count callIn).flatten =
        vacant (nextOid + count) outboxes' := by
  induction count generalizing nextOid outboxes with
  | zero => exact ⟨outboxes, rfl⟩
  | succ count ih =>
    obtain ⟨outboxes', rest⟩ := ih (nextOid + 1) (by omega) vestibule
    refine ⟨outboxes', ?_⟩
    rw [List.replicate_succ, List.flatten_cons, takeAll_append, takeAll_callIn nextOid (by omega),
      rest, Nat.add_right_comm, Nat.add_assoc]

/-- When all oids but the last have been given out, a logon to which there is no objection is
neither let in nor told anything. -/
theorem unwelcomed :
    let past := (List.replicate (2 ^ 31 - 1 - firstClientOid) callIn).flatten
    let turn : Turn := ⟨vestibule, 0, .startSession 2 protocolVersion "a"⟩
    let server := ((Server.new 4 () : Server Unit Unit).takeAll past).meet turn
    vestibule.find? 2 = some { id := 2, address := "", limit := 64 } ∧
    server.objection? 2 protocolVersion "a" = none ∧
    (server.perform turn.command).2.lobby.sessions = server.lobby.sessions ∧
    (server.perform turn.command).2.lobby.outboxes = vestibule := by
  intro past turn server
  have start : (Server.new 4 () : Server Unit Unit) = vacant firstClientOid {} := rfl
  obtain ⟨outboxes, gone⟩ :=
    takeAll_callIns (2 ^ 31 - 1 - firstClientOid) firstClientOid (by decide) {}
  have last : server = vacant (2 ^ 31 - 1) vestibule := by
    dsimp only [server, past]
    rw [start, gone]
    rfl
  rw [last]
  exact ⟨rfl, rfl, rfl, rfl⟩

end Parley.Server
