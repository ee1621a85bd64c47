import Parley.Proofs.Chat.Speech
import Parley.Proofs.History

/-! What a connection hears, and under which oid.
A server that offers chat welcomes a client before it tells it anything else, and from then on
speaks to it under the oid of that welcome. It welcomes nobody else on the connection until the
session has been ended, and gives no oid twice. -/

namespace Parley

namespace Message

def addressee? : Message → Option Oid
  | event e => some e.target
  | response r => some r.token.callerOid
  | _ => none

def welcome? : Message → Option Oid
  | .bootstrap oid _ => some oid
  | _ => none

end Message

namespace Outboxes

variable {before after outboxes : Outboxes} {id : ConnectionId} {message : Message}

def written (outboxes : Outboxes) (id : ConnectionId) (bytes : Nat) : Outboxes :=
  { outboxes with
    boxes := outboxes.boxes.map fun box =>
      if box.id = id then { box with buffer := box.buffer.drop bytes } else box }

/-- Each outbox takes messages as long as it took before, and none that was closed takes any. -/
structure Stands (before after : Outboxes) : Prop where
  refuses : ∀ id, before.Refuses id → after.Refuses id
  limit : ∀ id box, after.find? id = some box →
    ∃ old, before.find? id = some old ∧ box.limit = old.limit

namespace Stands

theorem refl (outboxes : Outboxes) : Stands outboxes outboxes :=
  ⟨fun _ refuses => refuses, fun _ box found => ⟨box, found, rfl⟩⟩

theorem trans {first second third : Outboxes} (early : Stands first second)
    (late : Stands second third) : Stands first third := by
  refine ⟨fun id refuses => late.refuses id (early.refuses id refuses), fun id box found => ?_⟩
  obtain ⟨old, found, limit⟩ := late.limit id box found
  obtain ⟨older, found, limit'⟩ := early.limit id old found
  exact ⟨older, found, limit.trans limit'⟩

theorem post (outboxes : Outboxes) (id : ConnectionId) (message : Message) :
    Stands outboxes (outboxes.post id message).2 := by
  refine ⟨fun other refuses => refuses.post id message, fun other box found => ?_⟩
  have grown : Grown (fun _ _ => True) outboxes (outboxes.post id message).2 :=
    outboxes.grown_post trivial
  cases known : outboxes.find? other with
  | none =>
    rw [grown.absent other known] at found
    cases found
  | some old =>
    obtain ⟨box', -, found', limit, -⟩ := grown.present other old known
    obtain rfl := Option.some.inj (found.symm.trans found')
    exact ⟨old, rfl, limit⟩

theorem offerAll (outboxes : Outboxes) (posts : List (ConnectionId × Message)) :
    Stands outboxes (outboxes.offerAll posts) := by
  induction posts generalizing outboxes with
  | nil => exact refl outboxes
  | cons post rest ih => exact (Stands.post outboxes post.1 post.2).trans (ih _)

theorem close (outboxes : Outboxes) (id : ConnectionId) :
    Stands outboxes (outboxes.close id) := by
  refine ⟨fun other refuses => refuses.close id, fun other box found => ?_⟩
  rw [find?_close] at found
  obtain ⟨old, known, rfl⟩ := Option.map_eq_some_iff.1 found
  refine ⟨old, known, ?_⟩
  split <;> rfl

theorem written (outboxes : Outboxes) (id : ConnectionId) (bytes : Nat) :
    Stands outboxes (outboxes.written id bytes) := by
  have find (other : ConnectionId) : (outboxes.written id bytes).find? other =
      (outboxes.find? other).map fun box =>
        if box.id = id then { box with buffer := box.buffer.drop bytes } else box := by
    refine find?_map _ _ (fun box => ?_) other
    split <;> rfl
  refine ⟨fun other refuses => ?_, fun other box found => ?_⟩
  · rw [refuses_iff] at refuses ⊢
    intro box found
    rw [find] at found
    obtain ⟨old, known, rfl⟩ := Option.map_eq_some_iff.1 found
    have shut := refuses old known
    split <;> exact shut
  · rw [find] at found
    obtain ⟨old, known, rfl⟩ := Option.map_eq_some_iff.1 found
    refine ⟨old, known, ?_⟩
    split <;> rfl

end Stands

/-- A message that is not too long is accepted, unless the connection takes nothing any more. -/
theorem accepted_of_fits
    (fits : ∀ box, outboxes.find? id = some box → message.encode.length ≤ box.limit) :
    outboxes.accepted [(id, message)] = [(id, message)] ∨
      outboxes.Refuses id ∧ outboxes.accepted [(id, message)] = [] := by
  by_cases refuses : outboxes.Refuses id
  · refine .inr ⟨refuses, ?_⟩
    rw [accepted]
    rcases posted : outboxes.post id message with ⟨error | _, after⟩
    · rfl
    · cases (congrArg Prod.fst posted).symm.trans (refuses message)
  · left
    have taken := post_of_fits refuses fits
    rw [accepted]
    rcases posted : outboxes.post id message with ⟨error | _, after⟩
    · cases (congrArg Prod.fst posted).symm.trans taken
    · rfl

end Outboxes

namespace Server

inductive Step where
  | command (command : Command)
  | write (connection : ConnectionId) (bytes : Nat)
  | pong (connection : ConnectionId) (time : UInt64)
  | close (connection : ConnectionId)
  | wait (milliseconds : Nat)
  deriving DecidableEq, Repr

inductive Record where
  | ran (command : Command)
  /-- The message is in the buffer of the connection. -/
  | accepted (connection : ConnectionId) (message : Message)
  deriving DecidableEq, Repr

def modifyOutboxes (server : Server τ α) (f : Outboxes → Outboxes) : Server τ α :=
  server.modifyLobby fun lobby => { lobby with outboxes := f lobby.outboxes }

def posts (server : Server τ α) : Step → List (ConnectionId × Message)
  | .command command => server.utters command
  | .pong connection time => [(connection, .pong time)]
  | _ => []

def ran : Step → List Record
  | .command command => [.ran command]
  | _ => []

def note (server : Server τ α) (step : Step) : List Record :=
  ran step ++ (server.lobby.outboxes.accepted (server.posts step)).map fun post =>
    .accepted post.1 post.2

def go (server : Server τ α) : Step → Server τ α
  | .command command => (server.perform command).2
  | .write connection bytes => server.modifyOutboxes (·.written connection bytes)
  | .pong connection time => server.modifyOutboxes (·.offerAll [(connection, .pong time)])
  | .close connection => server.modifyOutboxes (·.close connection)
  | .wait milliseconds =>
    server.modifyLobby fun lobby => { lobby with clock := lobby.clock + milliseconds }

def history (server : Server τ α) : List Step → List Record × Server τ α
  | [] => ([], server)
  | step :: rest =>
    (server.note step ++ ((server.go step).history rest).1, ((server.go step).history rest).2)

def Record.welcome? (connection : ConnectionId) : Record → Option Oid
  | .accepted id message => if id = connection then message.welcome? else none
  | .ran _ => none

/-- The oid under which a connection was welcomed last. -/
def holder? (records : List Record) (connection : ConnectionId) : Option Oid :=
  (records.filterMap (Record.welcome? connection)).getLast?

/-- Whoever was welcomed on a connection has been ended since. -/
def Left (records : List Record) (connection : ConnectionId) : Prop :=
  ∀ before oid services since,
    records = before ++ .accepted connection (.bootstrap oid services) :: since →
      .ran (.endSession connection) ∈ since

/-- The record is one that can come next. -/
def Due (past : List Record) : Record → Prop
  | .ran _ => True
  | .accepted connection message =>
    (∀ oid, message.addressee? = some oid → holder? past connection = some oid) ∧
      ∀ oid services, message = .bootstrap oid services →
        Left past connection ∧
          ∀ other services', .accepted other (.bootstrap oid services') ∉ past

variable {records more before after : List Record} {record : Record} {connection : ConnectionId}

theorem holder?_append (quiet : ∀ record ∈ more, record.welcome? connection = none) :
    holder? (records ++ more) connection = holder? records connection := by
  rw [holder?, List.filterMap_append, List.filterMap_eq_nil_iff.2 quiet, List.append_nil]
  rfl

theorem holder?_append_welcome (records : List Record) (connection : ConnectionId) (oid : Oid)
    (services : List Binding) :
    holder? (records ++ [.accepted connection (.bootstrap oid services)]) connection =
      some oid := by
  rw [holder?, List.filterMap_append]
  simp [Record.welcome?, Message.welcome?]

def Quiet (records : List Record) : Prop :=
  ∀ record ∈ records, ∀ connection, record.welcome? connection = none

theorem Left.append (left : Left records connection)
    (quiet : ∀ record ∈ more, record.welcome? connection = none) :
    Left (records ++ more) connection := by
  intro before oid services since whole
  obtain ⟨rest, early, rfl⟩ | ⟨front, -, late⟩ := append_eq_append_cons whole
  · exact List.mem_append_left _ (left before oid services rest early)
  · have welcomed := quiet (.accepted connection (.bootstrap oid services)) (by rw [late]; simp)
    simp [Record.welcome?, Message.welcome?] at welcomed

theorem left_of_ended (records : List Record) (connection : ConnectionId) :
    Left (records ++ [.ran (.endSession connection)]) connection := by
  intro before oid services since whole
  obtain ⟨rest, -, rfl⟩ | ⟨front, -, late⟩ := append_eq_append_cons whole
  · exact List.mem_append_right _ (List.mem_singleton_self _)
  · obtain ⟨rfl, -, same⟩ | ⟨_, _, same⟩ := List.append_eq_cons_iff.1 late.symm
    all_goals simp_all

theorem due_of_quiet (quiet : Quiet more)
    (own : ∀ connection message oid, .accepted connection message ∈ more →
      message.addressee? = some oid → holder? records connection = some oid)
    (whole : more = before ++ record :: after) : Due (records ++ before) record := by
  have mem : record ∈ more := by rw [whole]; simp
  cases record with
  | ran command => trivial
  | accepted connection message =>
    refine ⟨fun oid addressed => ?_, ?_⟩
    · have early : Quiet before := fun record mem =>
        quiet record (whole ▸ List.mem_append_left _ mem)
      rw [holder?_append fun record mem => early record mem connection]
      exact own connection message oid mem addressed
    · rintro oid services rfl
      have welcomed := quiet _ mem connection
      simp [Record.welcome?, Message.welcome?] at welcomed

variable {granted : ConnectionId → Oid → Prop} {server next : Server τ α}

theorem mem_events {lobby : Lobby α} {caller : Dispatch.Caller} {call : Chat.Call}
    {post : ConnectionId × Message} (consistent : lobby.sessions.Consistent)
    (mem : post ∈ call.events lobby caller) :
    ∃ session ∈ lobby.sessions.sessions, post.1 = session.connection ∧
      ∃ event : ObjectEvent, post.2 = .event event ∧ event.target = session.oid := by
  cases call with
  | other => cases mem
  | tell target text =>
    obtain ⟨session, found, rfl⟩ := Option.map_eq_some_iff.1 (Option.mem_toList.1 mem)
    exact ⟨session, (consistent.findByUsername?_eq_some.1 found).1, rfl, _, rfl, rfl⟩
  | away text =>
    obtain ⟨session, found, rfl⟩ := Option.map_eq_some_iff.1 (Option.mem_toList.1 mem)
    have listed := consistent.find?_eq_some.1 found
    exact ⟨session, List.mem_map_of_mem listed, rfl, _, rfl,
      (consistent.keyed _ session listed).symm⟩
  | broadcast text =>
    have lines (lobby : Lobby α) (sessions : List Session)
        (mem : post ∈ Chat.announced caller.username text lobby sessions) :
        ∃ session ∈ sessions, post.1 = session.connection ∧
          ∃ event : ObjectEvent, post.2 = .event event ∧ event.target = session.oid := by
      induction sessions generalizing lobby with
      | nil => cases mem
      | cons session rest ih =>
        rw [Chat.announced] at mem
        split at mem
        · obtain rfl := List.mem_singleton.1 mem
          exact ⟨session, List.mem_cons_self, rfl, _, rfl, rfl⟩
        · obtain rfl | mem := List.mem_cons.1 mem
          · exact ⟨session, List.mem_cons_self, rfl, _, rfl, rfl⟩
          · obtain ⟨other, listed, told⟩ := ih _ mem
            exact ⟨other, List.mem_cons_of_mem _ listed, told⟩
    exact lines lobby _ mem

theorem Sound.mem_utters (sound : server.Sound granted) {request : Request}
    {post : ConnectionId × Message}
    (mem : post ∈ server.utters (.handleRequest connection request)) :
    post.2.welcome? = none ∧
      ∀ oid, post.2.addressee? = some oid → ∃ session ∈ server.lobby.sessions.sessions,
        session.connection = post.1 ∧ session.oid = oid := by
  rw [utters] at mem
  split at mem
  · cases mem
  · rename_i caller found
    split at mem
    · cases mem
    · obtain mem | mem := List.mem_append.1 mem
      · obtain ⟨session, listed, place, event, same, own⟩ := mem_events sound.consistent mem
        rw [same]
        refine ⟨rfl, fun oid addressed => ⟨session, listed, place.symm, ?_⟩⟩
        exact own.symm.trans (Option.some.inj addressed)
      · obtain ⟨response, posted, rfl⟩ := List.mem_map.1 mem
        refine ⟨rfl, fun oid addressed => ?_⟩
        obtain ⟨-, caller', found', own⟩ := sound.caller_of_answers posted
        obtain rfl := Option.some.inj (found.symm.trans found')
        obtain ⟨session, known, place⟩ := (present_of_caller? sound.consistent found).session
        have listed := sound.consistent.find?_eq_some.1 known
        refine ⟨session, List.mem_map_of_mem listed, place, ?_⟩
        rw [sound.consistent.keyed _ session listed, ← own]
        exact Option.some.inj addressed

theorem startSession_cases (server : Server τ α) (connection : ConnectionId) (version : UInt32)
    (username : String) :
    let after := (server.startSession connection version username).2
    (∀ message ∈ server.greeting? connection version username,
        ∃ reason, message = .failure reason) ∧
      after.lobby.sessions = server.lobby.sessions ∧
      server.granted? connection version username = none ∨
    ∃ oid, server.lobby.sessions.add username connection = (.ok oid, after.lobby.sessions) ∧
      server.lobby.sessions.exhausted = false ∧
      server.greeting? connection version username =
        some (.bootstrap oid server.registry.bindings) ∧
      server.granted? connection version username = some oid := by
  dsimp only
  rw [startSession, greeting?, granted?]
  by_cases other : version ≠ protocolVersion
  · simp only [if_pos other]
    exact .inl ⟨fun message same => ⟨_, (Option.some.inj same).symm⟩, rfl, trivial⟩
  · simp only [if_neg other]
    cases known : server.lobby.table? with
    | none => exact .inl ⟨fun message same => ⟨_, (Option.some.inj same).symm⟩, rfl, rfl⟩
    | some table =>
      obtain ⟨-, rfl⟩ := table?_eq_some known
      dsimp only
      rcases server.lobby.sessions.add username connection with ⟨refusal | oid, sessions⟩
      · refine .inl ⟨fun message same => ⟨_, (Option.some.inj same).symm⟩, rfl, ?_⟩
        dsimp only [Except.toOption]
        exact ite_self _
      · dsimp only
        cases server.lobby.sessions.exhausted with
        | true => exact .inl ⟨nofun, rfl, rfl⟩
        | false => exact .inr ⟨oid, rfl, rfl, rfl, rfl⟩

theorem mem_sessions_endSession (consistent : server.lobby.sessions.Consistent) {session : Session}
    (mem : session ∈ (server.endSession connection).lobby.sessions.sessions) :
    session ∈ server.lobby.sessions.sessions := by
  unfold endSession at mem
  split at mem
  · exact mem
  · rename_i table known
    obtain ⟨-, rfl⟩ := table?_eq_some known
    obtain ⟨entry, listed, rfl⟩ := List.mem_map.1 mem
    have rest := consistent.byOid_removeByConnection connection
    exact List.mem_map_of_mem (List.mem_filter.1 (rest ▸ listed)).1

theorem oidOf?_endSession (consistent : server.lobby.sessions.Consistent) {other : ConnectionId}
    (apart : other ≠ connection)
    (vacant : (server.endSession connection).lobby.sessions.oidOf? other = none) :
    server.lobby.sessions.oidOf? other = none := by
  unfold endSession at vacant
  split at vacant
  · exact vacant
  · rename_i table known
    obtain ⟨-, rfl⟩ := table?_eq_some known
    cases indexed : server.lobby.sessions.oidOf? other with
    | none => rfl
    | some oid =>
      obtain ⟨session, found, place⟩ := consistent.oidOf?_eq_some.1 indexed
      have stays : (oid, session) ∈
          (server.lobby.sessions.removeByConnection connection).2.byOid := by
        rw [consistent.byOid_removeByConnection, List.mem_filter]
        exact ⟨consistent.find?_eq_some.1 found, by simp [place, apart]⟩
      have still := ((consistent.removeByConnection connection).connection_eq_iff stays).1 place
      cases vacant.symm.trans still

/-- What a server and the records of its past have to do with each other. -/
structure Kept [Inhabited τ] (granted : ConnectionId → Oid → Prop) (records : List Record)
    (server : Server τ α) : Prop where
  chat : server.registry = Chat.registry
  sound : server.Sound granted
  /-- A welcome fits. -/
  wide : ∀ id box, server.lobby.outboxes.find? id = some box → 32 ≤ box.limit
  welcomed : ∀ session ∈ server.lobby.sessions.sessions,
    server.lobby.outboxes.Refuses session.connection ∨
      holder? records session.connection = some session.oid
  left : ∀ connection, server.lobby.sessions.oidOf? connection = none → Left records connection
  known : ∀ connection oid services,
    .accepted connection (.bootstrap oid services) ∈ records → granted connection oid

section

variable [Inhabited τ]

theorem Kept.start (maxClients : Nat) (app : α) {outboxes : Outboxes}
    (wide : ∀ id box, outboxes.find? id = some box → 32 ≤ box.limit) :
    Kept (fun _ _ => False) []
      ((Server.new maxClients app : Server τ α).modifyOutboxes fun _ => outboxes) :=
  ⟨rfl, (Sound.start maxClients app).modifyLobby rfl rfl, wide, nofun,
    fun _ _ before _ _ _ whole => by simp at whole, nofun⟩

theorem Kept.advance {granted' : ConnectionId → Oid → Prop} (kept : Kept granted records server)
    (chat : next.registry = Chat.registry) (sound : next.Sound granted')
    (wider : ∀ connection oid, granted connection oid → granted' connection oid)
    (stands : server.lobby.outboxes.Stands next.lobby.outboxes)
    (sessions : ∀ session ∈ next.lobby.sessions.sessions,
      ∃ old ∈ server.lobby.sessions.sessions,
        old.oid = session.oid ∧ old.connection = session.connection)
    (index : ∀ connection, next.lobby.sessions.oidOf? connection = none →
      server.lobby.sessions.oidOf? connection = none ∨ Left (records ++ more) connection)
    (quiet : Quiet more) : Kept granted' (records ++ more) next := by
  refine ⟨chat, sound, fun id box found => ?_, fun session mem => ?_, fun connection free => ?_,
    fun connection oid services mem => ?_⟩
  · obtain ⟨old, found, limit⟩ := stands.limit id box found
    exact limit ▸ kept.wide id old found
  · obtain ⟨old, mem, own, place⟩ := sessions session mem
    rw [holder?_append fun record mem => quiet record mem session.connection, ← own, ← place]
    exact (kept.welcomed old mem).imp_left (stands.refuses _)
  · obtain free | left := index connection free
    · exact (kept.left connection free).append fun record mem => quiet record mem connection
    · exact left
  · obtain mem | mem := List.mem_append.1 mem
    · exact wider connection oid (kept.known connection oid services mem)
    · have welcomed := quiet _ mem connection
      simp [Record.welcome?, Message.welcome?] at welcomed

/-- What is posted to the client of a session, under its oid, comes after its welcome. -/
theorem Kept.holder (kept : Kept granted records server) {posts : List (ConnectionId × Message)}
    {message : Message} {oid : Oid}
    (mem : .accepted connection message ∈ (server.lobby.outboxes.accepted posts).map fun post =>
      Record.accepted post.1 post.2)
    (addressed : (connection, message) ∈ posts → ∃ session ∈ server.lobby.sessions.sessions,
      session.connection = connection ∧ session.oid = oid) :
    holder? records connection = some oid := by
  obtain ⟨⟨id, m⟩, accepted, same⟩ := List.mem_map.1 mem
  obtain ⟨rfl, rfl⟩ := Record.accepted.inj same
  obtain ⟨posted, opened⟩ := Outboxes.mem_accepted accepted
  obtain ⟨session, listed, rfl, rfl⟩ := addressed posted
  exact (kept.welcomed session listed).resolve_left opened

theorem Kept.due (kept : Kept granted records server) (step : Step)
    (addressed : ∀ post ∈ server.posts step, post.2.welcome? = none ∧
      ∀ oid, post.2.addressee? = some oid → ∃ session ∈ server.lobby.sessions.sessions,
        session.connection = post.1 ∧ session.oid = oid) :
    Quiet (server.note step) ∧ ∀ before record after,
      server.note step = before ++ record :: after → Due (records ++ before) record := by
  have noted (connection : ConnectionId) (message : Message)
      (mem : .accepted connection message ∈ server.note step) :
      .accepted connection message ∈ (server.lobby.outboxes.accepted (server.posts step)).map
        fun post => Record.accepted post.1 post.2 := by
    obtain mem | mem := List.mem_append.1 mem
    · cases step <;> simp [ran] at mem
    · exact mem
  have quiet : Quiet (server.note step) := by
    intro record mem connection
    cases record with
    | ran command => rfl
    | accepted id message =>
      obtain ⟨⟨id, message⟩, accepted, same⟩ := List.mem_map.1 (noted id message mem)
      obtain ⟨rfl, rfl⟩ := Record.accepted.inj same
      rw [Record.welcome?, (addressed _ (Outboxes.mem_accepted accepted).1).1, ite_self]
  refine ⟨quiet, fun before record after whole => due_of_quiet quiet ?_ whole⟩
  intro connection message oid mem own
  exact kept.holder (noted connection message mem) fun posted => (addressed _ posted).2 oid own

theorem Kept.welcome (kept : Kept granted records server) {version : UInt32} {username : String}
    {oid : Oid}
    (added : server.lobby.sessions.add username connection =
      (.ok oid, (server.startSession connection version username).2.lobby.sessions))
    (left : server.lobby.sessions.exhausted = false)
    (greeting : server.greeting? connection version username =
      some (.bootstrap oid server.registry.bindings))
    (grant : server.granted? connection version username = some oid) :
    let command : Command := .startSession connection version username
    Kept (fun c o => granted c o ∨ (c, o) ∈ server.grants command)
        (records ++ server.note (.command command)) (server.go (.command command)) ∧
      ∀ before record after, server.note (.command command) = before ++ record :: after →
        Due (records ++ before) record := by
  intro command
  obtain ⟨free, rfl, equal⟩ := SessionTable.add_eq_ok added
  obtain ⟨noSession, -⟩ := SessionTable.refusal?_eq_none free
  obtain ⟨sound, -⟩ := kept.sound.startSession connection version username
  obtain ⟨chat, -⟩ := outboxes_perform kept.chat kept.sound.consistent command
  have posted : server.posts (.command command) = [(connection,
      .bootstrap (.ofNat server.lobby.sessions.nextOid) server.registry.bindings)] := by
    rw [posts, utters, greeting]
    rfl
  have small : (Message.bootstrap (.ofNat server.lobby.sessions.nextOid)
      server.registry.bindings).encode.length = 32 := by
    rw [kept.chat]
    rfl
  have granting : server.grants command = [(connection, .ofNat server.lobby.sessions.nextOid)] := by
    rw [grants, grant]
    rfl
  -- the connection takes the welcome, or it takes nothing from now on
  have noted : server.note (.command command) = [.ran command,
        .accepted connection (.bootstrap (.ofNat server.lobby.sessions.nextOid)
          server.registry.bindings)] ∨
      server.lobby.outboxes.Refuses connection ∧
        server.note (.command command) = [.ran command] := by
    rw [note, posted]
    obtain taken | ⟨refuses, taken⟩ := Outboxes.accepted_of_fits fun box found =>
        small.le.trans (kept.wide connection box found)
    · exact .inl (by rw [taken]; rfl)
    · exact .inr ⟨refuses, by rw [taken]; rfl⟩
  have elsewhere (other : ConnectionId) (apart : connection ≠ other) :
      ∀ record ∈ server.note (.command command), record.welcome? other = none := by
    obtain noted | ⟨-, noted⟩ := noted
    all_goals simp [noted, Record.welcome?, apart]
  have stands : server.lobby.outboxes.Stands (server.go (.command command)).lobby.outboxes := by
    rw [go, (outboxes_perform kept.chat kept.sound.consistent command).2]
    exact .offerAll _ _
  refine ⟨⟨chat, sound, fun id box found => ?_, fun session mem => ?_, fun other vacant => ?_,
    fun other oid services mem => ?_⟩, fun before record after whole => ?_⟩
  · obtain ⟨old, found, limit⟩ := stands.limit id box found
    exact limit ▸ kept.wide id old found
  · change session ∈ (server.startSession connection version username).2.lobby.sessions.sessions
      at mem
    rw [equal, SessionTable.sessions, List.map_append] at mem
    obtain mem | mem := List.mem_append.1 mem
    · -- the connection of an older session is another one
      obtain ⟨⟨key, session⟩, listed, rfl⟩ := List.mem_map.1 mem
      have apart : connection ≠ session.connection := by
        rintro rfl
        have indexed := (kept.sound.consistent.connection_eq_iff listed).1 rfl
        cases noSession.symm.trans indexed
      rw [holder?_append (elsewhere session.connection apart)]
      exact (kept.welcomed session mem).imp_left (stands.refuses _)
    · obtain rfl := List.mem_singleton.1 mem
      obtain noted | ⟨refuses, -⟩ := noted
      · rw [noted, List.append_cons, holder?_append_welcome]
        exact .inr rfl
      · exact .inl (stands.refuses connection refuses)
  · change (server.startSession connection version username).2.lobby.sessions.oidOf? other = none
      at vacant
    rw [equal, SessionTable.oidOf?, List.lookup_append, Option.or_eq_none_iff] at vacant
    have apart : connection ≠ other := by
      rintro rfl
      rw [List.lookup_cons_self] at vacant
      cases vacant.2
    exact (kept.left other vacant.1).append (elsewhere other apart)
  · obtain mem | mem := List.mem_append.1 mem
    · exact .inl (kept.known other oid services mem)
    · right
      obtain noted | ⟨-, noted⟩ := noted
      all_goals simp_all
  · have welcomes : Due (records ++ [.ran command]) (.accepted connection
        (.bootstrap (.ofNat server.lobby.sessions.nextOid) server.registry.bindings)) := by
      refine ⟨fun oid told => (by cases told), fun oid services same => ?_⟩
      obtain ⟨rfl, -⟩ := Message.bootstrap.inj same
      refine ⟨(kept.left connection noSession).append ?_, fun other services' mem => ?_⟩
      · exact List.forall_mem_singleton.2 rfl
      · obtain mem | mem := List.mem_append.1 mem
        · exact kept.sound.unused left other (kept.known other _ services' mem)
        · cases List.mem_singleton.1 mem
    obtain noted | ⟨-, noted⟩ := noted
    all_goals rw [noted] at whole
    · rcases before with _ | ⟨first, _ | ⟨second, rest⟩⟩
      · obtain ⟨rfl, -⟩ := List.cons.inj whole
        trivial
      · obtain ⟨rfl, last⟩ := List.cons.inj whole
        obtain ⟨rfl, -⟩ := List.cons.inj last
        exact welcomes
      · simp at whole
    · rcases before with _ | ⟨first, rest⟩
      · obtain ⟨rfl, -⟩ := List.cons.inj whole
        trivial
      · simp at whole

def Continues (records : List Record) (server : Server τ α) (step : Step) : Prop :=
  (∃ granted, Kept granted (records ++ server.note step) (server.go step)) ∧
    ∀ before record after, server.note step = before ++ record :: after →
      Due (records ++ before) record

theorem Kept.command (kept : Kept granted records server) (command : Command) :
    Continues records server (.command command) := by
  have sound := (kept.sound.perform command).sound
  obtain ⟨chat, outboxes⟩ := outboxes_perform kept.chat kept.sound.consistent command
  have stands : server.lobby.outboxes.Stands (server.perform command).2.lobby.outboxes := by
    rw [outboxes]
    exact .offerAll _ _
  cases command with
  | startSession connection version username =>
    obtain ⟨refused, same, -⟩ | ⟨oid, added, left, greeting, grant⟩ :=
      server.startSession_cases connection version username
    · obtain ⟨quiet, due⟩ := kept.due (.command (.startSession connection version username))
        fun post mem => by
          obtain ⟨message, greeting, rfl⟩ := Option.map_eq_some_iff.1 (Option.mem_toList.1 mem)
          obtain ⟨reason, rfl⟩ := refused message greeting
          exact ⟨rfl, nofun⟩
      refine ⟨⟨_, kept.advance chat sound (fun _ _ => .inl) stands (fun session mem => ?_)
        (fun other vacant => .inl ?_) quiet⟩, due⟩
      · exact ⟨session, same ▸ mem, rfl, rfl⟩
      · exact same ▸ vacant
    · obtain ⟨kept, due⟩ := kept.welcome added left greeting grant
      exact ⟨⟨_, kept⟩, due⟩
  | handleRequest connection request =>
    obtain ⟨quiet, due⟩ := kept.due (.command (.handleRequest connection request))
      fun post mem => kept.sound.mem_utters mem
    have advanced := (kept.sound.handleRequest connection request).2
    refine ⟨⟨_, kept.advance chat sound (fun _ _ => .inl) stands
      (fun session mem => advanced.sessions mem) (fun other vacant => .inl ?_) quiet⟩, due⟩
    have index := congrArg (fun table => table.oidOf? other) advanced.clients
    exact index.symm.trans vacant
  | endSession connection =>
    obtain ⟨quiet, due⟩ := kept.due (.command (.endSession connection)) nofun
    refine ⟨⟨_, kept.advance chat sound (fun _ _ => .inl) stands (fun session mem => ?_)
      (fun other vacant => ?_) quiet⟩, due⟩
    · exact ⟨session, mem_sessions_endSession kept.sound.consistent mem, rfl, rfl⟩
    · by_cases same : other = connection
      · subst same
        exact .inr (left_of_ended records other)
      · exact .inl (oidOf?_endSession kept.sound.consistent same vacant)

theorem Kept.outboxes (kept : Kept granted records server) (step : Step) {after : Outboxes}
    (next : server.go step = server.modifyOutboxes fun _ => after)
    (stands : server.lobby.outboxes.Stands after)
    (posted : ∀ post ∈ server.posts step, post.2.welcome? = none ∧ post.2.addressee? = none) :
    Continues records server step := by
  obtain ⟨quiet, due⟩ := kept.due step fun post mem =>
    ⟨(posted post mem).1, fun oid addressed => by
      rw [(posted post mem).2] at addressed
      cases addressed⟩
  refine ⟨⟨granted, ?_⟩, due⟩
  rw [next]
  exact kept.advance kept.chat (kept.sound.modifyLobby rfl rfl) (fun _ _ => id) stands
    (fun session mem => ⟨session, mem, rfl, rfl⟩) (fun _ vacant => .inl vacant) quiet

theorem Kept.go (kept : Kept granted records server) (step : Step) :
    Continues records server step := by
  cases step with
  | command command => exact kept.command command
  | write connection bytes => exact kept.outboxes _ rfl (.written _ connection bytes) nofun
  | pong connection time =>
    exact kept.outboxes _ rfl (.offerAll _ _) (List.forall_mem_singleton.2 ⟨rfl, rfl⟩)
  | close connection => exact kept.outboxes _ rfl (.close _ connection) nofun
  | wait milliseconds =>
    obtain ⟨quiet, due⟩ := kept.due (.wait milliseconds) nofun
    have sound : (server.go (.wait milliseconds)).Sound granted :=
      kept.sound.modifyLobby (f := ({ · with clock := server.lobby.clock + milliseconds })) rfl rfl
    exact ⟨⟨granted, kept.advance kept.chat sound (fun _ _ => id) (.refl _)
      (fun session mem => ⟨session, mem, rfl, rfl⟩) (fun _ vacant => .inl vacant) quiet⟩, due⟩

/-- Whatever happens to a server that is kept, every record is one that can come next. -/
theorem Kept.history (kept : Kept granted records server) (steps : List Step) :
    (∃ granted, Kept granted (records ++ (server.history steps).1) (server.history steps).2) ∧
      ∀ before record after, (server.history steps).1 = before ++ record :: after →
        Due (records ++ before) record := by
  induction steps generalizing server granted records with
  | nil =>
    refine ⟨⟨granted, ?_⟩, fun before record after whole => by simp [Server.history] at whole⟩
    rwa [Server.history, List.append_nil]
  | cons step rest ih =>
    obtain ⟨⟨granted, next⟩, now⟩ := kept.go step
    obtain ⟨last, later⟩ := ih next
    rw [Server.history, ← List.append_assoc]
    refine ⟨last, fun before record after whole => ?_⟩
    obtain ⟨between, early, -⟩ | ⟨front, rfl, late⟩ := append_eq_append_cons whole
    · exact now before record between early
    · rw [← List.append_assoc]
      exact later front record after late

/-- An event or an answer is accepted for a connection after a welcome only, and goes under the oid
of the last one. -/
theorem welcomed_first (maxClients : Nat) (app : α) (outboxes : Outboxes)
    (wide : ∀ id box, outboxes.find? id = some box → 32 ≤ box.limit) (steps : List Step) :
    let start : Server τ α := (Server.new maxClients app).modifyOutboxes fun _ => outboxes
    let records := (start.history steps).1
    (∀ past command,
      let server := (start.history past).2
      let told := server.lobby.outboxes.accepted (server.utters command)
      server.note (.command command) = .ran command :: told.map (fun post =>
        .accepted post.1 post.2) ∧
      (server.perform command).2.lobby.outboxes = server.lobby.outboxes.offerAll told ∧
      server.lobby.outboxes.accepted told = told) ∧
    (∀ before connection message after oid,
      records = before ++ .accepted connection message :: after →
      message.addressee? = some oid → holder? before connection = some oid) ∧
    ∀ before connection oid services after,
      records = before ++ .accepted connection (.bootstrap oid services) :: after →
      Left before connection ∧
      ∀ other services', .accepted other (.bootstrap oid services') ∉ before := by
  intro start records
  have kept : Kept _ [] start := .start maxClients app wide
  refine ⟨fun past command => ?_, ?_, ?_⟩
  · obtain ⟨⟨granted, kept⟩, -⟩ := kept.history past
    refine ⟨rfl, ?_, Outboxes.accepted_accepted _ _⟩
    rw [Outboxes.offerAll_accepted]
    exact (outboxes_perform kept.chat kept.sound.consistent command).2
  · intro before connection message after oid whole addressed
    obtain ⟨own, -⟩ := (kept.history steps).2 before _ after whole
    exact own oid addressed
  · intro before connection oid services after whole
    obtain ⟨-, first⟩ := (kept.history steps).2 before _ after whole
    exact first oid services rfl

end

def doors : Outboxes :=
  { boxes := [{ id := 1, address := "a", limit := 70 }, { id := 2, address := "b", limit := 100 }] }

/-- A guest leaves and comes back, and then hears a line. -/
def visits : List Step :=
  [.command (.startSession 1 1 "ann"), .command (.startSession 2 1 "bob"),
    .command (.startSession 1 1 "eve"), .write 1 36, .command (.endSession 1),
    .command (.startSession 1 1 "ann"), .wait 5,
    .command (.handleRequest 2 ⟨1, Chat.broadcast, [.str "hi", .listener ⟨1001, 0⟩]⟩)]

def firstVisit : List Record :=
  [.ran (.startSession 1 1 "ann"), .accepted 1 (.bootstrap 1000 [⟨"chat", 1⟩]),
    .ran (.startSession 2 1 "bob"), .accepted 2 (.bootstrap 1001 [⟨"chat", 1⟩]),
    .ran (.startSession 1 1 "eve"), .accepted 1 (.failure "Already logged on"),
    .ran (.endSession 1), .ran (.startSession 1 1 "ann")]

def secondVisit : List Record :=
  [.accepted 1 (.bootstrap 1002 [⟨"chat", 1⟩]),
    .ran (.handleRequest 2 ⟨1, Chat.broadcast, [.str "hi", .listener ⟨1001, 0⟩]⟩),
    .accepted 2 (Chat.line 1001 "bob" "hi")]

theorem history_visits :
    (((Server.new 2 () : Server Unit Unit).modifyOutboxes fun _ => doors).history visits).1 =
      firstVisit ++ secondVisit ++ [.accepted 1 (Chat.line 1002 "bob" "hi"),
        .accepted 2 (.response ⟨⟨1001, 0⟩, Parley.requestProcessed, []⟩)] := rfl

/-- The line comes under the oid of the second welcome, for which the first session has ended. -/
theorem welcomed_first_visits :
    (∀ id box, doors.find? id = some box → 32 ≤ box.limit) ∧ Left firstVisit 1 ∧
      holder? (firstVisit ++ secondVisit) 1 = some 1002 := by
  have wide : ∀ id box, doors.find? id = some box → 32 ≤ box.limit := by
    intro id box found
    have mem := List.mem_of_find?_eq_some found
    simp only [doors, List.mem_cons, List.not_mem_nil, or_false] at mem
    obtain rfl | rfl := mem <;> decide
  have result := welcomed_first (τ := Unit) 2 () doors wide visits
  dsimp only at result
  rw [history_visits] at result
  obtain ⟨-, addressed, welcomed⟩ := result
  refine ⟨wide, ?_, ?_⟩
  · exact (welcomed firstVisit 1 1002 [⟨"chat", 1⟩] _ rfl).1
  · exact addressed (firstVisit ++ secondVisit) 1 (Chat.line 1002 "bob" "hi") _ 1002 rfl rfl

end Server

end Parley
