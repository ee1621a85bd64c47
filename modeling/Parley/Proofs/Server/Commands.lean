import Mathlib.Algebra.Group.Nat.Defs
import Parley.Server.Context
import Parley.Proofs.Chat.Relay

/-! What the commands of a server come to.
Every oid is granted once, to one connection, and every session goes by an oid that its connection
was granted. What handling a call posts for listeners is for listeners of that call, and of the
client that has made it. -/

namespace Parley.Server

open Dispatch

def granted? (server : Server τ α) (connection : ConnectionId) (version : UInt32)
    (username : String) : Option Oid :=
  if version ≠ protocolVersion then none
  else
    match server.lobby.table? with
    | none => none
    | some table =>
      if table.exhausted then none else (table.add username connection).1.toOption

def answers (server : Server τ α) (connection : ConnectionId) (request : Request) :
    List Response :=
  match server.caller? connection with
  | none => []
  | some caller =>
    if isForged caller request.args then []
    else (server.registry.dispatch Lobby.route caller request server.lobby).2.2.ledger.posted

/-- The server has granted the oids as `granted` says. -/
structure Sound (granted : ConnectionId → Oid → Prop) (server : Server τ α) : Prop where
  steady : server.registry.Steady (Lobby.Advanced fun _ => Chat.Spoken)
  consistent : server.lobby.sessions.Consistent
  sessions : ∀ session ∈ server.lobby.sessions.sessions, granted session.connection session.oid
  counted : ∀ connection oid, granted connection oid →
    ∃ n, n < server.lobby.sessions.nextOid ∧ n < 2 ^ 31 ∧ oid = .ofNat n
  room : server.lobby.poisoned = false → server.lobby.sessions.nextOid < 2 ^ 31
  lost : server.lobby.poisoned = true → server.lobby.sessions.exhausted = true
  unique : ∀ one other oid, granted one oid → granted other oid → one = other

variable {granted : ConnectionId → Oid → Prop} {server : Server τ α}
  {connection : ConnectionId} {request : Request}

theorem Sound.start [Inhabited τ] (maxClients : Nat) (app : α) :
    (Server.new maxClients app : Server τ α).Sound fun _ _ => False := by
  refine ⟨fun target mem table mem' => ?_, .empty maxClients, nofun, nofun, ?_, nofun, nofun⟩
  · simp only [Server.new, Registry.register, Registry.place, List.mem_singleton] at mem
    subst mem
    obtain rfl := List.mem_singleton.1 mem'
    exact Chat.steady_relay
  · intro
    change firstClientOid < 2 ^ 31
    decide

theorem table?_eq_some {lobby : Lobby α} {table : SessionTable}
    (h : lobby.table? = some table) : lobby.poisoned = false ∧ lobby.sessions = table := by
  unfold Lobby.table? at h
  cases poisoned : lobby.poisoned with
  | true =>
    rw [poisoned] at h
    cases h
  | false =>
    rw [poisoned] at h
    exact ⟨rfl, Option.some.inj h⟩

theorem table?_eq_none {lobby : Lobby α} (h : lobby.table? = none) : lobby.poisoned = true := by
  unfold Lobby.table? at h
  split at h
  · assumption
  · cases h

theorem session_of_caller? {caller : Caller} (h : server.caller? connection = some caller) :
    ∃ session, server.lobby.sessions.oidOf? connection = some caller.oid ∧
      server.lobby.sessions.find? caller.oid = some session ∧
      caller.username = session.username := by
  obtain ⟨table, known, named⟩ := Option.bind_eq_some_iff.1 h
  obtain ⟨-, rfl⟩ := table?_eq_some known
  obtain ⟨oid, indexed, named⟩ := Option.bind_eq_some_iff.1 named
  obtain ⟨session, found, named⟩ := Option.bind_eq_some_iff.1 named
  obtain rfl := Option.some.inj named
  exact ⟨session, indexed, found, rfl⟩

theorem Sound.granted_caller {caller : Caller} (sound : server.Sound granted)
    (h : server.caller? connection = some caller) : granted connection caller.oid := by
  obtain ⟨session, indexed, found, -⟩ := session_of_caller? h
  rw [sound.consistent.oidOf?_eq_some] at indexed
  obtain ⟨same, found', rfl⟩ := indexed
  obtain rfl := Option.some.inj (found.symm.trans found')
  have known := sound.consistent.find?_eq_some.1 found
  have own := sound.sessions session (List.mem_map_of_mem known)
  rwa [sound.consistent.keyed _ session known] at own

theorem callerOid_of_unforged {caller : Caller} {args : Arguments} {token : Token}
    (honest : isForged caller args = false) (mem : token ∈ args.tokens) :
    token.callerOid = caller.oid := by
  rw [← args.map_listenersFrom 0] at mem
  obtain ⟨listener, known, rfl⟩ := List.mem_map.1 mem
  simpa using List.any_eq_false.1 honest listener known

/-- What is posted while a call is handled answers listeners of the call and of its caller. -/
theorem Sound.caller_of_answers (sound : server.Sound granted) {response : Response}
    (mem : response ∈ server.answers connection request) :
    response.token ∈ request.args.tokens ∧
      ∃ caller, server.caller? connection = some caller ∧
        response.token.callerOid = caller.oid := by
  unfold answers at mem
  split at mem
  · cases mem
  · rename_i caller found
    split at mem
    · cases mem
    · rename_i honest
      rcases handled : server.registry.dispatch Lobby.route caller request server.lobby with
        ⟨outcome, registry, x⟩
      rw [handled] at mem
      obtain ⟨-, done⟩ := sound.steady.dispatch (fun _ => .refl _) (fun _ _ _ => .trans) handled
      obtain ⟨more, posted, good⟩ := done.posted
      rw [posted] at mem
      have listed := good response mem
      exact ⟨listed, caller, found, callerOid_of_unforged (by simpa using honest) listed⟩

theorem Sound.granted_of_answers (sound : server.Sound granted) {response : Response}
    (mem : response ∈ server.answers connection request) :
    response.token ∈ request.args.tokens ∧ granted connection response.token.callerOid := by
  obtain ⟨listed, caller, found, own⟩ := sound.caller_of_answers mem
  exact ⟨listed, own ▸ sound.granted_caller found⟩

/-- Handling a call advances the lobby by events and by answers to it, and the answers go to the
connection that it came from. -/
theorem Sound.handleRequest (sound : server.Sound granted) (connection : ConnectionId)
    (request : Request) :
    let after := (server.handleRequest connection request).2
    after.registry.Steady (Lobby.Advanced fun _ => Chat.Spoken) ∧
    server.lobby.Advanced (fun id message => Chat.Spoken message ∨ id = connection ∧
      ∃ response ∈ server.answers connection request, message = .response response)
      after.lobby := by
  have mine (response : Response) (mem : response ∈ server.answers connection request) :=
    sound.caller_of_answers mem
  unfold Server.handleRequest
  unfold answers at mine ⊢
  cases found : server.caller? connection with
  | none => exact ⟨sound.steady, .refl _⟩
  | some caller =>
    rw [found] at mine
    dsimp only at mine ⊢
    cases honest : isForged caller request.args with
    | true => exact ⟨sound.steady, .refl _⟩
    | false =>
      rw [honest] at mine
      rcases handled : server.registry.dispatch Lobby.route caller request server.lobby with
        ⟨outcome, registry, x⟩
      rw [handled] at mine
      obtain ⟨stays, -⟩ := sound.steady.dispatch (fun _ => .refl _) (fun _ _ _ => .trans) handled
      -- an answer goes where the caller's session is, and while the handler runs it is still there
      have wide : server.registry.Steady fun s t =>
          s.sessions.withoutAway = server.lobby.sessions.withoutAway →
          Lobby.Advanced (fun id message => Chat.Spoken message ∨ id = connection ∧
            ∃ response ∈ x.ledger.posted, message = .response response) s t :=
        sound.steady.mono fun _ _ changed _ => changed.mono fun _ _ => .inl
      obtain ⟨-, done⟩ := wide.dispatch (fun s _ => .refl s)
        (fun s t u first second same =>
          (first same).trans (second ((first same).clients.trans same))) handled
      have advanced := done.state (fun response mem lobby same =>
        .route lobby fun session known => .inr ⟨?_, response, mem, rfl⟩) rfl
      · cases outcome <;> exact ⟨stays, advanced⟩
      · obtain ⟨-, _, caller', own⟩ := mine response mem
        obtain rfl := Option.some.inj caller'
        obtain ⟨_, indexed, -⟩ := session_of_caller? found
        have consistent := sound.consistent.of_withoutAway same
        obtain ⟨old, listed, -, -, place⟩ := SessionTable.mem_byOid_of_withoutAway same
          (consistent.find?_eq_some.1 known)
        rw [← place, sound.consistent.connection_eq_iff listed, own]
        exact indexed

def grants (server : Server τ α) : Command → List (ConnectionId × Oid)
  | .startSession connection version username =>
    ((server.granted? connection version username).map (connection, ·)).toList
  | _ => []

def responses (server : Server τ α) : Command → List Response
  | .handleRequest connection request => server.answers connection request
  | _ => []

/-- The messages that a command can post to a connection. -/
def Posts (server : Server τ α) (command : Command) (connection : ConnectionId)
    (message : Message) : Prop :=
  Chat.Spoken message ∨ (∃ reason, message = .failure reason) ∨
    (∃ response ∈ server.responses command, message = .response response) ∨
    ∃ oid services, message = .bootstrap oid services ∧ (connection, oid) ∈ server.grants command

/-- A command was carried out: the server is sound with what was granted, and nothing was posted
but what the command posts. -/
structure Performed (granted : ConnectionId → Oid → Prop) (command : Command)
    (before after : Server τ α) : Prop where
  sound : after.Sound fun connection oid =>
    granted connection oid ∨ (connection, oid) ∈ before.grants command
  outboxes : before.lobby.outboxes.Grown (before.Posts command) after.lobby.outboxes

theorem Sound.advance {P : ConnectionId → Message → Prop} {after : Server τ α}
    (sound : server.Sound granted)
    (steady : after.registry.Steady (Lobby.Advanced fun _ => Chat.Spoken))
    (advanced : server.lobby.Advanced P after.lobby) : after.Sound granted := by
  refine ⟨steady, sound.consistent.of_withoutAway advanced.clients, fun session mem => ?_,
    fun connection oid known => ?_, fun whole => ?_, fun lost => ?_, sound.unique⟩
  · obtain ⟨old, mem, oid, connection⟩ := advanced.sessions mem
    exact oid ▸ connection ▸ sound.sessions old mem
  · obtain ⟨n, less, small, same⟩ := sound.counted connection oid known
    exact ⟨n, by rwa [advanced.nextOid], small, same⟩
  · rw [advanced.nextOid]
    exact sound.room (advanced.poisoned ▸ whole)
  · rw [SessionTable.exhausted, advanced.nextOid]
    exact sound.lost (advanced.poisoned ▸ lost)

theorem Sound.mono {granted' : ConnectionId → Oid → Prop} (sound : server.Sound granted)
    (same : ∀ connection oid, granted connection oid ↔ granted' connection oid) :
    server.Sound granted' := by
  obtain rfl : granted = granted' := by
    funext connection oid
    exact propext (same connection oid)
  exact sound

theorem Sound.modifyLobby {f : Lobby α → Lobby α} (sound : server.Sound granted)
    (sessions : (f server.lobby).sessions = server.lobby.sessions)
    (poisoned : (f server.lobby).poisoned = server.lobby.poisoned) :
    (server.modifyLobby f).Sound granted := by
  obtain ⟨steady, consistent, held, counted, room, lost, unique⟩ := sound
  rw [← sessions] at consistent held counted room lost
  rw [← poisoned] at room lost
  exact ⟨steady, consistent, held, counted, room, lost, unique⟩

theorem Sound.performed {command : Command} {after : Server τ α} (sound : after.Sound granted)
    (none : server.grants command = [])
    (outboxes : server.lobby.outboxes.Grown (server.Posts command) after.lobby.outboxes) :
    Performed granted command server after :=
  ⟨sound.mono fun _ _ => by simp [none], outboxes⟩

theorem advanced_refuse (server : Server τ α) (connection : ConnectionId) (reason : String)
    (command : Command) :
    server.lobby.Advanced (server.Posts command) (server.refuse connection reason).lobby :=
  .post server.lobby (.inr (.inl ⟨reason, rfl⟩))

theorem Sound.unused (sound : server.Sound granted)
    (left : server.lobby.sessions.exhausted = false) (connection : ConnectionId) :
    ¬ granted connection (.ofNat server.lobby.sessions.nextOid) := by
  intro known
  have room : server.lobby.sessions.nextOid < 2 ^ 31 - 1 := by
    simpa [SessionTable.exhausted] using left
  obtain ⟨n, less, small, same⟩ := sound.counted connection _ known
  have equal := ofNat_injective (by omega) small same
  omega

theorem Sound.grant {username : String} {after : Server τ α} {table : SessionTable}
    (sound : server.Sound granted) (left : server.lobby.sessions.exhausted = false) {oid : Oid}
    (added : server.lobby.sessions.add username connection = (.ok oid, table))
    (registry : after.registry = server.registry) (sessions : after.lobby.sessions = table)
    (whole : after.lobby.poisoned = false) :
    after.Sound fun c o => granted c o ∨ (c, o) ∈ [(connection, oid)] := by
  have consistent := sound.consistent.add (by simp [SessionTable.exhausted] at left; omega) added
  obtain ⟨-, rfl, equal⟩ := SessionTable.add_eq_ok added
  have next : table.nextOid = server.lobby.sessions.nextOid + 1 := by rw [equal]
  have open' : table.sessions = server.lobby.sessions.sessions ++
      [({ oid := .ofNat server.lobby.sessions.nextOid, username, connection } : Session)] := by
    rw [equal, SessionTable.sessions, List.map_append]
    rfl
  have room : server.lobby.sessions.nextOid < 2 ^ 31 - 1 := by
    simpa [SessionTable.exhausted] using left
  have unused := sound.unused left
  refine ⟨registry ▸ sound.steady, sessions ▸ consistent, fun session mem => ?_,
    fun c o known => ?_, fun _ => ?_, fun lost => ?_, fun one other o first second => ?_⟩
  · rw [sessions, open'] at mem
    obtain mem | mem := List.mem_append.1 mem
    · exact .inl (sound.sessions session mem)
    · obtain rfl := List.mem_singleton.1 mem
      exact .inr (List.mem_singleton_self _)
  · rw [sessions, next]
    obtain known | known := known
    · obtain ⟨n, less, small, same⟩ := sound.counted c o known
      exact ⟨n, by omega, small, same⟩
    · obtain ⟨-, rfl⟩ := Prod.mk.inj (List.mem_singleton.1 known)
      exact ⟨_, by omega, by omega, rfl⟩
  · rw [sessions, next]
    omega
  · rw [whole] at lost
    cases lost
  · obtain first | first := first
    all_goals obtain second | second := second
    · exact sound.unique one other o first second
    · obtain ⟨-, rfl⟩ := Prod.mk.inj (List.mem_singleton.1 second)
      exact (unused one first).elim
    · obtain ⟨-, rfl⟩ := Prod.mk.inj (List.mem_singleton.1 first)
      exact (unused other second).elim
    · obtain ⟨rfl, -⟩ := Prod.mk.inj (List.mem_singleton.1 first)
      obtain ⟨rfl, -⟩ := Prod.mk.inj (List.mem_singleton.1 second)
      rfl

theorem Sound.startSession (sound : server.Sound granted) (connection : ConnectionId)
    (version : UInt32) (username : String) :
    Performed granted (.startSession connection version username) server
      (server.startSession connection version username).2 := by
  have grants : server.grants (.startSession connection version username) =
    ((server.granted? connection version username).map (connection, ·)).toList := rfl
  have refused (reason : String)
      (none : server.granted? connection version username = none) :
      Performed granted (.startSession connection version username) server
        (server.refuse connection reason) := by
    have advanced := server.advanced_refuse connection reason
      (.startSession connection version username)
    have stays : (server.refuse connection reason).Sound granted :=
      sound.advance sound.steady advanced
    rw [none] at grants
    exact stays.performed grants advanced.outboxes
  unfold granted? at grants refused
  unfold Server.startSession
  by_cases other : version ≠ protocolVersion
  · rw [if_pos other]
    exact refused _ (if_pos other)
  rw [if_neg other]
  rw [if_neg other] at grants refused
  cases known : server.lobby.table? with
  | none => exact refused _ (by rw [known])
  | some table =>
    rw [known] at grants refused
    obtain ⟨whole, rfl⟩ := table?_eq_some known
    dsimp only at grants refused ⊢
    rcases added : server.lobby.sessions.add username connection with ⟨refusal | oid, table⟩
    all_goals rw [added] at grants refused
    · exact refused _ (by simp [Except.toOption])
    · cases left : server.lobby.sessions.exhausted with
      | true =>
        -- the session table is lost, with what it would have held
        rw [left] at grants
        have stays : (server.modifyLobby ({ · with poisoned := true })).Sound granted :=
          ⟨sound.steady, sound.consistent, sound.sessions, sound.counted,
            fun whole => Bool.noConfusion whole, fun _ => left, sound.unique⟩
        exact stays.performed grants (.refl _)
      | false =>
        rw [left] at grants
        refine ⟨?_, Outboxes.grown_post _ (.inr (.inr (.inr ⟨oid, _, rfl, ?_⟩)))⟩
        · rw [grants]
          exact sound.grant left added rfl rfl whole
        · rw [grants]
          exact List.mem_singleton_self _

theorem Sound.endSession (sound : server.Sound granted) (connection : ConnectionId) :
    Performed granted (.endSession connection) server (server.endSession connection) := by
  unfold Server.endSession
  cases known : server.lobby.table? with
  | none => exact sound.performed rfl (.refl _)
  | some table =>
    obtain ⟨-, rfl⟩ := table?_eq_some known
    obtain ⟨-, next, -⟩ := server.lobby.sessions.stepped_perform (.removeByConnection connection)
    have fewer := sound.consistent.byOid_removeByConnection connection
    refine Sound.performed ⟨sound.steady, sound.consistent.removeByConnection connection,
      fun session mem => ?_, fun c o known => ?_, fun whole => ?_, fun lost => ?_, sound.unique⟩
      rfl (.refl _)
    · obtain ⟨⟨oid, session⟩, listed, rfl⟩ := List.mem_map.1 mem
      have old := (List.mem_filter.1 (fewer ▸ listed)).1
      exact sound.sessions session (List.mem_map_of_mem old)
    · obtain ⟨n, less, small, same⟩ := sound.counted c o known
      exact ⟨n, next ▸ less, small, same⟩
    · exact next ▸ sound.room whole
    · have same : (server.lobby.sessions.removeByConnection connection).2.nextOid =
          server.lobby.sessions.nextOid := next
      exact (congrArg (decide <| 2147483647 ≤ ·) same).trans (sound.lost lost)

/-- Whatever the command, carrying it out leaves a sound server behind. -/
theorem Sound.perform (sound : server.Sound granted) (command : Command) :
    Performed granted command server (server.perform command).2 := by
  cases command with
  | startSession connection version username =>
    exact sound.startSession connection version username
  | handleRequest connection request =>
    obtain ⟨steady, advanced⟩ := sound.handleRequest connection request
    refine Sound.performed (sound.advance steady advanced) rfl (advanced.outboxes.mono ?_)
    intro _ message good
    exact good.imp_right fun posted => .inr (.inl posted.2)
  | endSession connection => exact sound.endSession connection

/-- The message is no response, or the command handles a request of the connection that has handed
over the listener of this response. -/
def Answers (command : Command) (connection : ConnectionId) (message : Message) : Prop :=
  ∀ response, message = .response response → ∃ request,
    command = .handleRequest connection request ∧ response.token ∈ request.args.tokens

/-- No connection is posted a response but while one of its own requests is handled. -/
theorem Sound.grown_perform (sound : server.Sound granted) (command : Command) :
    server.lobby.outboxes.Grown (Answers command) (server.perform command).2.lobby.outboxes := by
  have other (none : server.responses command = []) :
      server.lobby.outboxes.Grown (Answers command) (server.perform command).2.lobby.outboxes := by
    refine (sound.perform command).outboxes.mono fun id message posts => ?_
    obtain ⟨event, rfl⟩ | ⟨reason, rfl⟩ | ⟨response, mem, rfl⟩ | ⟨oid, services, rfl, -⟩ := posts
    · exact nofun
    · exact nofun
    · rw [none] at mem
      cases mem
    · exact nofun
  cases command with
  | startSession connection version username => exact other rfl
  | handleRequest connection request =>
    refine (sound.handleRequest connection request).2.outboxes.mono fun id message posts => ?_
    obtain ⟨event, rfl⟩ | ⟨rfl, response, mem, rfl⟩ := posts
    · exact nofun
    · intro response' same
      cases same
      exact ⟨request, rfl, (sound.caller_of_answers mem).1⟩
  | endSession connection => exact other rfl

theorem mem_sessions_add {table after : SessionTable} {username : String}
    {connection : ConnectionId} {oid : Oid}
    (added : table.add username connection = (.ok oid, after)) {session : Session}
    (mem : session ∈ after.sessions) :
    session ∈ table.sessions ∨ session.connection = connection := by
  obtain ⟨-, -, equal⟩ := SessionTable.add_eq_ok added
  rw [equal, SessionTable.sessions, List.map_append] at mem
  obtain mem | mem := List.mem_append.1 mem
  · exact .inl mem
  · obtain rfl := List.mem_singleton.1 mem
    exact .inr rfl

theorem mem_sessions_startSession {connection : ConnectionId} {version : UInt32}
    {username : String} {session : Session}
    (mem : session ∈ (server.startSession connection version username).2.lobby.sessions.sessions) :
    session ∈ server.lobby.sessions.sessions ∨ session.connection = connection := by
  unfold startSession at mem
  split at mem
  · exact .inl mem
  · split at mem
    · exact .inl mem
    · rename_i table known
      obtain ⟨-, rfl⟩ := table?_eq_some known
      split at mem
      · exact .inl mem
      · rename_i oid after added
        split at mem
        · exact .inl mem
        · exact mem_sessions_add added mem

theorem poisoned_perform (lost : server.lobby.poisoned = true) (command : Command) :
    (server.perform command).2.lobby.poisoned = true := by
  have none : server.lobby.table? = none := if_pos lost
  cases command with
  | startSession connection version username =>
    unfold perform startSession
    dsimp only
    split
    · exact lost
    · rw [none]
      exact lost
  | handleRequest connection request =>
    have nobody : server.caller? connection = .none := by rw [caller?, none]; rfl
    unfold perform handleRequest
    dsimp only
    rw [nobody]
    exact lost
  | endSession connection =>
    unfold perform endSession
    dsimp only
    rw [none]
    exact lost

/-- A session that a command finds stays unless its connection is ended, and one that is new
belongs to the connection that has logged on. -/
theorem Sound.mem_sessions_perform (sound : server.Sound granted) {command : Command}
    (whole : (server.perform command).2.lobby.poisoned = false) {session : Session}
    (mem : session ∈ (server.perform command).2.lobby.sessions.sessions) :
    (command ≠ .endSession session.connection ∧
      ∃ old ∈ server.lobby.sessions.sessions, old.connection = session.connection) ∨
    ∃ version username, command = .startSession session.connection version username := by
  cases command with
  | startSession connection version username =>
    obtain mem | rfl := mem_sessions_startSession mem
    · exact .inl ⟨nofun, session, mem, rfl⟩
    · exact .inr ⟨version, username, rfl⟩
  | handleRequest connection request =>
    obtain ⟨old, known, -, place⟩ := (sound.handleRequest connection request).2.sessions mem
    exact .inl ⟨nofun, old, known, place⟩
  | endSession connection =>
    unfold Server.perform Server.endSession at mem whole
    cases known : server.lobby.table? with
    | none =>
      rw [known] at whole
      cases (table?_eq_none known).symm.trans whole
    | some table =>
      obtain ⟨-, rfl⟩ := table?_eq_some known
      rw [known] at mem
      obtain ⟨⟨oid, session⟩, listed, rfl⟩ := List.mem_map.1 mem
      have rest := sound.consistent.byOid_removeByConnection connection
      obtain ⟨old, apart⟩ := List.mem_filter.1 (rest ▸ listed)
      refine .inl ⟨fun same => ?_, session, List.mem_map_of_mem old, rfl⟩
      simp [Command.endSession.inj same] at apart

/-- A command that panics has done its work as any other, and the next one follows. -/
theorem step?_behave {hall : Hall τ α} {command : Command} {rest : List Command}
    (next : hall.pending = command :: rest) :
    hall.step? behave = some { hall with
      context := (hall.context.perform command).2
      pending := rest
      executed := hall.executed + 1 } := by
  unfold ActionQueue.step?
  rw [next]
  dsimp only [behave, Activity.run]
  rcases hall.context.perform command with ⟨_ | text, after⟩ <;> rfl

end Parley.Server
