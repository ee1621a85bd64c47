import Parley.Proofs.Network.Pictures
import Parley.Proofs.Network.Utterances

/-! What the server keeps of the away texts of a client, and tells the client of them.
A client whose session is open has the last away text that the server has dealt with, and was told
of each of them under its own oid, in their order; nobody else was told. -/

namespace Parley

open Chat (Call awayAttribute)
open Dispatch (Caller)

/-- The away text that a call sets. -/
def Chat.Call.awayText? : Chat.Call → Option String
  | .away text => some text
  | _ => none

def Chat.awayText? : Message → Option String
  | .invocation request => (Call.ofRequest request).awayText?
  | _ => none

def Server.awayTexts (commands : List Server.Command) : List String :=
  commands.filterMap fun
    | .handleRequest _ request => (Call.ofRequest request).awayText?
    | _ => none

theorem Server.awayTexts_append (commands more : List Server.Command) :
    awayTexts (commands ++ more) = awayTexts commands ++ awayTexts more :=
  List.filterMap_append

theorem Server.awayTexts_command? (id : ConnectionId) (messages : List Message) :
    awayTexts (messages.filterMap (command? id)) = messages.filterMap Chat.awayText? := by
  rw [awayTexts, List.filterMap_filterMap]
  refine List.filterMap_congr fun message _ => ?_
  cases message <;> rfl

namespace Chat

variable {lobby : Server.Lobby α} {caller : Caller} {call : Call}
  {post : ConnectionId × Message}

theorem line_of_mem_announced {speaker text : String} {sessions : List Session}
    (mem : post ∈ announced speaker text lobby sessions) :
    ∃ oid, post.2 = line oid speaker text := by
  induction sessions generalizing lobby with
  | nil => cases mem
  | cons session rest ih =>
    rw [announced] at mem
    split at mem
    · obtain rfl := List.mem_singleton.1 mem
      exact ⟨session.oid, rfl⟩
    · obtain rfl | mem := List.mem_cons.1 mem
      · exact ⟨session.oid, rfl⟩
      · exact ih mem

theorem value?_of_mem_events (other : call.awayText? = none) (mem : post ∈ call.events lobby caller)
    (oid : Oid) (name : String) : post.2.value? oid name = none := by
  cases call with
  | tell target text =>
    obtain ⟨session, -, rfl⟩ := Option.map_eq_some_iff.1 (Option.mem_toList.1 mem)
    rfl
  | broadcast text =>
    obtain ⟨place, same⟩ := line_of_mem_announced mem
    rw [same]
    rfl
  | away text => cases other
  | other => cases mem

theorem sessions_of_awayText? (other : call.awayText? = none) :
    call.sessions lobby caller = lobby.sessions := by
  cases call with
  | away text => cases other
  | _ => rfl

theorem eq_away_of_awayText? {text : String} (asked : call.awayText? = some text) :
    call = .away text := by
  cases call with
  | away other => exact congrArg Call.away (Option.some.inj asked)
  | _ => cases asked

theorem unforged_of_awayText? {request : Request} {text : String}
    (asked : (Call.ofRequest request).awayText? = some text) (caller : Caller) :
    Server.isForged caller request.args = false := by
  have plain : request.args = [.str text] := by
    unfold Call.ofRequest Call.read at asked
    repeat' split at asked
    all_goals cases asked
    assumption
  rw [plain]
  rfl

end Chat

namespace Network

open Client (isWelcome)
open Server (Command Lobby awayTexts)
open Outboxes (mail)

/-- A lobby knows the last of the away texts that a client has set, and has told the client of
all of them, when it has dealt with the commands of the client and has posted the messages to it. -/
structure Notes (lobby : Lobby α) (id : ConnectionId) (commands : List Command)
    (messages : List Message) : Prop where
  fresh : commands = [] →
    (∀ session ∈ lobby.sessions.sessions, session.connection ≠ id) ∧ welcomed? messages = none
  kept : lobby.poisoned = false → ∀ session ∈ lobby.sessions.sessions, session.connection = id →
    session.away.map (·.text) = (awayTexts commands).getLast?.filter (!·.isEmpty)
  told : lobby.poisoned = false → ¬ lobby.outboxes.Refuses id →
    ∀ session ∈ lobby.sessions.sessions, session.connection = id →
      welcomed? messages = some session.oid ∧
      (sinceWelcome messages).filterMap (·.value? session.oid awayAttribute) =
        (awayTexts commands).map .str
  /-- Nobody is told of the away text of somebody else. -/
  own : ∀ oid, ∀ message ∈ messages, message.value? oid awayAttribute ≠ none →
    welcomed? messages = some oid

variable {lobby lobby' : Lobby α} {id : ConnectionId} {commands more : List Command}
  {messages posts : List Message}

theorem isWelcome_of_welcomed? {oid : Oid} (welcome : welcomed? messages = some oid) :
    ∃ message ∈ messages, isWelcome message = true := by
  obtain ⟨message, mem, same⟩ := List.exists_of_findSome?_eq_some welcome
  refine ⟨message, mem, ?_⟩
  cases message <;> first | rfl | cases same

theorem welcomed?_append_of_none (unwelcome : welcomed? messages = none)
    (posts : List Message) : welcomed? (messages ++ posts) = welcomed? posts := by
  rw [welcomed?, List.findSome?_append, ← welcomed?, unwelcome]
  rfl

def Idle (messages : List Message) : Prop :=
  ∀ message ∈ messages, message.welcome? = none ∧ ∀ oid, message.value? oid awayAttribute = none

theorem Idle.values (idle : Idle messages) (oid : Oid) :
    messages.filterMap (·.value? oid awayAttribute) = [] :=
  List.filterMap_eq_nil_iff.2 fun message mem => (idle message mem).2 oid

theorem Idle.welcomed? (idle : Idle posts) (messages : List Message) :
    welcomed? (messages ++ posts) = Network.welcomed? messages := by
  cases welcome : Network.welcomed? messages with
  | some oid => exact welcomed?_append welcome posts
  | none =>
    rw [welcomed?_append_of_none welcome]
    exact List.findSome?_eq_none_iff.2 fun message mem => (idle message mem).1

/-- Whatever sets no away text and opens no session leaves all that as it is. -/
theorem Notes.keep (notes : Notes lobby id commands messages)
    (poison : lobby'.poisoned = false → lobby.poisoned = false)
    (sessions : ∀ session ∈ lobby'.sessions.sessions, session.connection = id →
      session ∈ lobby.sessions.sessions)
    (refuses : (∃ session ∈ lobby.sessions.sessions, session.connection = id) →
      lobby.outboxes.Refuses id → lobby'.outboxes.Refuses id)
    (mute : lobby.poisoned = false → (∃ session ∈ lobby.sessions.sessions,
      session.connection = id) → awayTexts more = [])
    (idle : Idle posts) : Notes lobby' id (commands ++ more) (messages ++ posts) := by
  refine ⟨fun none => ?_, fun whole session mem place => ?_,
    fun whole takes session mem place => ?_, fun oid message mem told => ?_⟩
  · obtain ⟨free, unwelcome⟩ := notes.fresh (List.append_eq_nil_iff.1 none).1
    exact ⟨fun session mem place => free session (sessions session mem place) place,
      (idle.welcomed? messages).trans unwelcome⟩
  · have listed := sessions session mem place
    rw [Server.awayTexts_append, mute (poison whole) ⟨session, listed, place⟩, List.append_nil]
    exact notes.kept (poison whole) session listed place
  · have listed := sessions session mem place
    have taken : ¬ lobby.outboxes.Refuses id :=
      fun refused => takes (refuses ⟨session, listed, place⟩ refused)
    obtain ⟨welcome, values⟩ := notes.told (poison whole) taken session listed place
    refine ⟨(idle.welcomed? messages).trans welcome, ?_⟩
    rw [Server.awayTexts_append, mute (poison whole) ⟨session, listed, place⟩, List.append_nil,
      sinceWelcome_append (isWelcome_of_welcomed? welcome), List.filterMap_append, values,
      idle.values, List.append_nil]
  · rw [idle.welcomed?]
    obtain mem | mem := List.mem_append.1 mem
    · exact notes.own oid message mem told
    · exact (told ((idle message mem).2 oid)).elim

section Steps

variable {server : Server τ α} {granted : ConnectionId → Oid → Prop} {posted : List Message}
  {connection : ConnectionId} {command : Command}

/-- The connection takes all that the server has to say to it, or nothing. -/
structure Takes (server : Server τ α) (id : ConnectionId) (command : Command)
    (posted : List Message) : Prop where
  all : ¬ server.lobby.outboxes.Refuses id → posted = mail id (server.utters command)
  none : server.lobby.outboxes.Refuses id → posted = []

theorem Takes.subset (takes : Takes server id command posted) {message : Message}
    (mem : message ∈ posted) :
    (id, message) ∈ server.utters command ∧ ¬ server.lobby.outboxes.Refuses id := by
  by_cases refuses : server.lobby.outboxes.Refuses id
  · rw [takes.none refuses] at mem
    cases mem
  · rw [takes.all refuses] at mem
    exact ⟨Outboxes.mem_mail.1 mem, refuses⟩

theorem whole_of_perform (whole : (server.perform command).2.lobby.poisoned = false) :
    server.lobby.poisoned = false := by
  by_contra lost
  have still := Server.poisoned_perform (by simpa using lost) command
  cases still.symm.trans whole

variable [Inhabited τ]

theorem stands_perform (chat : server.registry = Chat.registry)
    (consistent : server.lobby.sessions.Consistent) (command : Command) :
    server.lobby.outboxes.Stands (server.perform command).2.lobby.outboxes := by
  rw [(Server.outboxes_perform chat consistent command).2]
  exact .offerAll _ _

theorem Notes.startSession {version : UInt32} {username : String}
    (notes : Notes server.lobby id commands messages)
    (chat : server.registry = Chat.registry) (sound : server.Sound granted)
    (takes : Takes server id (.startSession connection version username) posted)
    (once : connection = id → commands = []) :
    Notes (server.perform (.startSession connection version username)).2.lobby id
      (commands ++ [Command.startSession connection version username].filter (·.isFrom id))
      (messages ++ posted) := by
  have stands := stands_perform chat sound.consistent
    (.startSession connection version username)
  have mute : awayTexts ([Command.startSession connection version username].filter
      (·.isFrom id)) = [] := by
    by_cases here : connection = id <;> simp [awayTexts, Command.isFrom, here]
  have said (message : Message) (mem : message ∈ posted) :
      connection = id ∧ server.greeting? connection version username = some message := by
    obtain ⟨greeting, known, same⟩ := Option.map_eq_some_iff.1
      (Option.mem_toList.1 (takes.subset mem).1)
    obtain ⟨rfl, rfl⟩ := Prod.mk.inj same
    exact ⟨rfl, known⟩
  obtain ⟨failures, same, -⟩ | ⟨oid, added, -, greeting, -⟩ :=
    server.startSession_cases connection version username
  · refine notes.keep whole_of_perform (fun session mem _ => ?_) (fun _ => stands.refuses id)
      (fun _ _ => mute) fun message mem => ?_
    · rw [← same]
      exact mem
    · obtain ⟨reason, rfl⟩ := failures message (said message mem).2
      exact ⟨rfl, fun _ => rfl⟩
  · have sessions (session : Session) (mem : session ∈ (server.perform
        (.startSession connection version username)).2.lobby.sessions.sessions) :
        session ∈ server.lobby.sessions.sessions ∨ session = { oid, username, connection } := by
      have grown : session ∈
        (server.startSession connection version username).2.lobby.sessions.sessions := mem
      obtain ⟨-, -, after⟩ := SessionTable.add_eq_ok added
      rw [after, SessionTable.sessions, List.map_append] at grown
      exact (List.mem_append.1 grown).imp_right List.mem_singleton.1
    by_cases here : connection = id
    · subst here
      obtain rfl := once rfl
      obtain ⟨free, unwelcome⟩ := notes.fresh rfl
      -- the only session that the connection can have is the new one
      have new (session : Session) (mem : session ∈ (server.perform
          (.startSession connection version username)).2.lobby.sessions.sessions)
          (place : session.connection = connection) : session = { oid, username, connection } :=
        (sessions session mem).resolve_left fun old => free session old place
      rw [List.nil_append]
      refine ⟨fun none => ?_, fun _ session mem place => ?_, fun _ takes' session mem place => ?_,
        fun other message mem told => ?_⟩
      · simp [Command.isFrom] at none
      · rw [new session mem place, mute]
        rfl
      · have open' : ¬ server.lobby.outboxes.Refuses connection :=
          fun refused => takes' (stands.refuses _ refused)
        have posted : posted = [.bootstrap oid server.registry.bindings] := by
          rw [takes.all open', Server.utters, greeting]
          exact Outboxes.mail_cons_self ..
        have skipped (message : Message) (mem : message ∈ messages) :
            isWelcome message = false := by
          have passed := List.findSome?_eq_none_iff.1 unwelcome message mem
          cases message <;> first | rfl | cases passed
        rw [new session mem place, mute, posted, welcomed?_append_of_none unwelcome,
          sinceWelcome_of_passed skipped]
        exact ⟨rfl, rfl⟩
      · obtain mem | mem := List.mem_append.1 mem
        · cases unwelcome.symm.trans (notes.own other message mem told)
        · obtain rfl := Option.some.inj ((said message mem).2.symm.trans greeting)
          exact (told rfl).elim
    · refine notes.keep whole_of_perform (fun session mem place => ?_)
        (fun _ => stands.refuses id) (fun _ _ => mute) fun message mem => ?_
      · obtain mem | rfl := sessions session mem
        · exact mem
        · exact (here place).elim
      · exact (here (said message mem).1).elim

theorem Notes.endSession (notes : Notes server.lobby id commands messages)
    (chat : server.registry = Chat.registry) (sound : server.Sound granted)
    (takes : Takes server id (.endSession connection) posted) :
    Notes (server.perform (.endSession connection)).2.lobby id commands
      (messages ++ posted) := by
  have stands := stands_perform chat sound.consistent (.endSession connection)
  have kept : Notes (server.perform (.endSession connection)).2.lobby id (commands ++ [])
      (messages ++ posted) := by
    refine notes.keep whole_of_perform (fun session mem _ => ?_) (fun _ => stands.refuses id)
      (fun _ _ => rfl) fun message mem => ?_
    · exact Server.mem_sessions_endSession sound.consistent mem
    · exact absurd (takes.subset mem).1 List.not_mem_nil
  rwa [List.append_nil] at kept

section Requests

variable {request : Request} {caller : Caller}

omit [Inhabited τ] in
theorem Notes.drop (notes : Notes server.lobby id commands messages) (sound : server.Sound granted)
    (dropped : ∀ caller, server.caller? connection = some caller →
      Server.isForged caller request.args = true)
    (takes : Takes server id (.handleRequest connection request) posted) :
    Notes (server.perform (.handleRequest connection request)).2.lobby id
      (commands ++ [Command.handleRequest connection request].filter (·.isFrom id))
      (messages ++ posted) := by
  obtain ⟨same, silent⟩ := Server.handleRequest_eq_of_dropped dropped
  have still : (server.perform (.handleRequest connection request)).2.lobby = server.lobby :=
    congrArg (·.2.lobby) same
  rw [still]
  refine notes.keep (fun whole => whole) (fun _ mem _ => mem) (fun _ refuses => refuses)
    (fun whole logged => ?_) fun message mem => ?_
  · obtain ⟨session, mem, rfl⟩ := logged
    by_cases here : connection = session.connection
    · have found : server.caller? connection = some ⟨session.oid, session.username⟩ := by
        have known := sound.consistent.mem_sessions.1 mem
        have indexed := sound.consistent.oidOf?_eq_some.2 ⟨session, known, here.symm⟩
        simp [Server.caller?, Lobby.table?, whole, indexed, known]
      have forged := dropped _ found
      cases asked : (Call.ofRequest request).awayText? with
      | none => simp [awayTexts, Command.isFrom, here, asked]
      | some text =>
        rw [Chat.unforged_of_awayText? asked] at forged
        cases forged
    · simp [awayTexts, Command.isFrom, here]
  · have told := (takes.subset mem).1
    rw [silent] at told
    cases told

omit [Inhabited τ] in
theorem utters_away (sound : server.Sound granted)
    (found : server.caller? connection = some caller)
    (honest : Server.isForged caller request.args = false) {text : String}
    (asked : Call.ofRequest request = .away text) :
    server.utters (.handleRequest connection request) =
      (connection, Chat.awayChange caller.oid text) ::
        (server.answers connection request).map fun response =>
          (connection, .response response) := by
  obtain ⟨session, known, place⟩ := (Server.present_of_caller? sound.consistent found).session
  rw [Server.utters_of_caller? found honest, asked, Call.events, known, ← place]
  rfl

section Handled

variable (chat : server.registry = Chat.registry) (sound : server.Sound granted)
  (found : server.caller? connection = some caller)
  (honest : Server.isForged caller request.args = false)

include chat sound found honest

theorem sessions_handleRequest :
    (server.perform (.handleRequest connection request)).2.lobby.sessions =
      (Call.ofRequest request).sessions server.lobby caller := by
  rw [Server.perform, Server.handleRequest_eq chat sound.consistent found honest]

theorem Notes.converse (notes : Notes server.lobby id commands messages)
    (other : (Call.ofRequest request).awayText? = none)
    (takes : Takes server id (.handleRequest connection request) posted) :
    Notes (server.perform (.handleRequest connection request)).2.lobby id
      (commands ++ [Command.handleRequest connection request].filter (·.isFrom id))
      (messages ++ posted) := by
  have stands := stands_perform chat sound.consistent (.handleRequest connection request)
  have sessions := sessions_handleRequest chat sound found honest
  rw [Chat.sessions_of_awayText? other] at sessions
  refine notes.keep whole_of_perform (fun session mem _ => ?_) (fun _ => stands.refuses id)
    (fun _ _ => ?_) fun message mem => ?_
  · rwa [sessions] at mem
  · by_cases here : connection = id <;> simp [awayTexts, Command.isFrom, here, other]
  · have told := (takes.subset mem).1
    refine ⟨(sound.mem_utters told).1, fun oid => ?_⟩
    rw [Server.utters_of_caller? found honest] at told
    obtain said | answered := List.mem_append.1 told
    · exact Chat.value?_of_mem_events other said oid awayAttribute
    · obtain ⟨response, -, same⟩ := List.mem_map.1 answered
      obtain rfl := congrArg Prod.snd same
      rfl

variable {text : String} (asked : Call.ofRequest request = .away text)

include asked

theorem Notes.ignore (notes : Notes server.lobby id commands messages) (apart : connection ≠ id)
    (takes : Takes server id (.handleRequest connection request) posted) :
    Notes (server.perform (.handleRequest connection request)).2.lobby id
      (commands ++ [Command.handleRequest connection request].filter (·.isFrom id))
      (messages ++ posted) := by
  have stands := stands_perform chat sound.consistent (.handleRequest connection request)
  obtain ⟨caller', known, place⟩ := (Server.present_of_caller? sound.consistent found).session
  refine notes.keep whole_of_perform (fun session mem place' => ?_) (fun _ => stands.refuses id)
    (fun _ _ => ?_) fun message mem => ?_
  · rw [sessions_handleRequest chat sound found honest, asked] at mem
    obtain ⟨old, listed, rfl⟩ := sound.consistent.of_mem_setAway mem
    by_cases own : old.oid = caller.oid
    · obtain rfl := sound.consistent.eq_of_find? known listed own
      rw [if_pos own] at place'
      exact (apart (place.symm.trans place')).elim
    · rwa [if_neg own]
  · simp [awayTexts, Command.isFrom, apart]
  · have told := (takes.subset mem).1
    rw [utters_away sound found honest asked] at told
    obtain said | answered := List.mem_cons.1 told
    · exact (apart (congrArg Prod.fst said).symm).elim
    · obtain ⟨response, -, same⟩ := List.mem_map.1 answered
      exact (apart (congrArg Prod.fst same)).elim

theorem Notes.note (notes : Notes server.lobby id commands messages) (here : connection = id)
    (takes : Takes server id (.handleRequest connection request) posted) :
    Notes (server.perform (.handleRequest connection request)).2.lobby id
      (commands ++ [Command.handleRequest connection request].filter (·.isFrom id))
      (messages ++ posted) := by
  subst here
  have stands := stands_perform chat sound.consistent (.handleRequest connection request)
  have present := Server.present_of_caller? sound.consistent found
  obtain ⟨own, known, place⟩ := present.session
  have listed : own ∈ server.lobby.sessions.sessions :=
    List.mem_map_of_mem (sound.consistent.find?_eq_some.1 known)
  have key : own.oid = caller.oid :=
    sound.consistent.keyed _ own (sound.consistent.find?_eq_some.1 known)
  have texts : awayTexts (commands ++ [Command.handleRequest connection request].filter
      (·.isFrom connection)) = awayTexts commands ++ [text] := by
    simp [awayTexts, Command.isFrom, asked, Call.awayText?]
  let answers := server.answers connection request
  have replies : Idle (answers.map Message.response) := by
    intro message mem
    obtain ⟨response, -, rfl⟩ := List.mem_map.1 mem
    exact ⟨rfl, fun _ => rfl⟩
  have mailed : mail connection (server.utters (.handleRequest connection request)) =
      Chat.awayChange caller.oid text :: answers.map .response := by
    rw [utters_away sound found honest asked, Outboxes.mail_cons_self, Outboxes.mail_map]
  -- the session of the client is the one that changes
  have session (session : Session) (mem : session ∈ (server.perform
      (.handleRequest connection request)).2.lobby.sessions.sessions)
      (place' : session.connection = connection) : session.oid = caller.oid ∧
        session.away = if text.isEmpty then none else some ⟨text, server.lobby.clock⟩ := by
    rw [sessions_handleRequest chat sound found honest, asked] at mem
    obtain ⟨old, listed', rfl⟩ := sound.consistent.of_mem_setAway mem
    have same : old = own := by
      refine sound.consistent.eq_of_connection listed' listed ?_
      rw [place]
      split at place' <;> exact place'
    rw [same, if_pos key]
    exact ⟨key, rfl⟩
  refine ⟨fun none => ?_, fun _ s mem place' => ?_, fun whole takes' s mem place' => ?_,
    fun oid message mem told => ?_⟩
  · simp [Command.isFrom] at none
  · rw [texts, (session s mem place').2, List.getLast?_append]
    cases empty : text.isEmpty <;> simp [Option.filter, empty]
  · have open' : ¬ server.lobby.outboxes.Refuses connection :=
      fun refused => takes' (stands.refuses _ refused)
    obtain ⟨welcome, values⟩ := notes.told present.whole open' own listed place
    rw [key] at welcome values
    rw [(session s mem place').1, texts, takes.all open', mailed, welcomed?_append welcome,
      sinceWelcome_append (isWelcome_of_welcomed? welcome), List.filterMap_append, values,
      List.map_append, List.filterMap_cons_some (b := .str text), replies.values]
    · exact ⟨rfl, rfl⟩
    · exact if_pos ⟨rfl, rfl⟩
  · obtain mem | mem := List.mem_append.1 mem
    · exact welcomed?_append (notes.own oid message mem told) posted
    · have open' := (takes.subset mem).2
      obtain ⟨welcome, -⟩ := notes.told present.whole open' own listed place
      rw [takes.all open', mailed] at mem
      obtain rfl | mem := List.mem_cons.1 mem
      · have same : caller.oid = oid := by
          by_contra apart
          exact told (if_neg fun both => apart both.1)
        rw [← same, ← key]
        exact welcomed?_append welcome posted
      · exact (told ((replies message mem).2 oid)).elim

end Handled

end Requests

/-- What the server keeps and tells of away texts, it keeps and tells in every command. -/
theorem Notes.perform (notes : Notes server.lobby id commands messages)
    (chat : server.registry = Chat.registry) (sound : server.Sound granted) {command : Command}
    (takes : Takes server id command posted)
    (once : ∀ version username, command = .startSession id version username → commands = []) :
    Notes (server.perform command).2.lobby id (commands ++ [command].filter (·.isFrom id))
      (messages ++ posted) := by
  cases command with
  | startSession connection version username =>
    exact notes.startSession chat sound takes fun here => once version username (by rw [here])
  | endSession connection =>
    have none : [Command.endSession connection].filter (·.isFrom id) = [] := rfl
    rw [none, List.append_nil]
    exact notes.endSession chat sound takes
  | handleRequest connection request =>
    by_cases handled : ∃ caller, server.caller? connection = some caller ∧
        Server.isForged caller request.args = false
    · obtain ⟨caller, found, honest⟩ := handled
      cases asked : (Call.ofRequest request).awayText? with
      | none => exact notes.converse chat sound found honest asked takes
      | some text =>
        have away := Chat.eq_away_of_awayText? asked
        by_cases here : connection = id
        · exact notes.note chat sound found honest away here takes
        · exact notes.ignore chat sound found honest away here takes
    · refine notes.drop sound (fun caller found => ?_) takes
      by_contra honest
      exact handled ⟨caller, found, by simpa using honest⟩

end Steps

end Network

end Parley
