import Parley.Proofs.Network.AwayTexts
import Parley.Proofs.Network.Seats

/-! Who is away, as the server and as the clients see it.
The server has the last away text of every client that it knows, and the client has it among the
attributes of its own object. Between the two there are requests, events and queued commands under
way; when they have all arrived, both say the same. -/

namespace Parley

open Chat (awayAttribute)

theorem Wire.FrameReader.Awaits.eq_nil {reader : Wire.FrameReader} {messages : List Message}
    (awaits : reader.Awaits [] messages) (empty : reader.buffer = []) : messages = [] := by
  have whole := awaits.whole
  rw [empty, List.append_nil] at whole
  cases messages with
  | nil => rfl
  | cons message rest =>
    rw [Wire.frames_cons] at whole
    exact (Wire.toFrame_ne_nil message (List.append_eq_nil_iff.1 whole.symm).1).elim

namespace Network

open Client (Code Command depicted)
open Server (awayTexts)

variable {maxFrame : Nat} {net : Network τ α κ ν ω} {code : Code κ ν ω} {id : ConnectionId}
  {journal : List (Entry ν)} {action : Action κ ν ω} {peer : Peer κ ν ω} {client : Client κ ν ω}
  {session : Session}

def Stage.client? : Stage κ ν ω → Option (Client κ ν ω)
  | .joined client => some client
  | _ => none

def client? (net : Network τ α κ ν ω) (id : ConnectionId) : Option (Client κ ν ω) :=
  net.peer? id >>= (·.stage.client?)

theorem joined_of_client? (found : net.client? id = some client) :
    ∃ peer, net.peer? id = some peer ∧ peer.stage = .joined client := by
  obtain ⟨peer, known, logged⟩ := Option.bind_eq_some_iff.1 found
  refine ⟨peer, known, ?_⟩
  cases stage : peer.stage with
  | joined other =>
    rw [stage] at logged
    exact congrArg Stage.joined (Option.some.inj logged)
  | _ =>
    rw [stage] at logged
    cases logged

/-- The away text that a client has asked for last. -/
def lastAway (id : ConnectionId) (journal : List (Entry ν)) : Option String :=
  ((said id journal).filterMap Chat.awayText?).getLast?

/-- The server goes on and knows the session of a client, and the client is still connected: it
reads and writes. It does not read on when its stream has ended or a frame was too long, or when its
own queue has refused what it has read. -/
structure Live (net : Network τ α κ ν ω) (id : ConnectionId) (client : Client κ ν ω)
    (session : Session) : Prop where
  serving : net.hall.isClosed = false
  known : (net.hall.context.lobby.table? >>= (·.findByConnection? id)) = some session
  reading : client.reading = true
  writing : client.writing = true

/-- Nothing is under way between the server and a client. -/
structure Drained (net : Network τ α κ ν ω) (id : ConnectionId) (client : Client κ ν ω) :
    Prop where
  outgoing : client.desk.outgoing.messages = []
  unsent : client.unsent = []
  line : ∀ peer, net.peer? id = some peer → peer.toServer = [] ∧ peer.toClient = []
  arrived : ∀ connection, net.desk.manager.find? id = some connection →
    connection.reader.buffer = []
  notices : net.desk.notices = []
  pending : net.hall.pending = []
  outbox : ∀ box, net.desk.outboxes.find? id = some box → box.buffer = []
  read : client.reader.buffer = []
  queued : client.queue.pending = []

theorem Live.mem_sessions (live : net.Live id client session) (sound : net.Sound maxFrame) :
    net.hall.context.lobby.poisoned = false ∧ session.connection = id ∧
      session ∈ net.hall.context.lobby.sessions.sessions := by
  obtain ⟨table, known, indexed⟩ := Option.bind_eq_some_iff.1 live.known
  obtain ⟨whole, rfl⟩ := Server.table?_eq_some known
  obtain ⟨oid, place, seated⟩ := Option.bind_eq_some_iff.1 indexed
  have consistent := sound.server.consistent
  obtain ⟨same, seated', here⟩ := consistent.oidOf?_eq_some.1 place
  obtain rfl := Option.some.inj (seated'.symm.trans seated)
  exact ⟨whole, here, List.mem_map_of_mem (consistent.find?_eq_some.1 seated)⟩

section Ends

theorem dealt_of_drained (requests : net.Requests journal)
    (small : ∀ message ∈ said id journal, message.Framable) (found : net.peer? id = some peer)
    (joined : peer.stage = .joined client) (live : net.Live id client session)
    (drained : net.Drained id client) (connected : id ∈ net.desk.manager.ids) :
    dealt id journal = (said id journal).filterMap (Server.command? id) := by
  have asks := requests.asks id peer found small
  obtain ⟨taken, later, whole, all, stream⟩ := asks.stream live.serving
  obtain ⟨connection, known⟩ := Connection.Manager.mem_ids.1 connected
  obtain ⟨tail, awaits, rest⟩ := stream connection known
  have unwritten : peer.stage.unwritten = some [] := by
    rw [joined, Stage.unwritten, if_pos live.writing, drained.unsent, drained.outgoing]
    rfl
  rw [rest [] unwritten, (drained.line peer found).1] at awaits
  obtain rfl := awaits.eq_nil (drained.arrived connection known)
  rw [accepted, drained.pending, drained.notices] at all
  rw [whole, List.append_nil, ← all]
  simp [noticed]

theorem ran_of_drained (delivers : net.Delivers journal)
    (found : net.peer? id = some peer) (joined : peer.stage = .joined client)
    (live : net.Live id client session) (drained : net.Drained id client) :
    (ran id journal).filter (·.isNews) =
      (sinceWelcome (sent id journal)).filterMap Client.command? := by
  have receives := delivers.receives id peer found
  unfold Peer.Receives at receives
  rw [joined] at receives
  obtain ⟨-, taken, later, since, news, onWay⟩ := receives
  obtain ⟨box, known, awaits⟩ := onWay live.reading
  rw [(drained.line peer found).2, drained.outbox box known] at awaits
  obtain rfl := awaits.eq_nil drained.read
  rw [since, List.append_nil, ← news, drained.queued, List.append_nil]

end Ends

section Steps

theorem known_of_session (notes : Notes net.server.lobby id (dealt id journal) (sent id journal))
    (sound : net.Sound maxFrame) (requests : net.Requests journal)
    (logged : ∃ session ∈ net.server.lobby.sessions.sessions, session.connection = id) :
    id < net.desk.manager.nextId := by
  obtain ⟨session, mem, place⟩ := logged
  by_contra le
  have nothing := (requests.strangers id (peer?_of_le sound (Nat.not_lt.1 le))).2.1
  have none : dealt id journal = [] := (List.append_eq_nil_iff.1 nothing).1
  exact (notes.fresh none).1 session mem place

variable [Inhabited τ]

theorem Notes.pass (notes : Notes net.server.lobby id (dealt id journal) (sent id journal))
    (sound : net.Sound maxFrame) (chat : net.hall.context.registry = Chat.registry)
    (requests : net.Requests journal) (other : action ≠ .serve) :
    Notes (net.perform code action).server.lobby id
      (dealt id (journal ++ [net.entry code action]))
      (sent id (journal ++ [net.entry code action])) := by
  have served : (net.entry code action).served = none := by
    cases action with
    | serve => exact (other rfl).elim
    | _ => rfl
  have lobby : (net.perform code action).server.lobby.sessions = net.server.lobby.sessions ∧
      (net.perform code action).server.lobby.poisoned = net.server.lobby.poisoned := by
    by_cases waiting : ∃ milliseconds, action = .wait milliseconds
    · obtain ⟨milliseconds, rfl⟩ := waiting
      exact ⟨rfl, rfl⟩
    · have same : (net.perform code action).hall.context = net.hall.context :=
        context_perform other fun milliseconds same => waiting ⟨milliseconds, same⟩
      exact ⟨congrArg (·.lobby.sessions) same, congrArg (·.lobby.poisoned) same⟩
  obtain ⟨sessions, poisoned⟩ := lobby
  have none : dealt id [net.entry code action] = [] := by simp [dealt, served]
  rw [sent_append, sent_singleton, dealt_append, none]
  refine notes.keep (fun whole => poisoned ▸ whole) (fun session mem _ => sessions ▸ mem)
    (fun logged refuses => ?_) (fun _ _ => rfl) fun message mem => ?_
  · exact refuses_perform sound chat (known_of_session notes sound requests logged) refuses action
  · obtain ⟨time, rfl⟩ := sound.pong_of_mem_posted other mem
    exact ⟨rfl, fun _ => rfl⟩

/-- What the server keeps and tells of away texts, it keeps and tells in every step. -/
theorem Notes.step (notes : Notes net.server.lobby id (dealt id journal) (sent id journal))
    (sound : net.Sound maxFrame) (chat : net.hall.context.registry = Chat.registry)
    (requests : net.Requests journal)
    (brief : ∀ post ∈ net.uttering action, post.2.encode.length ≤ maxFrame ∧ post.2.Framable)
    (once : ∀ version username, (net.entry code action).served =
      some (.startSession id version username) → dealt id journal = []) :
    Notes (net.perform code action).server.lobby id
      (dealt id (journal ++ [net.entry code action]))
      (sent id (journal ++ [net.entry code action])) := by
  by_cases serving : action = .serve
  · subst serving
    have served : (net.entry code .serve).served = net.hall.pending.head? := rfl
    rw [sent_append, sent_singleton, dealt_append]
    cases next : net.hall.pending with
    | nil =>
      have same : net.perform code .serve = net := serve_of_idle next
      have none : dealt id [net.entry code .serve] = [] := by simp [dealt, served, next]
      rw [none, posted_of_same (congrArg (·.desk.outboxes) same), List.append_nil,
        List.append_nil, same]
      exact notes
    | cons command rest =>
      have lobby : (net.perform code .serve).server.lobby =
          (net.server.perform command).2.lobby := by
        rw [Network.perform, serve_of_pending next]
        rfl
      have own : dealt id [net.entry code .serve] = [command].filter (·.isFrom id) := by
        rw [dealt, List.filterMap_cons_some (b := command) (by rw [served, next]; rfl)]
        rfl
      rw [uttering_of_pending next] at brief
      rw [lobby, own]
      refine notes.perform chat sound.ready ⟨?_, ?_⟩ fun version username same => ?_
      · exact posted_serve sound chat next brief
      · exact posted_serve_of_refuses sound chat next brief
      · exact once version username (by rw [served, next, same]; rfl)
  · exact notes.pass sound chat requests serving

/-- The messages fit in frames that both ends take. -/
def Short (maxFrame : Nat) (message : Message) : Prop :=
  message.encode.length ≤ min maxFrame Wire.defaultMaxFrame

instance (maxFrame : Nat) (message : Message) : Decidable (Short maxFrame message) :=
  inferInstanceAs (Decidable (_ ≤ _))

theorem Short.framable {message : Message} (short : Short maxFrame message) : message.Framable := by
  have room : Wire.defaultMaxFrame < 256 ^ Wire.headerLength := by decide
  exact Nat.lt_of_le_of_lt (Nat.le_trans short (Nat.min_le_right _ _)) room

/-- What a network whose server keeps it short keeps up, with its journal, in every step. -/
structure Mirrored (maxFrame : Nat) (journal : List (Entry ν)) (net : Network τ α κ ν ω) :
    Prop where
  sound : net.Sound maxFrame
  chat : net.hall.context.registry = Chat.registry
  requests : net.Requests journal
  delivers : net.Delivers journal
  introduced : Introduced journal
  depicts : net.Depicts journal
  seated : Seated net.hall net.desk
  notes : ∀ id, (∀ message ∈ said id journal, message.Framable) →
    Notes net.server.lobby id (dealt id journal) (sent id journal)

theorem Mirrored.new (maxClients maxFrame : Nat) (app : α) :
    (Network.new maxClients maxFrame app : Network τ α κ ν ω).Mirrored maxFrame
      ([] : List (Entry ν)) := by
  have nobody (session : Session) (mem : session ∈
      (Network.new maxClients maxFrame app :
        Network τ α κ ν ω).server.lobby.sessions.sessions) : False := by
    cases mem
  have silent (message : Message) (mem : message ∈ ([] : List Message)) : False := by cases mem
  refine ⟨.new maxClients maxFrame app, rfl, .new maxClients maxFrame app,
    .new maxClients maxFrame app, fun _ message mem => (silent message mem).elim,
    fun id peer client found _ => ?_, .new maxClients maxFrame app, fun id _ => ?_⟩
  · cases found
  · exact ⟨fun _ => ⟨fun session mem _ => nobody session mem, rfl⟩,
      fun _ session mem _ => (nobody session mem).elim,
      fun _ _ session mem _ => (nobody session mem).elim,
      fun _ message mem _ => (silent message mem).elim⟩

theorem Mirrored.perform (mirrored : net.Mirrored maxFrame journal)
    (brief : ∀ post ∈ net.uttering action, Short maxFrame post.2) :
    (net.perform code action).Mirrored maxFrame (journal ++ [net.entry code action]) := by
  have requests : (net.perform code action).Requests (journal ++ [net.entry code action]) :=
    mirrored.requests.perform mirrored.sound action
  have introduced : Introduced (journal ++ [net.entry code action]) :=
    mirrored.introduced.perform mirrored.sound mirrored.requests action
  have legible : Legible maxFrame fun id message => (id, message) ∈ net.uttering action :=
    fun id message mem _ => (brief _ mem).framable
  have delivers : (net.perform code action).Delivers (journal ++ [net.entry code action]) := by
    refine mirrored.delivers.perform mirrored.sound action legible fun serving => ?_
    subst serving
    cases next : net.hall.pending with
    | nil =>
      rw [serve_of_idle next]
      exact .refl _
    | cons command rest =>
      have grown : net.desk.outboxes.Grown
          (fun id message => (id, message) ∈ net.server.utters command)
          (net.perform code .serve).desk.outboxes := by
        rw [outboxes_serve mirrored.sound mirrored.chat next]
        exact net.desk.outboxes.grown_offerAll _
      rw [uttering_of_pending next]
      exact grown
  refine ⟨mirrored.sound.perform action, registry_perform mirrored.sound mirrored.chat action,
    requests, delivers, introduced, mirrored.depicts.perform mirrored.delivers action,
    mirrored.seated.perform mirrored.sound mirrored.chat action, fun id small => ?_⟩
  have fits (post : ConnectionId × Message) (mem : post ∈ net.uttering action) :
      post.2.encode.length ≤ maxFrame ∧ post.2.Framable :=
    ⟨Nat.le_trans (brief post mem) (Nat.min_le_left _ _), (brief post mem).framable⟩
  have notes := mirrored.notes id fun message mem => small message (by simp [mem])
  exact notes.step mirrored.sound mirrored.chat mirrored.requests fits
    fun version username served => introduced.first requests small served

theorem Mirrored.run (mirrored : net.Mirrored maxFrame journal) (actions : List (Action κ ν ω))
    (brief : ∀ post ∈ net.utterances code actions, Short maxFrame post.2) :
    (net.run code actions).Mirrored maxFrame (journal ++ net.journal code actions) := by
  induction actions generalizing journal net with
  | nil =>
    rw [Network.journal, List.append_nil]
    exact mirrored
  | cons action rest ih =>
    have first : (net.perform code action).Mirrored maxFrame (journal ++ [net.entry code action]) :=
      mirrored.perform fun post mem => brief post (List.mem_append_left _ mem)
    have later := ih first fun post mem => brief post (List.mem_append_right _ mem)
    rwa [List.append_assoc] at later

end Steps

section Pictures

variable [Inhabited τ]

theorem Mirrored.own (mirrored : net.Mirrored maxFrame journal)
    (small : ∀ message ∈ said id journal, message.Framable) (found : net.client? id = some client)
    {oid : Oid} {value : Value}
    (held : client.queue.context.objects.attribute? oid awayAttribute = some value) :
    oid = client.oid := by
  obtain ⟨peer, known, joined⟩ := joined_of_client? found
  obtain ⟨welcome, objects⟩ := mirrored.depicts id peer client known joined
  rw [objects, Client.attribute?_depicted, ← Client.filterMap_value?_isNews] at held
  -- what was run was posted, and what is posted of away texts is under the oid of the welcome
  obtain ⟨command, ran, told⟩ := List.mem_filterMap.1 (List.mem_of_getLast? held)
  have heard := (mirrored.delivers.executed id).subset ran
  obtain ⟨message, posted, asked⟩ := List.mem_filterMap.1 heard
  have value : message.value? oid awayAttribute = some value := by
    cases message <;> cases asked
    · cases told
    · exact told
  have own := (mirrored.notes id small).own oid message (sinceWelcome_subset _ posted)
    (by rw [value]; exact Option.some_ne_none _)
  exact Option.some.inj (own.symm.trans welcome)

/-- When all has arrived, the client and the server agree. -/
theorem Mirrored.agree (mirrored : net.Mirrored maxFrame journal)
    (small : ∀ message ∈ said id journal, message.Framable) (found : net.client? id = some client)
    (live : net.Live id client session)
    (drained : net.Drained id client) :
    session.oid = client.oid ∧
      client.queue.context.objects.attribute? client.oid awayAttribute =
        (lastAway id journal).map .str ∧
      session.away.map (·.text) = (lastAway id journal).filter (!·.isEmpty) := by
  obtain ⟨peer, found, joined⟩ := joined_of_client? found
  obtain ⟨whole, place, mem⟩ := live.mem_sessions mirrored.sound
  obtain ⟨connected, takes⟩ := mirrored.seated.connected live.serving whole drained.pending
    drained.notices mem
  rw [place] at connected takes
  have notes := mirrored.notes id small
  have kept := notes.kept whole session mem place
  obtain ⟨welcome, values⟩ := notes.told whole takes session mem place
  obtain ⟨welcome', objects⟩ := mirrored.depicts id peer client found joined
  have own : session.oid = client.oid := Option.some.inj (welcome.symm.trans welcome')
  rw [dealt_of_drained mirrored.requests small found joined live drained connected,
    Server.awayTexts_command?] at kept values
  refine ⟨own, ?_, kept⟩
  rw [objects, Client.attribute?_depicted, ← Client.filterMap_value?_isNews,
    ran_of_drained mirrored.delivers found joined live drained,
    Client.filterMap_value?_command?, ← own, values, List.getLast?_map]
  rfl

/-- When nothing is under way between the server and a client whose session lasts, they agree on its
away text: it is the last one that the client has asked for. -/
theorem away_of_run (code : Code κ ν ω) (maxClients maxFrame : Nat) (app : α)
    (actions : List (Action κ ν ω)) (id : ConnectionId) :
    let start : Network τ α κ ν ω := .new maxClients maxFrame app
    let net := start.run code actions
    let journal := start.journal code actions
    (∀ message ∈ said id journal, Short maxFrame message) →
    (∀ post ∈ start.utterances code actions, Short maxFrame post.2) →
    ∀ client, net.client? id = some client →
      (∀ oid value, client.queue.context.objects.attribute? oid awayAttribute = some value →
        oid = client.oid) ∧
      ∀ session, net.Live id client session → net.Drained id client →
        session.oid = client.oid ∧
        match lastAway id journal with
        | none => client.queue.context.objects.attribute? client.oid awayAttribute = none ∧
          session.away = none
        | some text =>
          client.queue.context.objects.attribute? client.oid awayAttribute = some (.str text) ∧
          session.away.map (·.text) = if text.isEmpty then none else some text := by
  intro start net journal short brief client found
  have mirrored : net.Mirrored maxFrame journal :=
    (Mirrored.new maxClients maxFrame app).run actions brief
  have small (message : Message) (mem : message ∈ said id journal) := (short message mem).framable
  refine ⟨fun oid value held => mirrored.own small found held, fun session live drained => ?_⟩
  obtain ⟨own, mirror, away⟩ := mirrored.agree small found live drained
  refine ⟨own, ?_⟩
  rw [mirror]
  cases last : lastAway id journal with
  | none =>
    rw [last] at away
    exact ⟨rfl, Option.map_eq_none_iff.1 away⟩
  | some text =>
    rw [last] at away
    refine ⟨rfl, away.trans ?_⟩
    cases empty : text.isEmpty <;> simp [Option.filter, empty]

/-- The one who has left an away text before it said something is away, and knows it. -/
theorem away_of_run_rejoinder : ∃ client session,
    afterRejoinder.client? 2 = some client ∧ afterRejoinder.Live 2 client session ∧
    afterRejoinder.Drained 2 client ∧ session.oid = client.oid ∧
    client.queue.context.objects.attribute? client.oid awayAttribute = some (.str "y") ∧
    session.away.map (·.text) = some "y" := by
  have short : ∀ message ∈ said 2 (parlour.journal listeners (smallTalk ++ .serve :: rejoinder)),
      Short 1000 message := by decide +kernel
  have brief : ∀ post ∈ parlour.utterances listeners (smallTalk ++ .serve :: rejoinder),
      Short 1000 post.2 := by decide +kernel
  have last : lastAway 2 (parlour.journal listeners (smallTalk ++ .serve :: rejoinder)) =
      some "y" := by decide +kernel
  obtain ⟨client, found⟩ : ∃ client, afterRejoinder.client? 2 = some client :=
    Option.isSome_iff_exists.1 (by decide +kernel)
  obtain ⟨session, known⟩ : ∃ session, (afterRejoinder.hall.context.lobby.table? >>=
      (·.findByConnection? 2)) = some session := Option.isSome_iff_exists.1 (by decide +kernel)
  have state : (afterRejoinder.client? 2).map (fun client => ((client.reading, client.writing),
      client.desk.outgoing.messages, client.unsent, client.reader.buffer,
      client.queue.pending.length)) = some ((true, true), [], [], [], 0) := by decide +kernel
  have line : (afterRejoinder.peer? 2).map (fun peer => (peer.toServer, peer.toClient)) =
      some ([], []) := by decide +kernel
  have arrived : (afterRejoinder.desk.manager.find? 2).map (·.reader.buffer) = some [] := by
    decide +kernel
  have outbox : (afterRejoinder.desk.outboxes.find? 2).map (·.buffer) = some [] := by
    decide +kernel
  simp only [found, Option.map_some, Option.some.injEq, Prod.mk.injEq,
    List.length_eq_zero_iff] at state
  obtain ⟨⟨reading, writing⟩, outgoing, unsent, read, queued⟩ := state
  have live : afterRejoinder.Live 2 client session := ⟨by decide +kernel, known, reading, writing⟩
  have drained : afterRejoinder.Drained 2 client := by
    refine ⟨outgoing, unsent, fun peer here => ?_, fun connection here => ?_, by decide +kernel,
      by decide +kernel, fun box here => ?_, read, queued⟩
    · simpa [here] using line
    · simpa [here] using arrived
    · simpa [here] using outbox
  obtain ⟨-, agrees⟩ := away_of_run listeners 4 1000 () (smallTalk ++ .serve :: rejoinder) 2 short
    brief client found
  obtain ⟨own, agreed⟩ := agrees session live drained
  have last' : lastAway 2 (Network.journal listeners (.new 4 1000 ())
    (smallTalk ++ .serve :: rejoinder)) = some "y" := last
  rw [last'] at agreed
  exact ⟨client, session, found, live, drained, own, agreed.1, agreed.2⟩

end Pictures

end Network

end Parley
