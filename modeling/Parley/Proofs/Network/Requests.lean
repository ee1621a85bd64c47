import Parley.Proofs.Network.Journal
import Parley.Proofs.Network.Upstream

/-! What the server does with the messages of a client.
What a client has said was run by the server, waits in the server's queue or among its notices, or
is on its way, in this order, as long as the server's queue takes commands. What the server has
accepted is always the first part of it. -/

namespace Parley.Network

open Client (Command Deed Logon)
open Connection (Arrival Desk Lull Manager Notice WriteAnswer carried_turn settled_turn turn)
open Wire (Bytes frames)

def entailed : Notice → Option Server.Command
  | .received connection message => Server.command? connection message
  | .closed connection => some (.endSession connection)

def accepted (id : ConnectionId) (journal : List (Entry ν)) (pending : List Server.Command) :
    List Server.Command :=
  dealt id journal ++ pending.filter (·.isFrom id)

def noticed (id : ConnectionId) (notices : List Notice) : List Server.Command :=
  (notices.filterMap entailed).filter (·.isFrom id)

/-- What the server has of what a client has said. -/
structure Peer.Asks (closed : Bool) (manager : Manager) (id : ConnectionId) (said : List Message)
    (accepted noticed : List Server.Command) (peer : Peer κ ν ω) : Prop where
  order : accepted <+: said.filterMap (Server.command? id)
  /-- As long as the queue takes commands, what was taken off the stream was accepted or is noticed,
  and the rest is on its way. -/
  stream : closed = false → ∃ taken later, said = taken ++ later ∧
    accepted ++ noticed = taken.filterMap (Server.command? id) ∧
    ∀ connection, manager.find? id = some connection → ∃ tail,
      connection.reader.Awaits (peer.toServer ++ tail) later ∧
      ∀ bytes, peer.stage.unwritten = some bytes → tail = bytes

/-- All that the server deals with was said by its clients, in the order in which it was said. -/
structure Requests (journal : List (Entry ν)) (net : Network τ α κ ν ω) : Prop where
  asks : ∀ id peer, net.peer? id = some peer → (∀ message ∈ said id journal, message.Framable) →
    peer.Asks net.hall.isClosed net.desk.manager id (said id journal)
      (accepted id journal net.hall.pending) (noticed id net.desk.notices)
  strangers : ∀ id, net.peer? id = none → said id journal = [] ∧
    accepted id journal net.hall.pending = [] ∧ noticed id net.desk.notices = []

variable {maxFrame : Nat} {id : ConnectionId} {posted : List Message} {peer peer' : Peer κ ν ω}
  {net after : Network τ α κ ν ω} {code : Client.Code κ ν ω} {journal : List (Entry ν)}
  {entry : Entry ν}

def Peer.Puts (posted : List Message) (peer peer' : Peer κ ν ω) : Prop :=
  ∀ tail, (∀ bytes, peer.stage.unwritten = some bytes → tail = bytes) → ∃ tail',
    peer'.toServer ++ tail' = peer.toServer ++ tail ++ frames posted ∧
    ∀ bytes, peer'.stage.unwritten = some bytes → tail' = bytes

theorem Peer.puts_nil (toServer : peer'.toServer = peer.toServer)
    (unwritten : ∀ bytes, peer'.stage.unwritten = some bytes →
      peer.stage.unwritten = some bytes) : peer.Puts [] peer' :=
  fun tail rest => ⟨tail, by rw [toServer, Wire.frames_nil, List.append_nil],
    fun bytes own => rest bytes (unwritten bytes own)⟩

theorem Peer.puts_joined {client client' : Client κ ν ω} (stage : peer.stage = .joined client)
    (stage' : peer'.stage = .joined client') (toServer : peer'.toServer = peer.toServer)
    (writing : client'.writing = true → client.writing = true ∧ client'.unsent = client.unsent)
    (grows : client.desk.outgoing.messages <+: client'.desk.outgoing.messages) :
    peer.Puts (peer'.stage.outgoing.drop peer.stage.outgoing.length) peer' := by
  intro tail rest
  refine ⟨tail ++ frames (peer'.stage.outgoing.drop peer.stage.outgoing.length), ?_, ?_⟩
  · rw [toServer, List.append_assoc]
  · obtain ⟨more, whole⟩ := grows
    intro bytes own
    rw [stage'] at own
    cases on : client'.writing with
    | false => simp [Stage.unwritten, on] at own
    | true =>
      obtain ⟨on', unsent⟩ := writing on
      have known : peer.stage.unwritten =
          some (client.unsent ++ frames client.desk.outgoing.messages) := by
        rw [stage, Stage.unwritten, if_pos on']
      rw [rest _ known, stage, stage']
      simp only [Stage.unwritten, on, ↓reduceIte, Option.some.injEq] at own
      rw [← own, unsent, Stage.outgoing, Stage.outgoing, ← whole, List.drop_left,
        Wire.frames_append, List.append_assoc]

theorem Peer.puts_write {client : Client κ ν ω} (stage : peer.stage = .joined client)
    (answers : List WriteAnswer) :
    peer.Puts [] { peer with
      stage := .joined (client.write answers).2
      toServer := peer.toServer ++ (client.write answers).1 } := by
  intro tail rest
  have wrote := client.wrote_write answers
  rw [Wire.frames_nil, List.append_nil]
  cases writing : client.writing with
  | true =>
    obtain ⟨tail', whole, left⟩ := wrote.bytes
    obtain rfl := rest _ (by rw [stage, Stage.unwritten, if_pos writing])
    refine ⟨tail', by rw [List.append_assoc, whole], fun bytes own => ?_⟩
    cases on : (client.write answers).2.writing with
    | true =>
      rw [left on]
      simpa [Stage.unwritten, on] using own
    | false => simp [Stage.unwritten, on] at own
  | false =>
    obtain ⟨none, still⟩ := wrote.stopped writing
    rw [none, still, List.append_nil]
    exact ⟨tail, rfl, fun bytes own => rest bytes (by rwa [stage])⟩

def Passed (closed closed' : Bool) (accepted noticed accepted' noticed' : List Server.Command) :
    Prop :=
  ∃ now, noticed = now ++ noticed' ∧
    (closed = false ∧ accepted' = accepted ++ now ∨ closed' = true ∧ accepted' = accepted)

theorem Passed.refl (closed : Bool) (accepted noticed : List Server.Command) :
    Passed closed closed accepted noticed accepted noticed := by
  refine ⟨[], rfl, ?_⟩
  cases closed with
  | false => exact .inl ⟨rfl, (List.append_nil _).symm⟩
  | true => exact .inr ⟨rfl, rfl⟩

theorem Peer.Asks.carry {closed closed' : Bool} {manager manager' : Manager}
    {said : List Message} {accepted noticed accepted' noticed' : List Server.Command}
    (asks : peer.Asks closed manager id said accepted noticed)
    (passed : Passed closed closed' accepted noticed accepted' noticed')
    (readers : ∀ connection, manager'.find? id = some connection →
      ∃ old, manager.find? id = some old ∧ connection.reader = old.reader)
    (small : ∀ message ∈ posted, message.Framable) (puts : peer.Puts posted peer') :
    peer'.Asks closed' manager' id (said ++ posted) accepted' noticed' := by
  have grows : said.filterMap (Server.command? id) <+:
      (said ++ posted).filterMap (Server.command? id) := by
    rw [List.filterMap_append]
    exact List.prefix_append _ _
  obtain ⟨now, rfl, ⟨open', rfl⟩ | ⟨shut, rfl⟩⟩ := passed
  · obtain ⟨taken, later, rfl, all, stream⟩ := asks.stream open'
    refine ⟨?_, fun _ => ⟨taken, later ++ posted, List.append_assoc _ _ _, ?_, ?_⟩⟩
    · refine List.IsPrefix.trans ?_ grows
      rw [List.filterMap_append, ← all, ← List.append_assoc, List.append_assoc _ noticed']
      exact List.prefix_append _ _
    · rw [List.append_assoc, all]
    · intro connection found
      obtain ⟨old, found, same⟩ := readers connection found
      obtain ⟨tail, awaits, rest⟩ := stream old found
      obtain ⟨tail', whole, rest'⟩ := puts tail rest
      refine ⟨tail', ?_, rest'⟩
      rw [whole]
      have moved := awaits.grow small
      exact ⟨by rw [same, moved.whole], moved.small⟩
  · exact ⟨asks.order.trans grows, fun open' => by cases shut.symm.trans open'⟩

theorem Requests.carry (requests : net.Requests journal)
    (peers : ∀ id, ∃ f : Peer κ ν ω → Peer κ ν ω, after.peer? id = (net.peer? id).map f ∧
      ∀ peer, net.peer? id = some peer → peer.Puts (entry.said id) (f peer))
    (silent : ∀ id, after.peer? id = none → entry.said id = [])
    (readers : ∀ id connection, after.desk.manager.find? id = some connection →
      ∃ old, net.desk.manager.find? id = some old ∧ connection.reader = old.reader)
    (passed : ∀ id, Passed net.hall.isClosed after.hall.isClosed
      (accepted id journal net.hall.pending) (noticed id net.desk.notices)
      (accepted id (journal ++ [entry]) after.hall.pending) (noticed id after.desk.notices)) :
    after.Requests (journal ++ [entry]) := by
  refine ⟨fun id peer found small => ?_, fun id absent => ?_⟩
  · obtain ⟨f, same, puts⟩ := peers id
    rw [same] at found
    obtain ⟨old, known, rfl⟩ := Option.map_eq_some_iff.1 found
    rw [said_append, said_singleton] at small ⊢
    have asks := requests.asks id old known fun message mem =>
      small message (List.mem_append_left _ mem)
    exact asks.carry (passed id) (readers id) (fun message mem =>
      small message (List.mem_append_right _ mem)) (puts old known)
  · obtain ⟨f, same, -⟩ := peers id
    have unknown : net.peer? id = none := by rwa [same, Option.map_eq_none_iff] at absent
    obtain ⟨nothing, none, idle⟩ := requests.strangers id unknown
    obtain ⟨now, split, way⟩ := passed id
    rw [idle] at split
    obtain ⟨rfl, idle'⟩ := List.append_eq_nil_iff.1 split.symm
    refine ⟨by rw [said_append, said_singleton, nothing, silent id absent]; rfl, ?_, idle'⟩
    obtain ⟨-, same⟩ | ⟨-, same⟩ := way
    · rw [same, none, List.append_nil]
    · rw [same, none]

theorem accepted_of_idle (served : entry.served = none) (id : ConnectionId)
    (pending : List Server.Command) :
    accepted id (journal ++ [entry]) pending = accepted id journal pending := by
  simp [accepted, dealt, served]

theorem Requests.inward {action : Action κ ν ω} (requests : net.Requests journal)
    (said : (net.entry code action).said = net.uttered (net.perform code action))
    (peers : ∀ id, ∃ f : Peer κ ν ω → Peer κ ν ω,
      (net.perform code action).peer? id = (net.peer? id).map f ∧
        ∀ peer, (f peer).stage = peer.stage ∧ (f peer).toServer = peer.toServer)
    (readers : ∀ id connection, (net.perform code action).desk.manager.find? id = some connection →
      ∃ old, net.desk.manager.find? id = some old ∧ connection.reader = old.reader)
    (passed : ∀ id, Passed net.hall.isClosed (net.perform code action).hall.isClosed
      (accepted id journal net.hall.pending) (noticed id net.desk.notices)
      (accepted id (journal ++ [net.entry code action]) (net.perform code action).hall.pending)
      (noticed id (net.perform code action).desk.notices)) :
    (net.perform code action).Requests (journal ++ [net.entry code action]) := by
  refine requests.carry (fun id => ?_) (fun id absent => ?_) readers passed
  · obtain ⟨f, same, kept⟩ := peers id
    refine ⟨f, same, fun peer known => ?_⟩
    have silent : (net.entry code action).said id = [] := by
      rw [said]
      exact uttered_of_stage known (by rw [same, known]; rfl) (kept peer).1
    rw [silent]
    exact Peer.puts_nil (kept peer).2 fun bytes own => (kept peer).1 ▸ own
  · rw [said]
    exact uttered_of_none absent

theorem Requests.within {action : Action κ ν ω} (requests : net.Requests journal)
    (said : (net.entry code action).said = net.uttered (net.perform code action))
    (peers : (net.perform code action).peers = net.peers)
    (readers : ∀ id connection, (net.perform code action).desk.manager.find? id = some connection →
      ∃ old, net.desk.manager.find? id = some old ∧ connection.reader = old.reader)
    (passed : ∀ id, Passed net.hall.isClosed (net.perform code action).hall.isClosed
      (accepted id journal net.hall.pending) (noticed id net.desk.notices)
      (accepted id (journal ++ [net.entry code action]) (net.perform code action).hall.pending)
      (noticed id (net.perform code action).desk.notices)) :
    (net.perform code action).Requests (journal ++ [net.entry code action]) :=
  requests.inward said (fun id => ⟨_, peer?_of_peers peers id, fun _ => ⟨rfl, rfl⟩⟩) readers passed

theorem Requests.idle {action : Action κ ν ω} (requests : net.Requests journal)
    (same : net.perform code action = net)
    (said : (net.entry code action).said = net.uttered (net.perform code action))
    (served : (net.entry code action).served = none) :
    (net.perform code action).Requests (journal ++ [net.entry code action]) := by
  refine requests.within said (congrArg (·.peers) same) (fun id c found => ⟨c, same ▸ found, rfl⟩)
    fun id => ?_
  rw [accepted_of_idle served, same]
  exact .refl _ _ _

theorem Requests.onPeer {action : Action κ ν ω} (requests : net.Requests journal)
    {work : Peer κ ν ω → List (Event κ) × Peer κ ν ω}
    (performs : net.perform code action = net.onPeer id work)
    (same : ∀ peer, (work peer).2.id = peer.id)
    (said : (net.entry code action).said = net.uttered (net.perform code action))
    (served : (net.entry code action).served = none)
    (own : ∀ peer : Peer κ ν ω,
      peer.Puts ((work peer).2.stage.outgoing.drop peer.stage.outgoing.length) (work peer).2) :
    (net.perform code action).Requests (journal ++ [net.entry code action]) := by
  have peers (other : ConnectionId) : (net.perform code action).peer? other =
      (net.peer? other).map fun peer => if other = id then (work peer).2 else peer := by
    rw [performs]
    exact peer?_onPeer same other
  have hall : (net.perform code action).hall = net.hall := by rw [performs, hall_onPeer]
  have desk : (net.perform code action).desk = net.desk := by rw [performs, desk_onPeer]
  refine requests.carry (fun other => ⟨_, peers other, fun peer known => ?_⟩)
    (fun other absent => ?_) (fun other c found => ⟨c, desk ▸ found, rfl⟩) fun other => ?_
  · have found := peers other
    rw [known, Option.map_some] at found
    rw [said]
    by_cases here : other = id
    · rw [if_pos here] at found ⊢
      rw [uttered_of_peer? known found]
      exact own peer
    · rw [if_neg here] at found ⊢
      rw [uttered_of_stage known found rfl]
      exact Peer.puts_nil rfl fun _ known => known
  · rw [said]
    exact uttered_of_none absent
  · rw [hall, desk, accepted_of_idle served]
    exact .refl _ _ _

theorem Requests.onJoined {action : Action κ ν ω} (requests : net.Requests journal)
    {work : Client κ ν ω → Peer κ ν ω → List (Deed κ) × Peer κ ν ω}
    (performs : net.perform code action = net.onJoined id work)
    (same : ∀ client peer, (work client peer).2.id = peer.id)
    (said : (net.entry code action).said = net.uttered (net.perform code action))
    (served : (net.entry code action).served = none)
    (own : ∀ client, ∀ peer : Peer κ ν ω, peer.stage = .joined client →
      peer.Puts ((work client peer).2.stage.outgoing.drop peer.stage.outgoing.length)
        (work client peer).2) :
    (net.perform code action).Requests (journal ++ [net.entry code action]) := by
  refine requests.onPeer performs (fun peer => ?_) said served fun peer => ?_
  all_goals by_cases logged : ∃ client, peer.stage = .joined client
  · obtain ⟨client, stage⟩ := logged
    rw [whenJoined_of_joined stage]
    exact same client peer
  · rw [whenJoined_of_stranger fun client stage => logged ⟨client, stage⟩]
  · obtain ⟨client, stage⟩ := logged
    rw [whenJoined_of_joined stage]
    exact own client peer stage
  · rw [whenJoined_of_stranger fun client stage => logged ⟨client, stage⟩, List.drop_length]
    exact Peer.puts_nil rfl fun _ known => known

theorem Requests.onClient {action : Action κ ν ω} (requests : net.Requests journal)
    {work : Client κ ν ω → List (Deed κ) × Client κ ν ω}
    (performs : net.perform code action = net.onClient id work)
    (said : (net.entry code action).said = net.uttered (net.perform code action))
    (served : (net.entry code action).served = none)
    (writing : ∀ client, (work client).2.writing = client.writing)
    (unsent : ∀ client, (work client).2.unsent = client.unsent)
    (grows : ∀ client, client.desk.outgoing.messages <+:
      (work client).2.desk.outgoing.messages) :
    (net.perform code action).Requests (journal ++ [net.entry code action]) :=
  requests.onJoined performs (fun _ _ => rfl) said served fun client _ stage =>
    Peer.puts_joined stage rfl rfl (fun on => ⟨writing client ▸ on, unsent client⟩) (grows client)

theorem noticed_append (id : ConnectionId) (notices more : List Notice) :
    noticed id (notices ++ more) = noticed id notices ++ noticed id more := by
  rw [noticed, List.filterMap_append, List.filter_append]
  rfl

theorem noticed_closed {closed : ConnectionId} {notices : List Notice}
    (closing : ∀ notice ∈ notices, notice = .closed closed) (id : ConnectionId) :
    noticed id notices = [] := by
  refine List.filter_eq_nil_iff.2 fun command mem => ?_
  obtain ⟨notice, known, same⟩ := List.mem_filterMap.1 mem
  obtain rfl := closing notice known
  cases same
  exact Bool.false_ne_true

theorem isFrom_of_command? {message : Message} {command : Server.Command}
    (asked : Server.command? id message = some command) (other : ConnectionId) :
    command.isFrom other = decide (id = other) := by
  cases message <;> cases asked <;> rfl

theorem noticed_told (id other : ConnectionId) (heard : List Message) :
    noticed other (Desk.told id heard) =
      if id = other then heard.filterMap (Server.command? id) else [] := by
  have same : (Desk.told id heard).filterMap entailed = heard.filterMap (Server.command? id) := by
    rw [Desk.told, List.filterMap_filterMap]
    refine List.filterMap_congr fun message _ => ?_
    cases message <;> rfl
  have source (command : Server.Command) (mem : command ∈ heard.filterMap (Server.command? id)) :
      command.isFrom other = decide (id = other) := by
    obtain ⟨message, -, asked⟩ := List.mem_filterMap.1 mem
    exact isFrom_of_command? asked other
  rw [noticed, same]
  by_cases own : id = other
  · rw [if_pos own]
    exact List.filter_eq_self.2 fun command mem => by simpa [own] using source command mem
  · rw [if_neg own]
    exact List.filter_eq_nil_iff.2 fun command mem => by simpa [own] using source command mem

theorem notify_singleton (hall : Server.Hall τ α) (notice : Notice) :
    Server.Host.notify hall [notice] =
      ((entailed notice).map fun command => (hall.enqueue command).2).getD hall := by
  cases notice with
  | closed connection => rfl
  | received connection message => cases message <;> rfl

/-- A notice is put into the queue, unless that is closed. -/
theorem notify_spec (hall : Server.Hall τ α) (notice : Notice) :
    (Server.Host.notify hall [notice]).isClosed = hall.isClosed ∧
      (hall.isClosed = true ∧ (Server.Host.notify hall [notice]).pending = hall.pending ∨
      hall.isClosed = false ∧
        (Server.Host.notify hall [notice]).pending =
          hall.pending ++ [notice].filterMap entailed) := by
  rw [notify_singleton, List.filterMap_cons, List.filterMap_nil]
  cases entailed notice with
  | none =>
    refine ⟨rfl, ?_⟩
    cases hall.isClosed with
    | true => exact .inl ⟨rfl, rfl⟩
    | false => exact .inr ⟨rfl, (List.append_nil _).symm⟩
  | some command =>
    unfold ActionQueue.enqueue
    dsimp only [Option.map_some, Option.getD_some]
    cases shut : hall.isClosed with
    | true => exact ⟨shut, .inl ⟨rfl, rfl⟩⟩
    | false => exact ⟨shut, .inr ⟨rfl, rfl⟩⟩

theorem Requests.notify (requests : net.Requests journal) :
    (net.perform code .notify).Requests (journal ++ [net.entry code .notify]) := by
  have served : (net.entry code .notify).served = none := rfl
  have spec : net.notify.peers = net.peers ∧ net.notify.desk.manager = net.desk.manager ∧
      ∀ id, Passed net.hall.isClosed net.notify.hall.isClosed
        (accepted id journal net.hall.pending) (noticed id net.desk.notices)
        (accepted id journal net.notify.hall.pending) (noticed id net.notify.desk.notices) := by
    unfold Network.notify
    split
    · exact ⟨rfl, rfl, fun id => .refl _ _ _⟩
    · rename_i notice rest notices
      refine ⟨rfl, rfl, fun id => ⟨noticed id [notice], ?_, ?_⟩⟩
      · rw [notices, ← noticed_append]
        rfl
      · obtain ⟨same, ⟨shut, dropped⟩ | ⟨open', taken⟩⟩ := notify_spec net.hall notice
        · exact .inr ⟨same.trans shut, by rw [dropped]⟩
        · refine .inl ⟨open', ?_⟩
          rw [accepted, taken, accepted, List.append_assoc, List.filter_append]
          rfl
  refine requests.within rfl spec.1
    (fun id connection found => ⟨connection, spec.2.1 ▸ found, rfl⟩) fun id => ?_
  rw [accepted_of_idle served]
  exact spec.2.2 id

theorem Requests.serve (requests : net.Requests journal) :
    (net.perform code .serve).Requests (journal ++ [net.entry code .serve]) := by
  have served : (net.entry code .serve).served = net.hall.pending.head? := rfl
  have spec : net.serve.peers = net.peers ∧ net.serve.desk.manager = net.desk.manager ∧
      net.serve.desk.notices = net.desk.notices ∧ net.serve.hall.isClosed = net.hall.isClosed ∧
      ∀ id, accepted id (journal ++ [net.entry code .serve]) net.serve.hall.pending =
        accepted id journal net.hall.pending := by
    cases next : net.hall.pending with
    | nil =>
      rw [serve_of_idle next, next]
      rw [next] at served
      exact ⟨rfl, rfl, rfl, rfl, fun id => accepted_of_idle served id []⟩
    | cons command rest =>
      rw [serve_of_pending next]
      refine ⟨rfl, rfl, rfl, rfl, fun id => ?_⟩
      have dealt : dealt id [net.entry code .serve] = [command].filter (·.isFrom id) := by
        simp [dealt, served, next]
      rw [accepted, dealt_append, dealt, List.append_assoc, ← List.filter_append]
      rfl
  obtain ⟨peers, manager, notices, closed, same⟩ := spec
  refine requests.within rfl peers
    (fun id connection found => ⟨connection, manager ▸ found, rfl⟩) fun id => ?_
  change Passed _ net.serve.hall.isClosed _ _ (accepted id _ net.serve.hall.pending)
    (noticed id net.serve.desk.notices)
  rw [closed, same, notices]
  exact .refl _ _ _

theorem serverReads_of_present {connection : Connection} (known : net.peer? id = some peer)
    (found : net.desk.manager.find? id = some connection) (lull : Lull)
    (arrivals : List Arrival) :
    net.serverReads id lull arrivals = { net.onPeer id fun p =>
        ([], { p with toServer := (turn lull peer.toServer arrivals).2 }) with
      desk := net.desk.read id (turn lull peer.toServer arrivals).1 } := by
  unfold Network.serverReads
  rw [found]
  unfold peer? at known
  rw [known]

theorem serverReads_of_absent
    (absent : net.peer? id = none ∨ net.desk.manager.find? id = none) (lull : Lull)
    (arrivals : List Arrival) : net.serverReads id lull arrivals = net := by
  unfold Network.serverReads
  split
  · rename_i known found
    obtain none | none := absent
    · cases none.symm.trans known
    · cases none.symm.trans found
  · rfl

theorem Peer.Asks.read {closed : Bool} {id : ConnectionId} {said : List Message}
    {accepted noticed' : List Server.Command} {connection : Connection} {desk : Desk}
    (asks : peer.Asks closed desk.manager id said accepted noticed')
    (found : desk.manager.find? id = some connection) (lull : Lull) (arrivals : List Arrival) :
    ∃ more, noticed id (desk.read id (turn lull peer.toServer arrivals).1).notices =
        noticed id desk.notices ++ more ∧
      { peer with toServer := (turn lull peer.toServer arrivals).2 }.Asks closed
        (desk.read id (turn lull peer.toServer arrivals).1).manager id said accepted
        (noticed' ++ more) := by
  have whole := carried_turn lull peer.toServer arrivals
  have settled := settled_turn lull peer.toServer arrivals
  rcases turned : turn lull peer.toServer arrivals with ⟨answers, toServer⟩
  rw [turned] at whole settled
  dsimp only at whole settled ⊢
  rcases reading : connection.readMessages answers with ⟨outcome, next⟩
  have visited := desk.visited_read found reading
  obtain ⟨heard, ⟨rest, split⟩, all, closing, notices, closed'⟩ := desk.notices_read found reading
  refine ⟨heard.filterMap (Server.command? id), ?_, asks.order, fun open' => ?_⟩
  · rw [notices, noticed_append, noticed_append, noticed_told, if_pos rfl, noticed_closed closed',
      List.append_nil]
  · obtain ⟨taken, later, rfl, same, stream⟩ := asks.stream open'
    obtain ⟨tail, awaits, own⟩ := stream connection found
    rw [← whole, List.append_assoc] at awaits
    obtain ⟨-, later, lost, rfl, awaits', kept⟩ :=
      Connection.readMessages_of_awaits settled awaits reading
    refine ⟨taken ++ heard, rest ++ later, ?_, ?_, fun connection' found' => ?_⟩
    · rw [← split]
      simp only [List.append_assoc]
    · rw [← List.append_assoc, same, List.filterMap_append]
    · obtain ⟨rfl, still, fine⟩ := visited.own connection' found'
      obtain rfl : rest = [] := by
        rw [all connection' found'] at split
        exact List.append_right_eq_self.1 split
      rw [kept still fine, List.nil_append] at awaits'
      exact ⟨tail, awaits', own⟩

theorem Requests.serverReads (requests : net.Requests journal) (id : ConnectionId) (lull : Lull)
    (arrivals : List Arrival) :
    (net.perform code (.serverReads id lull arrivals)).Requests
      (journal ++ [net.entry code (.serverReads id lull arrivals)]) := by
  have served : (net.entry code (.serverReads id lull arrivals)).served = none := rfl
  by_cases absent : net.peer? id = none ∨ net.desk.manager.find? id = none
  · exact requests.idle (serverReads_of_absent absent lull arrivals) rfl served
  obtain ⟨here, open'⟩ := not_or.1 absent
  obtain ⟨peer, known⟩ := Option.ne_none_iff_exists'.1 here
  obtain ⟨connection, found⟩ := Option.ne_none_iff_exists'.1 open'
  have performs : net.perform code (.serverReads id lull arrivals) = _ :=
    serverReads_of_present known found lull arrivals
  have peers (other : ConnectionId) :
      (net.perform code (.serverReads id lull arrivals)).peer? other =
        (net.peer? other).map fun p => if other = id then
          { p with toServer := (turn lull peer.toServer arrivals).2 } else p := by
    rw [performs]
    exact peer?_onPeer (fun _ => rfl) other
  have hall : (net.perform code (.serverReads id lull arrivals)).hall = net.hall := by
    rw [performs]
    exact hall_onPeer
  have desk : (net.perform code (.serverReads id lull arrivals)).desk =
      net.desk.read id (turn lull peer.toServer arrivals).1 := by rw [performs]
  have silent (other : ConnectionId) :
      (net.entry code (.serverReads id lull arrivals)).said other = [] := by
    change net.uttered (net.perform code (.serverReads id lull arrivals)) other = []
    cases there : net.peer? other with
    | none => exact uttered_of_none (by rw [peers, there]; rfl)
    | some old => exact uttered_of_stage there (by rw [peers, there]; rfl) (by split <;> rfl)
  rcases reading : connection.readMessages (turn lull peer.toServer arrivals).1 with
    ⟨outcome, next⟩
  have visited := net.desk.visited_read found reading
  have others (other : ConnectionId) (apart : other ≠ id) :
      noticed other (net.desk.read id (turn lull peer.toServer arrivals).1).notices =
        noticed other net.desk.notices := by
    obtain ⟨heard, -, -, closing, notices, closed⟩ := net.desk.notices_read found reading
    rw [notices, noticed_append, noticed_append, noticed_told, if_neg apart.symm,
      noticed_closed closed, List.append_nil, List.append_nil]
  refine ⟨fun other p found' small => ?_, fun other absent => ?_⟩
  · have mapped := peers other
    rw [found'] at mapped
    obtain ⟨old, known', moved⟩ := Option.map_eq_some_iff.1 mapped.symm
    rw [said_append, said_singleton, silent, List.append_nil] at small ⊢
    rw [accepted_of_idle served, hall, desk]
    have asks := requests.asks other old known' small
    by_cases own : other = id
    · subst own
      rw [if_pos rfl] at moved
      obtain rfl := Option.some.inj (known.symm.trans known')
      subst moved
      obtain ⟨more, same, read⟩ := asks.read found lull arrivals
      rw [same]
      exact read
    · rw [if_neg own] at moved
      subst moved
      rw [others other own]
      have kept := asks.carry (.refl _ _ _) (fun c h => visited.others other c own h)
        (List.forall_mem_nil _) (Peer.puts_nil rfl fun _ h => h)
      rwa [List.append_nil] at kept
  · have unknown : net.peer? other = none := by rwa [peers, Option.map_eq_none_iff] at absent
    have apart : other ≠ id := by
      rintro rfl
      cases unknown.symm.trans known
    obtain ⟨nothing, none, idle⟩ := requests.strangers other unknown
    rw [said_append, said_singleton, silent, accepted_of_idle served, hall, desk,
      others other apart, List.append_nil]
    exact ⟨nothing, none, idle⟩

theorem Requests.serverWrites (requests : net.Requests journal) (id : ConnectionId)
    (answers : List WriteAnswer) :
    (net.perform code (.serverWrites id answers)).Requests
      (journal ++ [net.entry code (.serverWrites id answers)]) := by
  have flushed := net.desk.flushed_flush id answers
  have served : (net.entry code (.serverWrites id answers)).served = none := rfl
  have hall : (net.perform code (.serverWrites id answers)).hall = net.hall := hall_onPeer
  have desk : (net.perform code (.serverWrites id answers)).desk =
      (net.desk.flush id answers).2 := rfl
  refine requests.inward rfl (fun other => ⟨_, peer?_onPeer (fun _ => rfl) other, fun peer => ?_⟩)
    flushed.manager.readers fun other => ?_
  · split <;> exact ⟨rfl, rfl⟩
  · obtain ⟨more, notices, closed⟩ := flushed.notices
    rw [accepted_of_idle served, hall, desk, notices, noticed_append, noticed_closed closed,
      List.append_nil]
    exact .refl _ _ _

theorem Requests.serverCloses (requests : net.Requests journal) (id : ConnectionId) :
    (net.perform code (.serverCloses id)).Requests
      (journal ++ [net.entry code (.serverCloses id)]) := by
  obtain ⟨kept, -, -, more, notices, closed⟩ := net.desk.close_spec id (P := fun _ _ => True)
  have served : (net.entry code (.serverCloses id)).served = none := rfl
  have desk : (net.perform code (.serverCloses id)).desk = net.desk.close id := rfl
  refine requests.within rfl rfl kept.readers fun other => ?_
  rw [accepted_of_idle served, desk, notices, noticed_append, noticed_closed closed,
    List.append_nil]
  exact .refl _ _ _

theorem Requests.dial (requests : net.Requests journal) (sound : net.Sound maxFrame)
    (address username : String) (state : ω) :
    (net.dial address username state).Requests
      (journal ++ [net.entry code (.dial address username state)]) := by
  have said (id : ConnectionId) : (net.entry code (.dial address username state)).said id =
      if id = net.desk.manager.nextId then [Logon.greeting username] else [] := rfl
  have served : (net.entry code (.dial address username state)).served = none := rfl
  have manager (id : ConnectionId) :
      (net.dial address username state).desk.manager.find? id =
        (net.desk.manager.find? id).or (if net.desk.manager.nextId = id then
          some { id := net.desk.manager.nextId, reader := { limit := net.desk.manager.limit } }
        else none) := Desk.connection_accept net.desk address id
  refine ⟨fun id peer found small => ?_, fun id absent => ?_⟩
  · rw [accepted_of_idle served]
    rw [said_append, said_singleton, said] at small ⊢
    rw [peer?_dial] at found
    obtain known | ⟨unknown, new⟩ := Option.or_eq_some_iff.1 found
    · have apart : id ≠ net.desk.manager.nextId := by
        intro same
        rw [peer?_of_le sound (Nat.le_of_eq same.symm)] at known
        cases known
      rw [if_neg apart, List.append_nil] at small
      rw [if_neg apart]
      refine (requests.asks id peer known small).carry (.refl _ _ _) (fun c h => ?_)
        (List.forall_mem_nil _) (Peer.puts_nil rfl fun _ h => h)
      rw [manager, if_neg apart.symm, Option.or_none] at h
      exact ⟨c, h, rfl⟩
    · split at new
      · rename_i here
        subst here
        cases new
        obtain ⟨nothing, none, idle⟩ := requests.strangers _ unknown
        rw [if_pos rfl, nothing, List.nil_append] at small ⊢
        change Peer.Asks _ _ _ _ (accepted _ journal net.hall.pending)
          (noticed _ net.desk.notices) _
        rw [none, idle]
        refine ⟨List.nil_prefix, fun _ => ⟨[], _, rfl, rfl, fun connection found => ?_⟩⟩
        rw [manager, sound.noConnection _ (Nat.le_refl _), if_pos rfl] at found
        cases found
        refine ⟨[], ⟨by simp, small⟩, fun bytes same => Option.some.inj same⟩
      · cases new
  · rw [peer?_dial, Option.or_eq_none_iff] at absent
    obtain ⟨unknown, other⟩ := absent
    have apart : id ≠ net.desk.manager.nextId := by
      intro same
      rw [if_pos same.symm] at other
      cases other
    rw [said_append, said_singleton, said, if_neg apart, List.append_nil,
      accepted_of_idle served]
    exact requests.strangers id unknown

theorem Requests.clientWrites (requests : net.Requests journal) (id : ConnectionId)
    (answers : List WriteAnswer) :
    (net.perform code (.clientWrites id answers)).Requests
      (journal ++ [net.entry code (.clientWrites id answers)]) := by
  have performs : net.perform code (.clientWrites id answers) =
      net.onJoined id fun client peer => ([], { peer with
        stage := .joined (client.write answers).2
        toServer := peer.toServer ++ (client.write answers).1 }) := rfl
  refine requests.onJoined performs (fun _ _ => rfl) rfl rfl fun client peer stage => ?_
  have silent : (Stage.joined (client.write answers).2).outgoing.drop
      peer.stage.outgoing.length = [] := by
    obtain none | same := client.messages_write answers
    · have empty : (Stage.joined (client.write answers).2).outgoing = [] := none
      rw [empty, List.drop_nil]
    · rw [same, stage, List.drop_length]
  dsimp only
  rw [silent]
  exact Peer.puts_write stage answers

theorem Requests.clientReads (requests : net.Requests journal) (id : ConnectionId) (lull : Lull)
    (arrivals : List Arrival) :
    (net.perform code (.clientReads id lull arrivals)).Requests
      (journal ++ [net.entry code (.clientReads id lull arrivals)]) := by
  have performs : net.perform code (.clientReads id lull arrivals) =
      net.onPeer id fun peer => ([], peer.read lull arrivals) := rfl
  refine requests.onPeer performs (fun peer => (peer.moved_read lull arrivals).id) rfl rfl
    fun peer => ?_
  have moved := peer.moved_read lull arrivals
  dsimp only
  rw [drop_outgoing_of_moved moved.stage]
  exact Peer.puts_nil moved.toServer fun bytes => unwritten_of_moved moved.stage

theorem Requests.conclude (requests : net.Requests journal) (id : ConnectionId) (index : Nat) :
    (net.perform code (.conclude id index)).Requests
      (journal ++ [net.entry code (.conclude id index)]) := by
  refine requests.onJoined rfl (fun client peer => ?_) rfl rfl fun client peer stage => ?_
  · split <;> rfl
  · split
    · rename_i request tokens held
      obtain ⟨-, posted, messages, -⟩ := client.desk.conclude_spec request tokens
      exact Peer.puts_joined stage rfl rfl (fun on => ⟨on, rfl⟩) ⟨posted, messages.symm⟩
    · rw [List.drop_length]
      exact Peer.puts_nil rfl fun _ h => h

theorem Requests.clientRuns (requests : net.Requests journal) (id : ConnectionId) :
    (net.perform code (.clientRuns id)).Requests
      (journal ++ [net.entry code (.clientRuns id)]) := by
  have spec (client : Client κ ν ω) : (runOne code client).2.writing = client.writing ∧
      (runOne code client).2.unsent = client.unsent ∧
      client.desk.outgoing.messages <+: (runOne code client).2.desk.outgoing.messages := by
    cases next : client.queue.pending with
    | nil =>
      rw [runOne_of_idle code next]
      exact ⟨rfl, rfl, List.prefix_refl _⟩
    | cons command rest =>
      rw [runOne_of_pending code next]
      exact ⟨rfl, rfl, (client.queue.context.asked_perform code command).kept_posted⟩
  exact requests.onClient rfl rfl rfl (fun client => (spec client).1)
    (fun client => (spec client).2.1) fun client => (spec client).2.2

theorem Requests.post (requests : net.Requests journal) {action : Action κ ν ω}
    {message : Message}
    (performs : net.perform code action =
      net.onClient id fun client => ([], (client.post message).2))
    (said : (net.entry code action).said = net.uttered (net.perform code action))
    (served : (net.entry code action).served = none) :
    (net.perform code action).Requests (journal ++ [net.entry code action]) := by
  refine requests.onClient performs said served (fun _ => rfl) (fun _ => rfl) fun client => ?_
  obtain ⟨posted, messages, -⟩ := client.desk.outgoing.messages_post message
  exact ⟨posted, messages.symm⟩

theorem Requests.duplicate (requests : net.Requests journal) (id : ConnectionId)
    (response : Response) :
    (net.perform code (.duplicate id response)).Requests
      (journal ++ [net.entry code (.duplicate id response)]) := by
  by_cases known : response ∈ Network.posted net.history
  · have performs : net.perform code (.duplicate id response) = net.onClient id fun client =>
        (client.desk.dispatchDeeds code.listen response,
          client.setDesk (client.desk.dispatch code.listen response).2) := if_pos known
    exact requests.onClient performs rfl rfl (fun _ => rfl) (fun _ => rfl) fun client =>
      (client.desk.asked_dispatch code.listen response).kept_posted
  · exact requests.idle (if_neg known) rfl rfl

theorem Requests.stopWriting (requests : net.Requests journal) (id : ConnectionId) :
    (net.perform code (.stopWriting id)).Requests
      (journal ++ [net.entry code (.stopWriting id)]) := by
  refine requests.onJoined rfl (fun _ _ => rfl) rfl rfl fun client peer stage => ?_
  have stopped (client' : Client κ ν ω) (off : client'.writing = false)
      (none : client'.desk.outgoing.messages = []) :
      peer.Puts ((Stage.joined client').outgoing.drop peer.stage.outgoing.length)
        { peer with stage := .joined client' } := by
    have silent : (Stage.joined client').outgoing = [] := none
    rw [silent, List.drop_nil]
    refine Peer.puts_nil rfl fun bytes own => ?_
    simp [Stage.unwritten, off] at own
  exact stopped _ rfl rfl

theorem Requests.perform (requests : net.Requests journal) (sound : net.Sound maxFrame)
    (action : Action κ ν ω) :
    (net.perform code action).Requests (journal ++ [net.entry code action]) := by
  cases action with
  | dial address username state => exact requests.dial sound address username state
  | serverReads id lull arrivals => exact requests.serverReads id lull arrivals
  | serverWrites id answers => exact requests.serverWrites id answers
  | serverCloses id => exact requests.serverCloses id
  | notify => exact requests.notify
  | serve => exact requests.serve
  | clientReads id lull arrivals => exact requests.clientReads id lull arrivals
  | clientWrites id answers => exact requests.clientWrites id answers
  | clientRuns id => exact requests.clientRuns id
  | conclude id index => exact requests.conclude id index
  | ping id time => exact requests.post rfl rfl rfl
  | logoff id => exact requests.post rfl rfl rfl
  | duplicate id response => exact requests.duplicate id response
  | begin id call =>
    exact requests.onJoined rfl (fun _ _ => rfl) rfl rfl fun client peer stage =>
      Peer.puts_joined stage rfl rfl (fun on => ⟨on, rfl⟩) (List.prefix_refl _)
  | observe id name =>
    have performs : net.perform code (.observe id name) =
      net.onClient id fun client => ([], (client.enqueue (.addObserver name)).2) := rfl
    refine requests.onClient performs rfl rfl (fun _ => rfl) (fun _ => rfl) fun client => ?_
    have context := client.queue.context_enqueue (.addObserver name)
    have same : client.desk.outgoing.messages =
        (client.enqueue (.addObserver name)).2.desk.outgoing.messages :=
      (congrArg (·.desk.outgoing.messages) context).symm
    exact same ▸ List.prefix_refl _
  | stopQueue id =>
    have performs : net.perform code (.stopQueue id) =
      net.onClient id fun client => ([], { client with queue := client.queue.shutdown }) := rfl
    exact requests.onClient performs rfl rfl (fun _ => rfl) (fun _ => rfl) fun _ =>
      List.prefix_refl _
  | stopWriting id => exact requests.stopWriting id
  | wait milliseconds =>
    refine requests.within rfl rfl (fun _ c found => ⟨c, found, rfl⟩) fun id => ?_
    rw [accepted_of_idle rfl]
    exact .refl _ _ _
  | stopServing =>
    refine requests.within rfl rfl (fun _ c found => ⟨c, found, rfl⟩) fun id => ?_
    rw [accepted_of_idle rfl]
    exact ⟨[], rfl, .inr ⟨rfl, rfl⟩⟩

theorem Requests.new [Inhabited τ] (maxClients maxFrame : Nat) (app : α) :
    (Network.new maxClients maxFrame app : Network τ α κ ν ω).Requests ([] : List (Entry ν)) :=
  ⟨nofun, fun _ _ => ⟨rfl, rfl, rfl⟩⟩

end Parley.Network
