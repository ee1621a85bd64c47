import Parley.Proofs.Network.System

/-! From the server to its clients.
What a client still has to hear, wherever it is on its way, are the frames of messages that the
server has posted to it: no longer than the server's limit, with answers that were posted while a
request was handled, and with an oid only if that was granted. -/

namespace Parley.Network

open Client (Deed Logon)
open Connection (Arrival Desk Lull WriteAnswer carried carried_turn settled_turn turn)
open Wire (Bytes FrameReader)

/-- The message can have been posted to the connection. -/
structure Addressed (history : List (Event κ)) (id : ConnectionId) (message : Message) : Prop where
  response : ∀ response, message = .response response → response ∈ posted history
  bootstrap : ∀ oid services, message = .bootstrap oid services → .granted id oid ∈ history

theorem Addressed.mono {history history' : List (Event κ)} (sub : history ⊆ history')
    {id : ConnectionId} {message : Message} (addressed : Addressed history id message) :
    Addressed history' id message := by
  refine ⟨fun response same => ?_, fun oid services same => ?_⟩
  · obtain ⟨event, mem, posted⟩ := List.mem_flatMap.1 (addressed.response response same)
    exact List.mem_flatMap.2 ⟨event, sub mem, posted⟩
  · exact sub (addressed.bootstrap oid services same)

theorem posted_mono {history history' : List (Event κ)} (sub : history ⊆ history')
    {response : Response} (mem : response ∈ posted history) : response ∈ posted history' := by
  obtain ⟨event, mem, found⟩ := List.mem_flatMap.1 mem
  exact List.mem_flatMap.2 ⟨event, sub mem, found⟩

/-- The reader of a client holds frames of messages that were posted to it. If it goes on reading,
the rest of them is on its way or in the outbox. -/
def Hears (maxFrame : Nat) (outboxes : Outboxes) (history : List (Event κ)) (id : ConnectionId)
    (toClient : Bytes) (reader : FrameReader) (reading : Bool) : Prop :=
  reader.limit = Wire.defaultMaxFrame ∧ ∃ coming messages, reader.Awaits coming messages ∧
    (∀ message ∈ messages, message.encode.length ≤ maxFrame ∧ Addressed history id message) ∧
    (reading = true → ∃ box, outboxes.find? id = some box ∧ coming = toClient ++ box.buffer)

def Peer.Listens (maxFrame : Nat) (outboxes : Outboxes) (history : List (Event κ))
    (peer : Peer κ ν ω) : Prop :=
  match peer.stage with
  | .joining reader => Hears maxFrame outboxes history peer.id peer.toClient reader true
  | .joined client =>
    Hears maxFrame outboxes history peer.id peer.toClient client.reader client.reading ∧
    .granted peer.id client.oid ∈ history ∧
    ∀ response, .respond response ∈ client.queue.pending → response ∈ posted history
  | .failed error => ∀ failure, error = .protocol failure →
    (∃ cause, failure = .io cause) ∨ Wire.defaultMaxFrame < maxFrame

/-- The connections of a network are in order, and so is what they carry to the clients, if the
frames of the server can tell how long they are. -/
structure Sound (maxFrame : Nat) (net : Network τ α κ ν ω) : Prop where
  server : net.hall.context.Sound fun connection oid => .granted connection oid ∈ net.history
  limit : net.desk.manager.limit = maxFrame
  limits : ∀ id box, net.desk.outboxes.find? id = some box → box.limit = maxFrame
  noConnection : ∀ id, net.desk.manager.nextId ≤ id → net.desk.manager.find? id = none
  noOutbox : ∀ id, net.desk.manager.nextId ≤ id → net.desk.outboxes.find? id = none
  ids : ∀ peer ∈ net.peers, peer.id < net.desk.manager.nextId
  apart : (net.peers.map (·.id)).Nodup
  listens : maxFrame < 256 ^ Wire.headerLength →
    ∀ peer ∈ net.peers, peer.Listens maxFrame net.desk.outboxes net.history

variable {maxFrame : Nat} {outboxes outboxes' : Outboxes} {history history' : List (Event κ)}
  {peer : Peer κ ν ω} {net : Network τ α κ ν ω} {code : Client.Code κ ν ω}

theorem Hears.grow {id : ConnectionId} {toClient : Bytes} {reader : FrameReader} {reading : Bool}
    (small : maxFrame < 256 ^ Wire.headerLength)
    (hears : Hears maxFrame outboxes history id toClient reader reading)
    (sub : history ⊆ history') (grown : outboxes.Grown (Addressed history') outboxes')
    (limits : ∀ id box, outboxes.find? id = some box → box.limit = maxFrame) :
    Hears maxFrame outboxes' history' id toClient reader reading := by
  obtain ⟨limit, coming, messages, awaits, good, rest⟩ := hears
  have good' (message : Message) (mem : message ∈ messages) :
      message.encode.length ≤ maxFrame ∧ Addressed history' id message :=
    ⟨(good message mem).1, (good message mem).2.mono sub⟩
  cases reading with
  | false => exact ⟨limit, coming, messages, awaits, good', nofun⟩
  | true =>
    obtain ⟨box, found, rfl⟩ := rest rfl
    obtain ⟨box', more, found', -, buffer, fine⟩ := grown.present id box found
    have fine' (message : Message) (mem : message ∈ more) :
        message.encode.length ≤ maxFrame ∧ Addressed history' id message :=
      limits id box found ▸ fine message mem
    refine ⟨limit, toClient ++ box'.buffer, messages ++ more, ?_, fun message mem => ?_,
      fun _ => ⟨box', found', rfl⟩⟩
    · rw [buffer, ← List.append_assoc]
      exact awaits.grow fun message mem => Nat.lt_of_le_of_lt (fine' message mem).1 small
    · exact (List.mem_append.1 mem).elim (good' message) (fine' message)

theorem Peer.Listens.grow (small : maxFrame < 256 ^ Wire.headerLength)
    (listens : peer.Listens maxFrame outboxes history) (sub : history ⊆ history')
    (grown : outboxes.Grown (Addressed history') outboxes')
    (limits : ∀ id box, outboxes.find? id = some box → box.limit = maxFrame) :
    peer.Listens maxFrame outboxes' history' := by
  unfold Peer.Listens at listens ⊢
  cases stage : peer.stage with
  | joining reader =>
    rw [stage] at listens
    exact Hears.grow small listens sub grown limits
  | joined client =>
    rw [stage] at listens
    obtain ⟨hears, granted, queued⟩ := listens
    exact ⟨hears.grow small sub grown limits, sub granted,
      fun response mem => posted_mono sub (queued response mem)⟩
  | failed error =>
    rw [stage] at listens
    exact listens

theorem Sound.new [Inhabited τ] (maxClients maxFrame : Nat) (app : α) :
    (Network.new maxClients maxFrame app : Network τ α κ ν ω).Sound maxFrame := by
  have server : (Server.new maxClients app : Server τ α).Sound fun connection oid =>
      (.granted connection oid : Event κ) ∈ [] :=
    (Server.Sound.start maxClients app).mono fun _ _ => ⟨False.elim, List.not_mem_nil.elim⟩
  have noBox (id : ConnectionId) : ({} : Outboxes).find? id = none := rfl
  refine ⟨server, rfl, fun id box h => ?_, fun _ _ => rfl, fun id _ => noBox id,
    List.forall_mem_nil _, List.nodup_nil, fun _ => List.forall_mem_nil _⟩
  cases (noBox id).symm.trans h

/-- A step of the server. It may read, close and post as it likes, as long as what it posts can
have been posted. -/
theorem Sound.outward {after : Network τ α κ ν ω} (sound : net.Sound maxFrame)
    (peers : ∀ peer ∈ after.peers, ∃ old ∈ net.peers,
      peer.id = old.id ∧ peer.stage = old.stage ∧ peer.toClient = old.toClient)
    (same : after.peers.map (·.id) = net.peers.map (·.id))
    (sub : net.history ⊆ after.history)
    (server : after.hall.context.Sound fun connection oid =>
      .granted connection oid ∈ after.history)
    (nextId : after.desk.manager.nextId = net.desk.manager.nextId)
    (limit : after.desk.manager.limit = net.desk.manager.limit)
    (connections : ∀ id, net.desk.manager.find? id = none → after.desk.manager.find? id = none)
    (grown : net.desk.outboxes.Grown (Addressed after.history) after.desk.outboxes) :
    after.Sound maxFrame := by
  refine ⟨server, limit.trans sound.limit, fun id box h => ?_, fun id le => ?_, fun id le => ?_,
    fun peer mem => ?_, same ▸ sound.apart, fun small peer mem => ?_⟩
  · cases found : net.desk.outboxes.find? id with
    | none =>
      rw [grown.absent id found] at h
      cases h
    | some old =>
      obtain ⟨box', _, h', kept, -⟩ := grown.present id old found
      obtain rfl := Option.some.inj (h.symm.trans h')
      exact kept.trans (sound.limits id old found)
  · exact connections id (sound.noConnection id (nextId ▸ le))
  · exact grown.absent id (sound.noOutbox id (nextId ▸ le))
  · obtain ⟨old, mem, id, -⟩ := peers peer mem
    rw [id, nextId]
    exact sound.ids old mem
  · obtain ⟨old, mem, id, stage, toClient⟩ := peers peer mem
    have listens := (sound.listens small old mem).grow small sub grown sound.limits
    unfold Peer.Listens at listens ⊢
    rwa [stage, id, toClient]

theorem Sound.onPeer (sound : net.Sound maxFrame) {id : ConnectionId}
    {work : Peer κ ν ω → List (Event κ) × Peer κ ν ω}
    (same : ∀ peer ∈ net.peers, (work peer).2.id = peer.id)
    (deeds : ∀ peer, ∀ event ∈ (work peer).1, ∃ deed, event = .did id deed)
    (own : ∀ peer ∈ net.peers, peer.id = id →
      peer.Listens maxFrame net.desk.outboxes net.history →
      (work peer).2.Listens maxFrame net.desk.outboxes net.history) :
    (net.onPeer id work).Sound maxFrame := by
  have ids : (net.onPeer id work).peers.map (·.id) = net.peers.map (·.id) := map_id_onPeer same
  refine ⟨?_, by simpa using sound.limit, by simpa using sound.limits,
    by simpa using sound.noConnection, by simpa using sound.noOutbox, fun peer mem => ?_,
    ids ▸ sound.apart, fun small => ?_⟩
  · rw [hall_onPeer]
    refine sound.server.mono fun connection oid => ⟨fun mem => prefix_onPeer.subset mem, ?_⟩
    intro mem
    obtain unchanged | ⟨peer, -, -, history⟩ := net.onPeer_spec id work
    · rwa [unchanged] at mem
    · rw [history] at mem
      obtain mem | mem := List.mem_append.1 mem
      · exact mem
      · obtain ⟨deed, equal⟩ := deeds peer _ mem
        cases equal
  · rw [desk_onPeer]
    have mem' : peer.id ∈ (net.onPeer id work).peers.map (·.id) := List.mem_map.2 ⟨peer, mem, rfl⟩
    rw [ids] at mem'
    obtain ⟨old, known, equal⟩ := List.mem_map.1 mem'
    exact equal ▸ sound.ids old known
  · rw [desk_onPeer]
    have later {history : List (Event κ)} {events : List (Event κ)} {peer : Peer κ ν ω}
        (listens : peer.Listens maxFrame net.desk.outboxes history) :
        peer.Listens maxFrame net.desk.outboxes (history ++ events) :=
      listens.grow small (List.subset_append_left history events) (.refl _) sound.limits
    exact forall_onPeer (P := fun history peer => peer.Listens maxFrame net.desk.outboxes history)
      (sound.listens small) (fun _ _ _ _ _ listens => later listens)
      fun peer mem here _ listens => later (own peer mem here listens)

theorem Peer.Listens.joined {client client' : Client κ ν ω} (stage : peer.stage = .joined client)
    (listens : peer.Listens maxFrame outboxes history) (reader : client'.reader = client.reader)
    (reading : client'.reading = client.reading) (oid : client'.oid = client.oid)
    (pending : ∀ response, .respond response ∈ client'.queue.pending →
      .respond response ∈ client.queue.pending) (toServer : Bytes)
    (calls : List (Request × List Token)) :
    { peer with stage := .joined client', toServer, calls }.Listens maxFrame outboxes
      history := by
  unfold Peer.Listens at listens ⊢
  rw [stage] at listens
  dsimp only at listens ⊢
  rw [reader, reading, oid]
  exact ⟨listens.1, listens.2.1, fun response mem => listens.2.2 response (pending response mem)⟩

theorem Sound.onJoined (sound : net.Sound maxFrame) {id : ConnectionId}
    {work : Client κ ν ω → Peer κ ν ω → List (Deed κ) × Peer κ ν ω}
    (same : ∀ client peer, (work client peer).2.id = peer.id)
    (own : ∀ client peer, peer.stage = .joined client →
      peer.Listens maxFrame net.desk.outboxes net.history →
      (work client peer).2.Listens maxFrame net.desk.outboxes net.history) :
    (net.onJoined id work).Sound maxFrame := by
  refine sound.onPeer (fun peer _ => ?_) (fun peer event mem => ?_) fun peer _ _ listens => ?_
  all_goals obtain ⟨client, stage, acted⟩ | idle := whenJoined_cases id peer work
  · rw [acted]
    exact same client peer
  · rw [idle]
  · rw [acted] at mem
    obtain ⟨deed, -, rfl⟩ := List.mem_map.1 mem
    exact ⟨deed, rfl⟩
  · rw [idle] at mem
    cases mem
  · rw [acted]
    exact own client peer stage listens
  · rw [idle]
    exact listens

theorem Sound.onClient (sound : net.Sound maxFrame) {id : ConnectionId}
    {work : Client κ ν ω → List (Deed κ) × Client κ ν ω}
    (reader : ∀ client, (work client).2.reader = client.reader)
    (reading : ∀ client, (work client).2.reading = client.reading)
    (oid : ∀ client, (work client).2.oid = client.oid)
    (pending : ∀ client response, .respond response ∈ (work client).2.queue.pending →
      .respond response ∈ client.queue.pending) :
    (net.onClient id work).Sound maxFrame :=
  sound.onJoined (fun _ _ => rfl) fun client peer stage listens =>
    listens.joined stage (reader client) (reading client) (oid client) (pending client)
      peer.toServer peer.calls

theorem Hears.reroute {id : ConnectionId} {toClient toClient' : Bytes} {reader : FrameReader}
    {reading : Bool} (hears : Hears maxFrame outboxes history id toClient reader reading)
    (route : ∀ box, outboxes.find? id = some box → ∃ box', outboxes'.find? id = some box' ∧
      toClient' ++ box'.buffer = toClient ++ box.buffer) :
    Hears maxFrame outboxes' history id toClient' reader reading := by
  obtain ⟨limit, coming, messages, awaits, good, rest⟩ := hears
  refine ⟨limit, coming, messages, awaits, good, fun on => ?_⟩
  obtain ⟨box, found, rfl⟩ := rest on
  obtain ⟨box', found', same⟩ := route box found
  exact ⟨box', found', same.symm⟩

theorem Peer.Listens.reroute {toClient' : Bytes} (listens : peer.Listens maxFrame outboxes history)
    (route : ∀ box, outboxes.find? peer.id = some box → ∃ box',
      outboxes'.find? peer.id = some box' ∧
      toClient' ++ box'.buffer = peer.toClient ++ box.buffer) :
    { peer with toClient := toClient' }.Listens maxFrame outboxes' history := by
  unfold Peer.Listens at listens ⊢
  cases stage : peer.stage with
  | joining reader =>
    rw [stage] at listens
    exact Hears.reroute listens route
  | joined client =>
    rw [stage] at listens
    exact ⟨listens.1.reroute route, listens.2⟩
  | failed error =>
    rw [stage] at listens
    exact listens

theorem Sound.dial (sound : net.Sound maxFrame) (address username : String) (state : ω) :
    (net.dial address username state).Sound maxFrame := by
  have old {id : ConnectionId} {box : Outbox} (h : net.desk.outboxes.find? id = some box) :
      (net.desk.accept address).outboxes.find? id = some box := by
    rw [Connection.Desk.outbox_accept, h]
    rfl
  have new : (net.desk.accept address).outboxes.find? net.desk.manager.nextId =
      some { id := net.desk.manager.nextId, address, limit := net.desk.manager.limit } := by
    rw [Connection.Desk.outbox_accept, sound.noOutbox _ (Nat.le_refl _)]
    simp
  have limits (id : ConnectionId) (box : Outbox)
      (h : (net.desk.accept address).outboxes.find? id = some box) : box.limit = maxFrame := by
    rw [Connection.Desk.outbox_accept] at h
    obtain h | ⟨-, h⟩ := Option.or_eq_some_iff.1 h
    · exact sound.limits id box h
    · split at h
      · cases h
        exact sound.limit
      · cases h
  refine ⟨?_, sound.limit, limits, fun id le => ?_, fun id le => ?_, fun peer mem => ?_, ?_,
    fun small peer mem => ?_⟩
  · refine sound.server.mono fun connection oid => ⟨fun mem => List.mem_append_left _ mem, ?_⟩
    intro mem
    obtain mem | mem := List.mem_append.1 mem
    · exact mem
    · cases List.mem_singleton.1 mem
  · have le : net.desk.manager.nextId + 1 ≤ id := le
    change (net.desk.accept address).manager.find? id = none
    rw [Connection.Desk.connection_accept, sound.noConnection id (Nat.le_of_succ_le le),
      if_neg (Nat.ne_of_lt le)]
    rfl
  · have le : net.desk.manager.nextId + 1 ≤ id := le
    change (net.desk.accept address).outboxes.find? id = none
    rw [Connection.Desk.outbox_accept, sound.noOutbox id (Nat.le_of_succ_le le),
      if_neg (Nat.ne_of_lt le)]
    rfl
  · change peer.id < net.desk.manager.nextId + 1
    obtain mem | mem := List.mem_append.1 mem
    · exact Nat.lt_succ_of_lt (sound.ids peer mem)
    · obtain rfl := List.mem_singleton.1 mem
      exact Nat.lt_succ_self _
  · change ((net.peers ++ [_]).map _).Nodup
    rw [List.map_append, List.nodup_append]
    refine ⟨sound.apart, List.pairwise_singleton _ _, fun id mem id' mem' same => ?_⟩
    obtain ⟨peer, known, rfl⟩ := List.mem_map.1 mem
    obtain rfl := List.mem_singleton.1 mem'
    exact Nat.ne_of_lt (sound.ids peer known) same
  · obtain mem | mem := List.mem_append.1 mem
    · have kept : peer.Listens maxFrame (net.desk.accept address).outboxes net.history :=
        (sound.listens small peer mem).reroute fun box h => ⟨box, old h, rfl⟩
      exact kept.grow small (List.subset_append_left _ _) (.refl _) limits
    · obtain rfl := List.mem_singleton.1 mem
      refine ⟨rfl, [], [], ⟨rfl, nofun⟩, nofun, fun _ => ⟨_, new, rfl⟩⟩

theorem Sound.serverReads (sound : net.Sound maxFrame) (id : ConnectionId) (lull : Lull)
    (arrivals : List Arrival) : (net.serverReads id lull arrivals).Sound maxFrame := by
  unfold Network.serverReads
  split
  · rename_i peer connection _ found
    rcases turned : turn lull peer.toServer arrivals with ⟨answers, toServer⟩
    rcases reading : connection.readMessages answers with ⟨outcome, next⟩
    have visited := net.desk.visited_read found reading
    dsimp only
    have moved : ∀ p ∈ (net.onPeer id fun peer => ([], { peer with toServer })).peers,
        ∃ old ∈ net.peers, p.id = old.id ∧ p.stage = old.stage ∧ p.toClient = old.toClient := by
      intro p mem
      obtain ⟨q, found, rfl⟩ | ⟨mem, -⟩ := of_mem_onPeer mem
      · exact ⟨q, List.mem_of_find?_eq_some found, rfl, rfl, rfl⟩
      · exact ⟨p, mem, rfl, rfl, rfl⟩
    have history : (net.onPeer id fun peer => ([], { peer with toServer })).history =
        net.history := history_onPeer fun _ => rfl
    refine sound.outward moved (map_id_onPeer fun _ _ => rfl) prefix_onPeer.subset ?_
      visited.nextId visited.limit (visited.absent found) (visited.outboxes.mono ?_)
    · dsimp only
      rw [history, hall_onPeer]
      exact sound.server
    · intro _ message pong
      obtain ⟨time, rfl⟩ := pong
      exact ⟨nofun, nofun⟩
  · exact sound

theorem Sound.serverWrites (sound : net.Sound maxFrame) (id : ConnectionId)
    (answers : List WriteAnswer) : (net.serverWrites id answers).Sound maxFrame := by
  unfold Network.serverWrites
  rcases flush : net.desk.flush id answers with ⟨written, desk⟩
  have flushed := net.desk.flushed_flush id answers
  rw [flush] at flushed
  have history : (net.onPeer id fun peer =>
      ([], { peer with toClient := peer.toClient ++ written })).history = net.history :=
    history_onPeer fun _ => rfl
  have ids : (net.onPeer id fun peer =>
      ([], { peer with toClient := peer.toClient ++ written })).peers.map (·.id) =
      net.peers.map (·.id) := map_id_onPeer fun _ _ => rfl
  dsimp only
  refine ⟨?_, flushed.manager.limit.trans sound.limit, fun id' box h => ?_, fun id' le => ?_,
    fun id' le => ?_, fun peer mem => ?_, ids ▸ sound.apart, fun small peer mem => ?_⟩
  · dsimp only
    rw [history, hall_onPeer]
    exact sound.server
  · cases found : net.desk.outboxes.find? id' with
    | none =>
      cases (flushed.absent id' found).symm.trans h
    | some old =>
      obtain ⟨box', h', limit, -⟩ := flushed.present id' old found
      obtain rfl := Option.some.inj (h.symm.trans h')
      exact limit.trans (sound.limits id' old found)
  · exact flushed.manager.absent id' (sound.noConnection id' (flushed.manager.nextId ▸ le))
  · exact flushed.absent id' (sound.noOutbox id' (flushed.manager.nextId ▸ le))
  · have mem' : peer.id ∈ (net.onPeer id fun peer =>
        ([], { peer with toClient := peer.toClient ++ written })).peers.map (·.id) :=
      List.mem_map.2 ⟨peer, mem, rfl⟩
    rw [ids] at mem'
    obtain ⟨old, known, same⟩ := List.mem_map.1 mem'
    dsimp only at same ⊢
    rw [← same, flushed.manager.nextId]
    exact sound.ids old known
  · dsimp only
    rw [history]
    obtain ⟨old, found, rfl⟩ | ⟨known, apart⟩ := of_mem_onPeer mem
    · have mem := List.mem_of_find?_eq_some found
      refine (sound.listens small old mem).reroute fun box h => ?_
      obtain ⟨box', h', -, whole⟩ := flushed.present old.id box h
      rw [if_pos (id_of_find? found)] at whole
      exact ⟨box', h', by rw [List.append_assoc, whole]⟩
    · refine (sound.listens small peer known).reroute fun box h => ?_
      obtain ⟨box', h', -, whole⟩ := flushed.present peer.id box h
      rw [if_neg apart, List.nil_append] at whole
      exact ⟨box', h', by rw [whole]⟩

theorem granted_mem_serverEvents {server : Server τ α} {command : Server.Command}
    {connection : ConnectionId} {oid : Oid} :
    (.granted connection oid : Event κ) ∈ serverEvents server command ↔
      (connection, oid) ∈ server.grants command := by
  cases command <;> simp [serverEvents, Server.grants]

theorem posted_serverEvents {server : Server τ α} {command : Server.Command} {response : Response}
    (mem : response ∈ server.responses command) :
    response ∈ posted (serverEvents server command : List (Event κ)) := by
  cases command with
  | handleRequest connection request =>
    exact List.mem_flatMap.2 ⟨_, List.mem_singleton_self _, mem⟩
  | _ => cases mem

theorem addressed_of_posts {server : Server τ α} {command : Server.Command} {id : ConnectionId}
    {message : Message} (posts : server.Posts command id message) :
    Addressed (history ++ serverEvents server command) id message := by
  obtain ⟨event, rfl⟩ | ⟨reason, rfl⟩ | ⟨response, mem, rfl⟩ | ⟨oid, services, rfl, mem⟩ := posts
  · exact ⟨nofun, nofun⟩
  · exact ⟨nofun, nofun⟩
  · refine ⟨fun response' same => ?_, nofun⟩
    cases same
    exact posted_mono (List.subset_append_right _ _) (posted_serverEvents mem)
  · refine ⟨nofun, fun oid' services' same => ?_⟩
    cases same
    exact List.mem_append_right _ (granted_mem_serverEvents.2 mem)

theorem Sound.ready (sound : net.Sound maxFrame) :
    net.server.Sound fun connection oid => .granted connection oid ∈ net.history :=
  sound.server.modifyLobby rfl rfl

theorem Sound.serve (sound : net.Sound maxFrame) : net.serve.Sound maxFrame := by
  cases next : net.hall.pending with
  | nil => rwa [serve_of_idle next]
  | cons command rest =>
    have performed := sound.ready.perform command
    rw [serve_of_pending next]
    refine sound.outward (fun peer mem => ⟨peer, mem, rfl, rfl, rfl⟩) rfl
      (List.subset_append_left _ _) ?_ rfl rfl (fun _ h => h) ?_
    · refine performed.sound.mono fun connection oid => ?_
      rw [List.mem_append, granted_mem_serverEvents]
    · exact performed.outboxes.mono fun _ _ => addressed_of_posts

theorem Sound.serverCloses (sound : net.Sound maxFrame) (id : ConnectionId) :
    { net with desk := net.desk.close id }.Sound maxFrame := by
  obtain ⟨kept, grown, -⟩ := net.desk.close_spec id (P := Addressed net.history)
  exact sound.outward (fun peer mem => ⟨peer, mem, rfl, rfl, rfl⟩) rfl (fun _ mem => mem)
    sound.server kept.nextId kept.limit kept.absent grown

theorem context_notify (hall : Server.Hall τ α) (notices : List Connection.Notice) :
    (Server.Host.notify hall notices).context = hall.context := by
  induction notices generalizing hall with
  | nil => rfl
  | cons notice rest ih =>
    cases notice with
    | received connection message =>
      rw [Server.Host.notify, ih, Server.Hall.receive]
      split
      · exact hall.context_enqueue _
      · rfl
    | closed connection =>
      rw [Server.Host.notify, ih]
      exact hall.context_enqueue _

theorem Sound.inward {hall : Server.Hall τ α} {notices : List Connection.Notice}
    (sound : net.Sound maxFrame)
    (server : hall.context.Sound fun connection oid => .granted connection oid ∈ net.history) :
    { net with hall, desk := { net.desk with notices } }.Sound maxFrame :=
  ⟨server, sound.limit, sound.limits, sound.noConnection, sound.noOutbox, sound.ids, sound.apart,
    sound.listens⟩

theorem Sound.notify (sound : net.Sound maxFrame) : net.notify.Sound maxFrame := by
  unfold Network.notify
  split
  · exact sound
  · refine sound.inward ?_
    rw [context_notify]
    exact sound.server

def Stage.Moved (state : ω) : Stage κ ν ω → Stage κ ν ω → Prop
  | .joining _, .joined client => client.writing = true ∧ client.unsent = [] ∧
    client.queue.context = { desk := { director := { oid := client.oid }, state } }
  | .joining _, _ => True
  | .joined client, .joined client' => client'.oid = client.oid ∧
    client'.writing = client.writing ∧ client'.unsent = client.unsent ∧
    client'.queue.context = client.queue.context
  | .joined _, _ => False
  | .failed _, stage => ∃ error, stage = .failed error

structure Peer.Moved (before after : Peer κ ν ω) : Prop where
  id : after.id = before.id
  toServer : after.toServer = before.toServer
  calls : after.calls = before.calls
  stage : before.stage.Moved before.state after.stage

theorem Peer.moved_read (peer : Peer κ ν ω) (lull : Lull) (arrivals : List Arrival) :
    peer.Moved (peer.read lull arrivals) := by
  unfold Peer.read
  rcases turn lull peer.toClient arrivals with ⟨answers, toClient⟩
  dsimp only
  cases stage : peer.stage with
  | joining reader =>
    dsimp only
    rcases Logon.proceed reader answers with ⟨logon, left⟩
    cases logon with
    | welcome oid services after =>
      have kept := (Client.new oid services after peer.state : Client κ ν ω).kept_read left
      refine ⟨rfl, rfl, rfl, ?_⟩
      rw [stage]
      exact ⟨kept.writing, kept.unsent, by rw [kept.oid]; exact kept.context⟩
    | _ => exact ⟨rfl, rfl, rfl, stage ▸ trivial⟩
  | joined client =>
    dsimp only
    split
    · have kept := client.kept_read answers
      refine ⟨rfl, rfl, rfl, ?_⟩
      rw [stage]
      exact ⟨kept.oid, kept.writing, kept.unsent, kept.context⟩
    · refine ⟨rfl, rfl, rfl, ?_⟩
      rw [stage]
      exact ⟨rfl, rfl, rfl, rfl⟩
  | failed error =>
    refine ⟨rfl, rfl, rfl, ?_⟩
    rw [stage]
    exact ⟨error, rfl⟩

theorem Hears.read {id : ConnectionId} {toClient : Bytes} (client : Client κ ν ω) {box : Outbox}
    {answers : List Connection.ReadAnswer} {messages : List Message}
    (found : outboxes.find? id = some box) (limit : client.reader.limit = Wire.defaultMaxFrame)
    (settled : Connection.Settled answers)
    (awaits : client.reader.Awaits (carried answers ++ (toClient ++ box.buffer)) messages)
    (good : ∀ message ∈ messages,
      message.encode.length ≤ maxFrame ∧ Addressed history id message)
    (queued : ∀ response, .respond response ∈ client.queue.pending → response ∈ posted history) :
    Hears maxFrame outboxes history id toClient (client.read answers).reader
      (client.read answers).reading ∧
    ∀ response, .respond response ∈ (client.read answers).queue.pending →
      response ∈ posted history := by
  obtain ⟨taken, later, lost, rfl, read, left, kept⟩ := client.read_of_awaits settled awaits
  refine ⟨⟨read.limit.trans limit, _, later, left, fun message mem =>
    good message (List.mem_append_right taken mem), fun on => ⟨box, found, ?_⟩⟩, ?_⟩
  · rw [kept on, List.nil_append]
  · intro response mem
    obtain ⟨commands, pending, answered⟩ := read.queued
    rw [pending] at mem
    obtain mem | mem := List.mem_append.1 mem
    · exact queued response mem
    · have taken := answered response mem
      exact (good _ (List.mem_append_left later taken)).2.response response rfl

/-- A client that waits to be let in goes on waiting, is let in and reads on, or gives up. -/
theorem Peer.listens_joining {reader : FrameReader} (stage : peer.stage = .joining reader)
    (hears : Hears maxFrame outboxes history peer.id peer.toClient reader true) (lull : Lull)
    (arrivals : List Arrival) :
    (peer.read lull arrivals).Listens maxFrame outboxes history := by
  have whole := carried_turn lull peer.toClient arrivals
  have settled := settled_turn lull peer.toClient arrivals
  unfold Peer.read
  rcases turned : turn lull peer.toClient arrivals with ⟨answers, toClient⟩
  rw [turned] at whole settled
  obtain ⟨limit, coming, messages, awaits, good, rest⟩ := hears
  obtain ⟨box, found, rfl⟩ := rest rfl
  rw [← whole, List.append_assoc] at awaits
  rcases proceeded : Logon.proceed reader answers with ⟨logon, left⟩
  have expected := Logon.proceed_of_awaits settled awaits proceeded
  rw [limit] at expected
  dsimp only
  rw [stage]
  dsimp only
  rw [proceeded]
  cases logon with
  | waiting after =>
    obtain ⟨same, passed, later, rfl, awaits'⟩ := expected
    refine ⟨same, _, later, awaits', fun message mem => ?_, fun _ => ⟨box, found, rfl⟩⟩
    exact good message (List.mem_append_right passed mem)
  | welcome oid services after =>
    obtain ⟨same, settled', passed, later, rfl, awaits'⟩ := expected
    have good' (message : Message) (mem : message ∈ .bootstrap oid services :: later) :=
      good message (List.mem_append_right passed mem)
    obtain ⟨hears, queued⟩ :=
      Hears.read (Client.new oid services after peer.state) found same settled' awaits'
        (fun message mem => good' message (List.mem_cons_of_mem _ mem)) nofun
    refine ⟨hears, ?_, queued⟩
    rw [(Client.kept_read _ left).oid]
    exact (good' _ List.mem_cons_self).2.bootstrap oid services rfl
  | failed error =>
    refine fun failure same => (expected failure same).imp_right fun large => ?_
    obtain ⟨message, mem, large⟩ := large
    exact Nat.lt_of_lt_of_le large (good message mem).1

theorem Peer.Listens.read (listens : peer.Listens maxFrame outboxes history) (lull : Lull)
    (arrivals : List Arrival) : (peer.read lull arrivals).Listens maxFrame outboxes history := by
  have known := listens
  unfold Peer.Listens at listens
  cases stage : peer.stage with
  | joining reader =>
    rw [stage] at listens
    exact peer.listens_joining stage listens lull arrivals
  | joined client =>
    rw [stage] at listens
    obtain ⟨⟨limit, coming, messages, awaits, good, rest⟩, granted, queued⟩ := listens
    have whole := carried_turn lull peer.toClient arrivals
    unfold Peer.read
    rw [stage]
    dsimp only
    split
    · rename_i on
      obtain ⟨box, found, rfl⟩ := rest on
      rw [← whole, List.append_assoc] at awaits
      obtain ⟨hears, queued⟩ :=
        Hears.read client found limit (settled_turn lull _ _) awaits good queued
      refine ⟨hears, ?_, queued⟩
      rw [(client.kept_read _).oid]
      exact granted
    · exact known
  | failed error =>
    have still : peer.read lull arrivals = peer := by
      unfold Peer.read
      rw [stage]
    rwa [still]

theorem Sound.clientReads (sound : net.Sound maxFrame) (id : ConnectionId) (lull : Lull)
    (arrivals : List Arrival) : (net.clientReads id lull arrivals).Sound maxFrame :=
  sound.onPeer (fun peer _ => (peer.moved_read lull arrivals).id) (fun _ _ mem => nomatch mem)
    fun _ _ _ listens => listens.read lull arrivals

theorem Sound.clientWrites (sound : net.Sound maxFrame) (id : ConnectionId)
    (answers : List WriteAnswer) : (net.clientWrites id answers).Sound maxFrame := by
  refine sound.onJoined (fun _ _ => rfl) fun client peer stage listens => ?_
  have wrote := client.wrote_write answers
  exact listens.joined stage wrote.reader wrote.reading wrote.oid
    (fun response mem => wrote.pending ▸ mem) _ _

theorem Sound.begin (sound : net.Sound maxFrame) (id : ConnectionId) (call : Client.Call κ) :
    (net.begin id call).Sound maxFrame :=
  sound.onJoined (fun _ _ => rfl) fun client peer stage listens =>
    listens.joined stage rfl rfl rfl (fun _ mem => mem) peer.toServer
      (peer.calls ++ (client.desk.director.begin call).1.toOption.toList)

theorem Sound.conclude (sound : net.Sound maxFrame) (id : ConnectionId) (index : Nat) :
    (net.conclude id index).Sound maxFrame := by
  refine sound.onJoined (fun client peer => ?_) fun client peer stage listens => ?_
  · split <;> rfl
  · split
    · exact listens.joined stage rfl rfl rfl (fun _ mem => mem) peer.toServer
        (peer.calls.eraseIdx index)
    · exact listens

theorem Sound.clientRuns (sound : net.Sound maxFrame) (id : ConnectionId) :
    (net.onClient id (runOne code)).Sound maxFrame := by
  have spec (client : Client κ ν ω) : (runOne code client).2.reader = client.reader ∧
      (runOne code client).2.reading = client.reading ∧
      (runOne code client).2.oid = client.oid ∧
      ∀ response, .respond response ∈ (runOne code client).2.queue.pending →
        .respond response ∈ client.queue.pending := by
    cases next : client.queue.pending with
    | nil =>
      rw [runOne_of_idle code next, next]
      exact ⟨rfl, rfl, rfl, fun _ mem => mem⟩
    | cons command rest =>
      rw [runOne_of_pending code next]
      exact ⟨rfl, rfl, rfl, fun response mem => List.mem_cons_of_mem _ mem⟩
  exact sound.onClient (fun client => (spec client).1) (fun client => (spec client).2.1)
    (fun client => (spec client).2.2.1) fun client => (spec client).2.2.2

theorem Sound.perform (sound : net.Sound maxFrame) (action : Action κ ν ω) :
    (net.perform code action).Sound maxFrame := by
  cases action with
  | dial address username state => exact sound.dial address username state
  | serverReads id lull arrivals => exact sound.serverReads id lull arrivals
  | serverWrites id answers => exact sound.serverWrites id answers
  | serverCloses id => exact sound.serverCloses id
  | notify => exact sound.notify
  | serve => exact sound.serve
  | wait milliseconds =>
    have later := sound.server.modifyLobby (f := fun lobby =>
      { lobby with clock := lobby.clock + milliseconds }) rfl rfl
    exact sound.inward later
  | stopServing => exact sound.inward sound.server
  | clientReads id lull arrivals => exact sound.clientReads id lull arrivals
  | clientWrites id answers => exact sound.clientWrites id answers
  | clientRuns id => exact sound.clientRuns id
  | begin id call => exact sound.begin id call
  | conclude id index => exact sound.conclude id index
  | observe id name =>
    rw [Network.perform]
    refine sound.onClient (fun _ => rfl) (fun _ => rfl) (fun _ => rfl) ?_
    intro client response mem
    obtain known | same := ActionQueue.of_mem_enqueue mem
    · exact known
    · cases same
  | duplicate id response =>
    rw [Network.perform]
    split
    · exact sound.onClient (fun _ => rfl) (fun _ => rfl) (fun _ => rfl) fun _ _ mem => mem
    · exact sound
  | _ =>
    rw [Network.perform]
    exact sound.onClient (fun _ => rfl) (fun _ => rfl) (fun _ => rfl) fun _ _ mem => mem

theorem Sound.run (sound : net.Sound maxFrame) (actions : List (Action κ ν ω)) :
    (net.run code actions).Sound maxFrame := by
  induction actions generalizing net with
  | nil => exact sound
  | cons action rest ih => exact ih (sound.perform action)

end Parley.Network
