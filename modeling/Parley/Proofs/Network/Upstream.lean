import Parley.Proofs.Network.Downstream

/-! From the clients to the server.
What the server has still to hear from a client, wherever it is on its way, are the frames of
messages that the client has posted. So whatever request the server deals with, the client has
begun a call with it. -/

namespace Parley.Network

open Client (Acted Call Logon)
open Connection (Arrival Desk Lull Manager Notice WriteAnswer carried_turn settled_turn turn)
open Wire (Bytes frames)

def Called (history : List (Event κ)) (id : ConnectionId) (request : Request) : Prop :=
  ∃ call tokens, .did id (.begun call request tokens) ∈ history

def Said (history : List (Event κ)) (id : ConnectionId) (message : Message) : Prop :=
  ∀ request, message = .invocation request → Called history id request

/-- Nothing out of the ordinary was said: a frame can tell how long it is, and no value that was
handed to a call is itself a listener. A message that is too long for that can be read as any other
(`Wire.exists_misread`). -/
structure Ordinary (history : List (Event κ)) : Prop where
  greetings : ∀ id username, .dialled id username ∈ history → (Logon.greeting username).Framable
  calls : ∀ id call request tokens, .did id (.begun call request tokens) ∈ history →
    call.Plain ∧ (Message.invocation request).Framable

def Event.isOrdinary : Event κ → Bool
  | .dialled _ username => (Logon.greeting username).Framable
  | .did _ (.begun call request _) => call.Plain ∧ (Message.invocation request).Framable
  | _ => true

theorem ordinary_iff {history : List (Event κ)} :
    history.all Event.isOrdinary = true ↔ Ordinary history := by
  rw [List.all_eq_true]
  refine ⟨fun all => ⟨fun id username mem => of_decide_eq_true (all _ mem),
    fun id call request tokens mem => of_decide_eq_true (all _ mem)⟩, fun ordinary event mem => ?_⟩
  cases event with
  | dialled id username => exact decide_eq_true (ordinary.greetings id username mem)
  | did id deed =>
    cases deed with
    | begun call request tokens =>
      exact decide_eq_true (ordinary.calls id call request tokens mem)
    | heard token name cause => rfl
  | _ => rfl

instance (history : List (Event κ)) : Decidable (Ordinary history) :=
  decidable_of_iff _ ordinary_iff

def Stage.unwritten : Stage κ ν ω → Option Bytes
  | .joining _ => some []
  | .joined client =>
    if client.writing then some (client.unsent ++ frames client.desk.outgoing.messages) else none
  | .failed _ => none

/-- A client and its connection, as far as the client speaks: what the server has of it, what is
on its way and what is still to be written are the frames of messages. -/
structure Peer.Speaks (manager : Manager) (history : List (Event κ)) (peer : Peer κ ν ω) :
    Prop where
  stream : ∀ connection, manager.find? peer.id = some connection → ∃ tail messages,
    connection.reader.Awaits (peer.toServer ++ tail) messages ∧
    (∀ message ∈ messages, Said history peer.id message) ∧
    ∀ bytes, peer.stage.unwritten = some bytes → tail = bytes
  calls : ∀ request tokens, (request, tokens) ∈ peer.calls → Called history peer.id request

/-- All that the server deals with was said by its clients. -/
structure Faithful (net : Network τ α κ ν ω) : Prop where
  speaks : ∀ peer ∈ net.peers, peer.Speaks net.desk.manager net.history
  noticed : ∀ id message, .received id message ∈ net.desk.notices → Said net.history id message
  queued : ∀ id request, .handleRequest id request ∈ net.hall.pending →
    Called net.history id request
  dispatched : ∀ id request responses, .dispatched id request responses ∈ net.history →
    Called net.history id request

variable {maxFrame : Nat} {manager manager' : Manager} {history history' : List (Event κ)}
  {peer : Peer κ ν ω} {net : Network τ α κ ν ω} {code : Client.Code κ ν ω}

theorem Called.mono {id : ConnectionId} {request : Request} (called : Called history id request)
    (sub : history ⊆ history') : Called history' id request := by
  obtain ⟨call, tokens, mem⟩ := called
  exact ⟨call, tokens, sub mem⟩

theorem Said.mono {id : ConnectionId} {message : Message} (said : Said history id message)
    (sub : history ⊆ history') : Said history' id message :=
  fun request same => (said request same).mono sub

theorem Ordinary.mono (ordinary : Ordinary history') (sub : history ⊆ history') :
    Ordinary history :=
  ⟨fun id username mem => ordinary.greetings id username (sub mem),
    fun id call request tokens mem => ordinary.calls id call request tokens (sub mem)⟩

theorem Peer.Speaks.keep (speaks : peer.Speaks manager history) (sub : history ⊆ history')
    (readers : ∀ connection, manager'.find? peer.id = some connection →
      ∃ old, manager.find? peer.id = some old ∧ connection.reader = old.reader) :
    peer.Speaks manager' history' := by
  refine ⟨fun connection found => ?_, fun request tokens mem =>
    (speaks.calls request tokens mem).mono sub⟩
  obtain ⟨old, found, same⟩ := readers connection found
  obtain ⟨tail, messages, awaits, good, rest⟩ := speaks.stream old found
  refine ⟨tail, messages, ?_, fun message mem => (good message mem).mono sub, rest⟩
  exact ⟨by rw [same, awaits.whole], awaits.small⟩

/-- A client goes on to speak: it posts messages behind those it has posted, or stops. -/
theorem Peer.Speaks.post {peer' : Peer κ ν ω} (speaks : peer.Speaks manager history)
    (id : peer'.id = peer.id) (toServer : peer'.toServer = peer.toServer)
    (sub : history ⊆ history')
    (calls : ∀ request tokens, (request, tokens) ∈ peer'.calls → Called history' peer.id request)
    (posts : ∀ bytes, peer'.stage.unwritten = some bytes → ∃ old posted,
      peer.stage.unwritten = some old ∧ bytes = old ++ frames posted ∧
      ∀ message ∈ posted, message.Framable ∧ Said history' peer.id message) :
    peer'.Speaks manager history' := by
  refine ⟨fun connection found => ?_, by rwa [id]⟩
  rw [id] at found ⊢
  rw [toServer]
  obtain ⟨tail, messages, awaits, good, rest⟩ := speaks.stream connection found
  have good' (message : Message) (mem : message ∈ messages) : Said history' peer.id message :=
    (good message mem).mono sub
  cases unwritten : peer'.stage.unwritten with
  | none => exact ⟨tail, messages, awaits, good', nofun⟩
  | some bytes =>
    obtain ⟨old, posted, known, rfl, fine⟩ := posts bytes unwritten
    obtain rfl := rest old known
    refine ⟨tail ++ frames posted, messages ++ posted, ?_, fun message mem => ?_, ?_⟩
    · rw [← List.append_assoc]
      exact awaits.grow fun message mem => (fine message mem).1
    · exact (List.mem_append.1 mem).elim (good' message) fun mem => (fine message mem).2
    · exact fun bytes same => Option.some.inj same

theorem Peer.Speaks.joined {client : Client κ ν ω} (stage : peer.stage = .joined client)
    (client' : Client κ ν ω) (calls : List (Request × List Token))
    (speaks : peer.Speaks manager history) (sub : history ⊆ history')
    (posts : client'.writing = true → client.writing = true ∧ client'.unsent = client.unsent ∧
      ∃ posted, client'.desk.outgoing.messages = client.desk.outgoing.messages ++ posted ∧
      ∀ message ∈ posted, message.Framable ∧ Said history' peer.id message)
    (known : ∀ request tokens, (request, tokens) ∈ calls → Called history' peer.id request) :
    { peer with stage := .joined client', calls }.Speaks manager history' := by
  refine speaks.post rfl rfl sub known fun bytes unwritten => ?_
  cases writing : client'.writing with
  | false => simp [Stage.unwritten, writing] at unwritten
  | true =>
    obtain ⟨writing', unsent, posted, messages, fine⟩ := posts writing
    simp only [Stage.unwritten, writing, ↓reduceIte, Option.some.injEq] at unwritten
    refine ⟨_, posted, by rw [stage, Stage.unwritten, if_pos writing'], ?_, fine⟩
    rw [← unwritten, unsent, messages, Wire.frames_append, List.append_assoc]

theorem said_of_acted {answer : Option Response} {deeds : List (Client.Deed κ)}
    {before after : Client.Desk κ ω} {id : ConnectionId} (acted : Acted answer deeds before after)
    (ordinary : Ordinary (history ++ deeds.map (.did id))) :
    ∃ posted, after.outgoing.messages = before.outgoing.messages ++ posted ∧
      ∀ message ∈ posted, message.Framable ∧ Said (history ++ deeds.map (.did id)) id message := by
  obtain ⟨posted, messages, good⟩ := acted.posted
  refine ⟨posted, messages, fun message mem => ?_⟩
  obtain ⟨call, request, tokens, rfl, begun⟩ := good message mem
  have mem' : (.did id (.begun call request tokens) : Event κ) ∈ history ++ deeds.map (.did id) :=
    List.mem_append_right history (List.mem_map_of_mem begun)
  refine ⟨(ordinary.calls id call request tokens mem').2, fun request' same => ?_⟩
  cases same
  exact ⟨call, tokens, mem'⟩

theorem Faithful.new [Inhabited τ] (maxClients maxFrame : Nat) (app : α) :
    (Network.new maxClients maxFrame app : Network τ α κ ν ω).Faithful := by
  refine ⟨fun _ mem => ?_, fun _ _ mem => ?_, fun _ _ mem => ?_, fun _ _ _ mem => ?_⟩
  all_goals cases mem

theorem Faithful.onPeer (faithful : net.Faithful) {id : ConnectionId}
    {work : Peer κ ν ω → List (Event κ) × Peer κ ν ω}
    (deeds : ∀ peer, ∀ event ∈ (work peer).1, ∃ deed, event = .did id deed)
    (own : ∀ peer ∈ net.peers, peer.id = id →
      (net.onPeer id work).history = net.history ++ (work peer).1 →
      peer.Speaks net.desk.manager net.history →
      (work peer).2.Speaks net.desk.manager (net.history ++ (work peer).1)) :
    (net.onPeer id work).Faithful := by
  have sub : net.history ⊆ (net.onPeer id work).history := prefix_onPeer.subset
  refine ⟨?_, ?_, ?_, fun id' request responses mem => ?_⟩
  · rw [desk_onPeer]
    exact forall_onPeer (P := fun history peer => peer.Speaks net.desk.manager history)
      faithful.speaks
      (fun _ _ _ _ _ speaks => speaks.keep (List.subset_append_left _ _) fun c h => ⟨c, h, rfl⟩)
      own
  · rw [desk_onPeer]
    exact fun id message mem => (faithful.noticed id message mem).mono sub
  · rw [hall_onPeer]
    exact fun id request mem => (faithful.queued id request mem).mono sub
  · refine (faithful.dispatched id' request responses ?_).mono sub
    obtain same | ⟨peer, -, -, history⟩ := net.onPeer_spec id work
    · rwa [same] at mem
    · rw [history] at mem
      obtain mem | mem := List.mem_append.1 mem
      · exact mem
      · obtain ⟨deed, equal⟩ := deeds peer _ mem
        cases equal

theorem Faithful.inward {after : Network τ α κ ν ω} (faithful : net.Faithful)
    (peers : ∀ peer ∈ after.peers, ∃ old ∈ net.peers, peer.id = old.id ∧
      peer.stage = old.stage ∧ peer.toServer = old.toServer ∧ peer.calls = old.calls)
    (sub : net.history ⊆ after.history)
    (readers : ∀ id connection, after.desk.manager.find? id = some connection →
      ∃ old, net.desk.manager.find? id = some old ∧ connection.reader = old.reader)
    (notices : ∀ id message, .received id message ∈ after.desk.notices →
      .received id message ∈ net.desk.notices)
    (queued : ∀ id request, .handleRequest id request ∈ after.hall.pending →
      Called after.history id request)
    (dispatched : ∀ id request responses, .dispatched id request responses ∈ after.history →
      Called after.history id request) : after.Faithful := by
  refine ⟨fun peer mem => ?_, fun id message mem => ?_, queued, dispatched⟩
  · obtain ⟨old, known, id, stage, toServer, calls⟩ := peers peer mem
    have kept := (faithful.speaks old known).keep sub (readers old.id)
    refine kept.post id toServer (List.Subset.refl _) (calls ▸ kept.calls) fun bytes own => ?_
    exact ⟨bytes, [], stage ▸ own, by simp, List.forall_mem_nil _⟩
  · exact (faithful.noticed id message (notices id message mem)).mono sub

theorem Faithful.dial (faithful : net.Faithful) (sound : net.Sound maxFrame) (address : String)
    {username : String} {state : ω}
    (ordinary : Ordinary (net.dial address username state).history) :
    (net.dial address username state).Faithful := by
  have sub : net.history ⊆ (net.dial address username state).history :=
    List.subset_append_left _ _
  have old {id : ConnectionId} (less : id < net.desk.manager.nextId) :
      (net.desk.accept address).manager.find? id = net.desk.manager.find? id := by
    rw [Desk.connection_accept, if_neg (Nat.ne_of_gt less), Option.or_none]
  refine ⟨fun peer mem => ?_, fun id message mem => (faithful.noticed id message mem).mono sub,
    fun id request mem => (faithful.queued id request mem).mono sub,
    fun id request responses mem => ?_⟩
  · obtain mem | mem := List.mem_append.1 mem
    · refine (faithful.speaks peer mem).keep sub fun connection found => ⟨connection, ?_, rfl⟩
      rwa [← old (sound.ids peer mem)]
    · obtain rfl := List.mem_singleton.1 mem
      have said := ordinary.greetings net.desk.manager.nextId username
        (List.mem_append_right _ (List.mem_singleton_self _))
      refine ⟨fun connection found => ?_, nofun⟩
      have new : (net.desk.accept address).manager.find? net.desk.manager.nextId =
          some { id := net.desk.manager.nextId,
                 reader := { limit := net.desk.manager.limit } } := by
        rw [Desk.connection_accept, sound.noConnection _ (Nat.le_refl _), if_pos rfl]
        rfl
      obtain rfl := Option.some.inj (new.symm.trans found)
      refine ⟨[], [Logon.greeting username], ⟨by simp, ?_⟩, ?_, ?_⟩
      · exact List.forall_mem_singleton.2 said
      · exact List.forall_mem_singleton.2 nofun
      · exact fun bytes same => Option.some.inj same
  · obtain mem | mem := List.mem_append.1 mem
    · exact (faithful.dispatched id request responses mem).mono sub
    · cases List.mem_singleton.1 mem

theorem Faithful.serverReads (faithful : net.Faithful) (id : ConnectionId) (lull : Lull)
    (arrivals : List Arrival) : (net.serverReads id lull arrivals).Faithful := by
  unfold Network.serverReads
  split
  · rename_i peer connection known found
    have whole := carried_turn lull peer.toServer arrivals
    have settled := settled_turn lull peer.toServer arrivals
    rcases turned : turn lull peer.toServer arrivals with ⟨answers, toServer⟩
    rw [turned] at whole settled
    dsimp only at whole settled ⊢
    rcases reading : connection.readMessages answers with ⟨outcome, next⟩
    have visited := net.desk.visited_read found reading
    have speaks := faithful.speaks peer (List.mem_of_find?_eq_some known)
    have own := id_of_find? known
    obtain ⟨tail, messages, awaits, good, rest⟩ := speaks.stream connection (own ▸ found)
    rw [← whole, List.append_assoc] at awaits
    obtain ⟨-, later, lost, rfl, awaits', kept⟩ :=
      Connection.readMessages_of_awaits settled awaits reading
    have history : (net.onPeer id fun peer => ([], { peer with toServer })).history =
        net.history := history_onPeer fun _ => rfl
    refine ⟨fun p mem => ?_, fun id' message mem => ?_, ?_, ?_⟩
    all_goals
      dsimp only
      rw [history]
    · obtain ⟨peer', known', rfl⟩ | ⟨mem, apart⟩ := of_mem_onPeer mem
      · obtain rfl := Option.some.inj (known.symm.trans known')
        refine ⟨fun connection' found' => ?_, speaks.calls⟩
        obtain ⟨rfl, open', fine⟩ := visited.own connection' (own ▸ found')
        rw [kept open' fine, List.nil_append] at awaits'
        exact ⟨tail, later, awaits', fun message mem =>
          good message (List.mem_append_right _ mem), rest⟩
      · exact (faithful.speaks p mem).keep (List.Subset.refl _) fun c found =>
          visited.others p.id c apart found
    · obtain ⟨more, notices, fine⟩ := visited.notices
      dsimp only at mem
      rw [notices] at mem
      obtain mem | mem := List.mem_append.1 mem
      · exact faithful.noticed id' message mem
      · obtain same | ⟨m, mem, same⟩ := fine _ mem
        · cases same
        · cases same
          exact own ▸ good message (List.mem_append_left later mem)
    · rw [hall_onPeer]
      exact faithful.queued
    · exact faithful.dispatched
  · exact faithful

theorem received_mem {id id' : ConnectionId} {message : Message} {before more after : List Notice}
    (notices : after = before ++ more) (closed : ∀ notice ∈ more, notice = .closed id')
    (mem : .received id message ∈ after) : .received id message ∈ before := by
  rw [notices] at mem
  obtain mem | mem := List.mem_append.1 mem
  · exact mem
  · cases closed _ mem

theorem Faithful.serverWrites (faithful : net.Faithful) (id : ConnectionId)
    (answers : List WriteAnswer) : (net.serverWrites id answers).Faithful := by
  unfold Network.serverWrites
  rcases flush : net.desk.flush id answers with ⟨written, desk⟩
  have flushed := net.desk.flushed_flush id answers
  rw [flush] at flushed
  obtain ⟨more, notices, closed⟩ := flushed.notices
  have history : (net.onPeer id fun peer =>
      ([], { peer with toClient := peer.toClient ++ written })).history = net.history :=
    history_onPeer fun _ => rfl
  dsimp only
  refine faithful.inward (fun p mem => ?_) prefix_onPeer.subset flushed.manager.readers
    (fun _ _ mem => received_mem notices closed mem) ?_ ?_
  · obtain ⟨peer, found, rfl⟩ | ⟨mem, -⟩ := of_mem_onPeer mem
    · exact ⟨peer, List.mem_of_find?_eq_some found, rfl, rfl, rfl, rfl⟩
    · exact ⟨p, mem, rfl, rfl, rfl, rfl⟩
  · dsimp only
    rw [hall_onPeer, history]
    exact faithful.queued
  · dsimp only
    rw [history]
    exact faithful.dispatched

theorem Faithful.serverCloses (faithful : net.Faithful) (id : ConnectionId) :
    { net with desk := net.desk.close id }.Faithful := by
  obtain ⟨kept, -, -, more, notices, closed⟩ := net.desk.close_spec id (P := fun _ _ => True)
  exact faithful.inward (fun peer mem => ⟨peer, mem, rfl, rfl, rfl, rfl⟩) (List.Subset.refl _)
    kept.readers (fun _ _ mem => received_mem notices closed mem) faithful.queued
    faithful.dispatched

theorem mem_pending_notify {hall : Server.Hall τ α} {notices : List Notice}
    {id : ConnectionId} {request : Request}
    (mem : .handleRequest id request ∈ (Server.Host.notify hall notices).pending) :
    .handleRequest id request ∈ hall.pending ∨ .received id (.invocation request) ∈ notices := by
  induction notices generalizing hall with
  | nil => exact .inl mem
  | cons notice rest ih =>
    cases notice with
    | received connection message =>
      obtain mem | mem := ih mem
      · unfold Server.Hall.receive at mem
        split at mem
        · rename_i command asked
          obtain mem | rfl := ActionQueue.of_mem_enqueue mem
          · exact .inl mem
          · cases message <;> cases asked
            exact .inr List.mem_cons_self
        · exact .inl mem
      · exact .inr (List.mem_cons_of_mem _ mem)
    | closed connection =>
      obtain mem | mem := ih mem
      · obtain mem | same := ActionQueue.of_mem_enqueue mem
        · exact .inl mem
        · cases same
      · exact .inr (List.mem_cons_of_mem _ mem)

theorem Faithful.notify (faithful : net.Faithful) : net.notify.Faithful := by
  unfold Network.notify
  split
  · exact faithful
  · rename_i notice rest notices
    refine faithful.inward (fun peer mem => ⟨peer, mem, rfl, rfl, rfl, rfl⟩)
      (List.Subset.refl _) (fun _ c found => ⟨c, found, rfl⟩)
      (fun id message mem => notices ▸ List.mem_cons_of_mem notice mem) (fun id request mem => ?_)
      faithful.dispatched
    obtain mem | mem := mem_pending_notify mem
    · exact faithful.queued id request mem
    · obtain rfl := List.mem_singleton.1 mem
      exact faithful.noticed id _ (notices ▸ List.mem_cons_self) request rfl

theorem Faithful.serve (faithful : net.Faithful) : net.serve.Faithful := by
  cases next : net.hall.pending with
  | nil => rwa [serve_of_idle next]
  | cons command rest =>
    have sub : net.history ⊆ net.history ++ serverEvents net.server command :=
      List.subset_append_left _ _
    have called (id : ConnectionId) (request : Request)
        (mem : .handleRequest id request ∈ command :: rest) :
        Called (net.history ++ serverEvents net.server command) id request :=
      (faithful.queued id request (next ▸ mem)).mono sub
    rw [serve_of_pending next]
    refine faithful.inward (fun peer mem => ⟨peer, mem, rfl, rfl, rfl, rfl⟩) sub
      (fun _ c found => ⟨c, found, rfl⟩) (fun _ _ mem => mem)
      (fun id request mem => called id request (List.mem_cons_of_mem _ mem))
      fun id request responses mem => ?_
    obtain mem | mem := List.mem_append.1 mem
    · exact (faithful.dispatched id request responses mem).mono sub
    · cases command with
      | handleRequest connection asked =>
        obtain ⟨rfl, rfl, -⟩ := Event.dispatched.inj (List.mem_singleton.1 mem)
        exact called _ _ List.mem_cons_self
      | _ =>
        obtain ⟨_, _, same⟩ := List.mem_map.1 mem
        cases same

theorem unwritten_of_moved {state : ω} {before after : Stage κ ν ω}
    (moved : before.Moved state after) {bytes : Bytes} (own : after.unwritten = some bytes) :
    before.unwritten = some bytes := by
  cases before with
  | joining reader =>
    cases after with
    | joining reader' => exact own
    | failed error => cases own
    | joined client =>
      obtain ⟨writing, unsent, context⟩ := moved
      simpa [Stage.unwritten, Client.desk, writing, unsent, context] using own
  | joined client =>
    cases after with
    | joined client' =>
      obtain ⟨-, writing, unsent, context⟩ := moved
      simpa [Stage.unwritten, Client.desk, writing, unsent, context] using own
    | _ => cases moved
  | failed error =>
    obtain ⟨error', rfl⟩ := moved
    cases own

theorem Faithful.clientReads (faithful : net.Faithful) (id : ConnectionId) (lull : Lull)
    (arrivals : List Arrival) : (net.clientReads id lull arrivals).Faithful := by
  refine faithful.onPeer (fun _ _ mem => nomatch mem) fun peer mem _ _ speaks => ?_
  have moved := peer.moved_read lull arrivals
  have sub : net.history ⊆ net.history ++ [] := List.subset_append_left _ _
  refine speaks.post moved.id moved.toServer sub ?_ fun bytes own => ?_
  · rw [moved.calls]
    exact fun request tokens mem => (speaks.calls request tokens mem).mono sub
  · exact ⟨bytes, [], unwritten_of_moved moved.stage own, by simp, List.forall_mem_nil _⟩

theorem Faithful.onJoined (faithful : net.Faithful) {id : ConnectionId}
    {work : Client κ ν ω → Peer κ ν ω → List (Client.Deed κ) × Peer κ ν ω}
    (own : ∀ client, ∀ peer ∈ net.peers, peer.id = id → peer.stage = .joined client →
      (net.onJoined id work).history = net.history ++ (work client peer).1.map (.did id) →
      peer.Speaks net.desk.manager net.history →
      (work client peer).2.Speaks net.desk.manager
        (net.history ++ (work client peer).1.map (.did id))) :
    (net.onJoined id work).Faithful := by
  refine faithful.onPeer (fun peer event mem => ?_) fun peer mem here history speaks => ?_
  all_goals obtain ⟨client, stage, acted⟩ | idle := whenJoined_cases id peer work
  · rw [acted] at mem
    obtain ⟨deed, -, rfl⟩ := List.mem_map.1 mem
    exact ⟨deed, rfl⟩
  · rw [idle] at mem
    cases mem
  · rw [acted] at history ⊢
    exact own client peer mem here stage history speaks
  · rw [idle]
    exact speaks.keep (List.subset_append_left _ _) fun c h => ⟨c, h, rfl⟩

theorem Faithful.clientWrites (faithful : net.Faithful) (id : ConnectionId)
    (answers : List WriteAnswer) : (net.clientWrites id answers).Faithful := by
  refine faithful.onJoined fun client peer _ _ stage _ speaks => ?_
  have kept := speaks.keep (List.subset_append_left net.history []) fun c h => ⟨c, h, rfl⟩
  have wrote := client.wrote_write answers
  dsimp only
  cases writing : client.writing with
  | true =>
    obtain ⟨tail', whole, left⟩ := wrote.bytes
    refine ⟨fun connection found => ?_, kept.calls⟩
    obtain ⟨tail, messages, awaits, good, rest⟩ := kept.stream connection found
    obtain rfl := rest _ (by rw [stage, Stage.unwritten, if_pos writing])
    rw [← whole, ← List.append_assoc] at awaits
    refine ⟨tail', messages, awaits, good, fun bytes own => ?_⟩
    cases on : (client.write answers).2.writing with
    | true =>
      rw [left on]
      simpa [Stage.unwritten, on] using own
    | false => simp [Stage.unwritten, on] at own
  | false =>
    obtain ⟨none, still⟩ := wrote.stopped writing
    have same : peer = { peer with stage := .joined client, toServer := peer.toServer ++ [] } := by
      rw [List.append_nil, ← stage]
    rw [none, still, ← same]
    exact kept

theorem Faithful.onClient (faithful : net.Faithful) {id : ConnectionId}
    {work : Client κ ν ω → List (Client.Deed κ) × Client κ ν ω}
    (ordinary : Ordinary (net.onClient id work).history)
    (posts : ∀ client, Ordinary (net.history ++ (work client).1.map (.did id)) →
      (work client).2.writing = true →
      client.writing = true ∧ (work client).2.unsent = client.unsent ∧
      ∃ posted, (work client).2.desk.outgoing.messages =
        client.desk.outgoing.messages ++ posted ∧
      ∀ message ∈ posted, message.Framable ∧
        Said (net.history ++ (work client).1.map (.did id)) id message) :
    (net.onClient id work).Faithful := by
  refine faithful.onJoined fun client peer _ own stage history speaks => ?_
  unfold Network.onClient at ordinary
  rw [history] at ordinary
  have sub : net.history ⊆ net.history ++ (work client).1.map (.did id) :=
    List.subset_append_left _ _
  exact Peer.Speaks.joined stage _ _ speaks sub (own ▸ posts client ordinary)
    fun request tokens mem => (speaks.calls request tokens mem).mono sub

theorem Faithful.clientRuns (faithful : net.Faithful) (lawful : code.Lawful) {id : ConnectionId}
    (ordinary : Ordinary (net.onClient id (runOne code)).history) :
    (net.onClient id (runOne code)).Faithful := by
  refine faithful.onClient ordinary fun client => ?_
  cases next : client.queue.pending with
  | nil =>
    rw [runOne_of_idle code next]
    exact fun _ on => ⟨on, rfl, [], by simp, List.forall_mem_nil _⟩
  | cons command rest =>
    rw [runOne_of_pending code next]
    have acted := client.queue.context.acted_perform lawful command
    exact fun ordinary on => ⟨on, rfl, said_of_acted acted ordinary⟩

theorem Faithful.begin (faithful : net.Faithful) (id : ConnectionId) (call : Call κ) :
    (net.begin id call).Faithful := by
  refine faithful.onJoined fun client peer _ own stage _ speaks => ?_
  dsimp only
  have sub : net.history ⊆ net.history ++ (client.desk.callDeeds call).map (.did id) :=
    List.subset_append_left _ _
  refine Peer.Speaks.joined stage
    (client.setDesk { client.desk with director := (client.desk.director.begin call).2 })
    (peer.calls ++ (client.desk.director.begin call).1.toOption.toList) speaks sub
    (fun on => ⟨on, rfl, [], (List.append_nil _).symm, List.forall_mem_nil _⟩)
    fun request tokens mem => ?_
  obtain mem | mem := List.mem_append.1 mem
  · exact (speaks.calls request tokens mem).mono sub
  · refine ⟨call, tokens, List.mem_append_right _ (own ▸ List.mem_map_of_mem ?_)⟩
    unfold Client.Desk.callDeeds
    rcases begun : client.desk.director.begin call with ⟨result, director⟩
    rw [begun] at mem
    cases result with
    | error _ => cases mem
    | ok made =>
      obtain rfl := Option.some.inj (Option.mem_toList.1 mem)
      exact List.mem_singleton_self _

theorem Faithful.conclude (faithful : net.Faithful) (ordinary : Ordinary net.history)
    (id : ConnectionId) (index : Nat) : (net.conclude id index).Faithful := by
  refine faithful.onJoined fun client peer _ own stage _ speaks => ?_
  dsimp only
  split
  · rename_i request tokens held
    have sub : net.history ⊆ net.history ++ [] := List.subset_append_left _ _
    obtain ⟨-, posted, messages, good⟩ := client.desk.conclude_spec request tokens
    refine Peer.Speaks.joined stage (client.setDesk (client.desk.conclude request tokens).2)
      (peer.calls.eraseIdx index) speaks sub
      (fun on => ⟨on, rfl, posted, messages, fun message mem => ?_⟩) fun request tokens mem =>
      (speaks.calls request tokens (List.mem_of_mem_eraseIdx mem)).mono sub
    obtain rfl := good message mem
    have called := speaks.calls request tokens (List.mem_of_getElem? held)
    obtain ⟨call, made, begun⟩ := called
    refine ⟨(ordinary.calls peer.id call request made begun).2, fun request' same => ?_⟩
    cases same
    exact ⟨call, made, sub begun⟩
  · exact speaks.keep (List.subset_append_left _ _) fun c h => ⟨c, h, rfl⟩

theorem Faithful.remark (faithful : net.Faithful) {id : ConnectionId} {message : Message}
    (ordinary : Ordinary (net.onClient id fun client => ([], (client.post message).2)).history)
    (small : message.Framable) (remark : ∀ request, message ≠ .invocation request) :
    (net.onClient id fun client => ([], (client.post message).2)).Faithful := by
  refine faithful.onClient ordinary fun client _ on => ⟨on, rfl, ?_⟩
  obtain ⟨posted, messages, good⟩ := client.desk.outgoing.messages_post message
  refine ⟨posted, messages, fun m mem => ?_⟩
  obtain rfl := good m mem
  exact ⟨small, fun request same => (remark request same).elim⟩

theorem Faithful.perform (faithful : net.Faithful) (sound : net.Sound maxFrame)
    (lawful : code.Lawful) {action : Action κ ν ω}
    (ordinary : Ordinary (net.perform code action).history) :
    (net.perform code action).Faithful := by
  cases action with
  | dial address username state => exact faithful.dial sound address ordinary
  | serverReads id lull arrivals => exact faithful.serverReads id lull arrivals
  | serverWrites id answers => exact faithful.serverWrites id answers
  | serverCloses id => exact faithful.serverCloses id
  | notify => exact faithful.notify
  | serve => exact faithful.serve
  | wait milliseconds =>
    exact ⟨faithful.speaks, faithful.noticed, faithful.queued, faithful.dispatched⟩
  | stopServing =>
    exact ⟨faithful.speaks, faithful.noticed, faithful.queued, faithful.dispatched⟩
  | clientReads id lull arrivals => exact faithful.clientReads id lull arrivals
  | clientWrites id answers => exact faithful.clientWrites id answers
  | clientRuns id => exact faithful.clientRuns lawful ordinary
  | begin id call => exact faithful.begin id call
  | conclude id index => exact faithful.conclude (ordinary.mono prefix_onPeer.subset) id index
  | ping id time =>
    have small : (Message.ping time).Framable := by
      rw [Message.Framable, Message.encode, Message.write, Wire.length_writeWord,
        Wire.length_writeWord]
      decide
    exact faithful.remark ordinary small fun _ same => by cases same
  | logoff id => exact faithful.remark ordinary (by decide) fun _ same => by cases same
  | duplicate id response =>
    rw [Network.perform] at ordinary ⊢
    split
    · rename_i posted
      rw [if_pos posted] at ordinary
      refine faithful.onClient ordinary fun client ordinary on => ⟨on, rfl, ?_⟩
      exact said_of_acted (client.desk.acted_dispatch lawful response) ordinary
    · exact faithful
  | stopWriting id =>
    exact faithful.onClient ordinary fun client _ on => absurd on Bool.false_ne_true
  | observe id name =>
    refine faithful.onClient ordinary fun client _ on =>
      ⟨on, rfl, [], ?_, List.forall_mem_nil _⟩
    rw [List.append_nil]
    exact congrArg (·.desk.outgoing.messages) (client.queue.context_enqueue (.addObserver name))
  | stopQueue id =>
    refine faithful.onClient ordinary fun client _ on =>
      ⟨on, rfl, [], ?_, List.forall_mem_nil _⟩
    exact (List.append_nil _).symm

end Parley.Network
