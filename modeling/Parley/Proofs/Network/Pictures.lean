import Parley.Proofs.Client.Objects
import Parley.Proofs.Network.Order
import Parley.Proofs.Server.Traffic

/-! What a client of a network says, and what it knows.
A client says its name once, before anything else. Under the oid of its welcome it keeps a picture
of the objects, and there is nothing in it but what the events tell that it has run. -/

namespace Parley

def Message.isLogon : Message → Bool
  | .logon _ _ => true
  | _ => false

namespace Network

open Client (Code Command Logon depicted isWelcome)
open Connection (Arrival Lull settled_turn turn carried_turn)

variable {maxFrame : Nat} {net : Network τ α κ ν ω} {code : Code κ ν ω} {id : ConnectionId}
  {action : Action κ ν ω} {peer before after : Peer κ ν ω} {client client' : Client κ ν ω}
  {ran : List (Command ν)}

/-- How a client comes further in a step in which it runs the commands. -/
structure Peer.Goes (ran : List (Command ν)) (before after : Peer κ ν ω) : Prop where
  idle : (∀ client, before.stage ≠ .joined client) → ran = []
  plain : ∀ message ∈ after.stage.outgoing.drop before.stage.outgoing.length,
    message.isLogon = false
  stays : ∀ client, before.stage = .joined client → ∃ client', after.stage = .joined client' ∧
    client'.oid = client.oid ∧ client'.queue.context.objects =
      ran.foldl (fun objects command => command.note objects) client.queue.context.objects
  enters : ∀ client', after.stage = .joined client' → (∃ client, before.stage = .joined client) ∨
    ∃ reader lull arrivals, before.stage = .joining reader ∧ after = before.read lull arrivals

theorem Peer.goes_nowhere (stage : after.stage = before.stage) :
    before.Goes ([] : List (Command ν)) after := by
  refine ⟨fun _ => rfl, fun message mem => ?_,
    fun client joined => ⟨client, stage.trans joined, rfl, rfl⟩,
    fun client joined => .inl ⟨client, stage ▸ joined⟩⟩
  rw [stage, List.drop_length] at mem
  cases mem

theorem Peer.goes_read (peer : Peer κ ν ω) (lull : Lull) (arrivals : List Arrival) :
    peer.Goes ([] : List (Command ν)) (peer.read lull arrivals) := by
  have moved := (peer.moved_read lull arrivals).stage
  refine ⟨fun _ => rfl, fun message mem => ?_, fun client joined => ?_, fun client' joined => ?_⟩
  · rw [drop_outgoing_of_moved moved] at mem
    cases mem
  · rw [joined] at moved
    cases reached : (peer.read lull arrivals).stage with
    | joined client' =>
      rw [reached] at moved
      obtain ⟨oid, -, -, context⟩ := moved
      exact ⟨client', rfl, oid, congrArg (·.objects) context⟩
    | joining reader =>
      rw [reached] at moved
      exact moved.elim
    | failed error =>
      rw [reached] at moved
      exact moved.elim
  · cases stage : peer.stage with
    | joining reader => exact .inr ⟨reader, lull, arrivals, rfl, rfl⟩
    | joined client => exact .inl ⟨client, rfl⟩
    | failed error =>
      rw [stage, joined] at moved
      obtain ⟨error', same⟩ := moved
      cases same

theorem Peer.goes_joined (stage : before.stage = .joined client)
    (stage' : after.stage = .joined client') (oid : client'.oid = client.oid)
    (objects : client'.queue.context.objects =
      ran.foldl (fun objects command => command.note objects) client.queue.context.objects)
    (plain : ∀ message ∈ client'.desk.outgoing.messages.drop client.desk.outgoing.messages.length,
      message.isLogon = false) : before.Goes ran after := by
  refine ⟨fun stranger => (stranger client stage).elim, ?_, fun known joined => ?_,
    fun _ _ => .inl ⟨client, stage⟩⟩
  · rw [stage, stage']
    exact plain
  · obtain rfl := Stage.joined.inj (stage.symm.trans joined)
    exact ⟨client', stage', oid, objects⟩

theorem notLogon_of_asked (asked : client.desk.Asked client'.desk) :
    ∀ message ∈ client'.desk.outgoing.messages.drop client.desk.outgoing.messages.length,
      message.isLogon = false := by
  obtain ⟨posted, messages, good⟩ := asked
  rw [messages, List.drop_left]
  intro message mem
  obtain ⟨request, rfl⟩ := good message mem
  rfl

def Goes (code : Code κ ν ω) (net : Network τ α κ ν ω) (action : Action κ ν ω) : Prop :=
  ∀ id peer', (net.perform code action).peer? id = some peer' →
    ∃ peer, net.peer? id = some peer ∧ peer.Goes ((net.entry code action).ran id) peer'

theorem goes_of_peers (peers : ∀ id, ∃ f : Peer κ ν ω → Peer κ ν ω,
      (net.perform code action).peer? id = (net.peer? id).map f ∧
        ∀ peer, (f peer).stage = peer.stage)
    (ran : ∀ id, (net.entry code action).ran id = []) : net.Goes code action := by
  intro id peer' found
  obtain ⟨f, same, kept⟩ := peers id
  rw [same] at found
  obtain ⟨peer, known, rfl⟩ := Option.map_eq_some_iff.1 found
  exact ⟨peer, known, ran id ▸ Peer.goes_nowhere (kept peer)⟩

theorem goes_onPeer {work : Peer κ ν ω → List (Event κ) × Peer κ ν ω}
    (performs : net.perform code action = net.onPeer id work)
    (same : ∀ peer, (work peer).2.id = peer.id)
    (ran : ∀ other, other ≠ id → (net.entry code action).ran other = [])
    (own : ∀ peer, net.peer? id = some peer →
      peer.Goes ((net.entry code action).ran id) (work peer).2) : net.Goes code action := by
  intro other peer' found
  rw [performs, peer?_onPeer same] at found
  obtain ⟨peer, known, rfl⟩ := Option.map_eq_some_iff.1 found
  refine ⟨peer, known, ?_⟩
  by_cases here : other = id
  · subst here
    rw [if_pos rfl]
    exact own peer known
  · rw [if_neg here, ran other here]
    exact Peer.goes_nowhere rfl

theorem goes_onJoined {work : Client κ ν ω → Peer κ ν ω → List (Client.Deed κ) × Peer κ ν ω}
    (performs : net.perform code action = net.onJoined id work)
    (same : ∀ client peer, (work client peer).2.id = peer.id)
    (ran : ∀ other, other ≠ id ∨ net.queued other = [] → (net.entry code action).ran other = [])
    (own : ∀ client peer, net.peer? id = some peer → peer.stage = .joined client →
      peer.Goes ((net.entry code action).ran id) (work client peer).2) : net.Goes code action := by
  refine goes_onPeer performs (fun peer => ?_) (fun other apart => ran other (.inl apart))
    fun peer known => ?_
  · obtain ⟨client, -, acted⟩ | idle := whenJoined_cases id peer work
    · rw [acted]
      exact same client peer
    · rw [idle]
  · by_cases logged : ∃ client, peer.stage = .joined client
    · obtain ⟨client, stage⟩ := logged
      rw [whenJoined_of_joined stage]
      exact own client peer known stage
    · have stage (client : Client κ ν ω) (same : peer.stage = .joined client) : False :=
        logged ⟨client, same⟩
      have idle : net.queued id = [] := by
        rw [queued, known]
        unfold Stage.queued
        cases away : peer.stage with
        | joined client => exact (stage client away).elim
        | _ => simp [away]
      rw [whenJoined_of_stranger stage, ran id (.inr idle)]
      exact Peer.goes_nowhere rfl

theorem goes_onClient {work : Client κ ν ω → List (Client.Deed κ) × Client κ ν ω}
    (performs : net.perform code action = net.onClient id work)
    (ran : ∀ other, (net.entry code action).ran other = [])
    (oid : ∀ client, (work client).2.oid = client.oid)
    (objects : ∀ client, (work client).2.queue.context.objects = client.queue.context.objects)
    (plain : ∀ client, ∀ message ∈ (work client).2.desk.outgoing.messages.drop
      client.desk.outgoing.messages.length, message.isLogon = false) : net.Goes code action := by
  refine goes_onJoined performs (fun _ _ => rfl) (fun other _ => ran other)
    fun client peer _ stage => ?_
  rw [ran]
  exact Peer.goes_joined stage rfl (oid client) (objects client) (plain client)

theorem goes_post {message : Message}
    (performs : net.perform code action =
      net.onClient id fun client => ([], (client.post message).2))
    (ran : ∀ other, (net.entry code action).ran other = []) (plain : message.isLogon = false) :
    net.Goes code action := by
  refine goes_onClient performs ran (fun _ => rfl) (fun _ => rfl) fun client => ?_
  obtain ⟨posted, messages, good⟩ := client.desk.outgoing.messages_post message
  have after : (client.post message).2.desk.outgoing.messages =
    client.desk.outgoing.messages ++ posted := messages
  rw [after, List.drop_left]
  exact fun m mem => good m mem ▸ plain

theorem goes_clientRuns (net : Network τ α κ ν ω) (id : ConnectionId) :
    net.Goes code (.clientRuns id) := by
  have performs : net.perform code (.clientRuns id) = net.onJoined id fun client peer =>
      ((runOne code client).1, { peer with stage := .joined (runOne code client).2 }) := rfl
  have ran (other : ConnectionId) : (net.entry code (.clientRuns id)).ran other =
      if other = id then (net.queued other).head?.toList else [] := rfl
  refine goes_onJoined performs (fun _ _ => rfl) (fun other stranger => ?_)
    fun client peer known stage => ?_
  · rw [ran]
    obtain apart | idle := stranger
    · exact if_neg apart
    · rw [idle]
      exact ite_self []
  · have queue : net.queued id = client.queue.pending := by
      rw [queued, known, Option.map_some, stage]
      rfl
    rw [ran, if_pos rfl, queue]
    cases next : client.queue.pending with
    | nil =>
      rw [runOne_of_idle code next]
      exact Peer.goes_nowhere stage.symm
    | cons command rest =>
      rw [runOne_of_pending code next]
      refine Peer.goes_joined stage rfl rfl ?_ (notLogon_of_asked ?_)
      · exact client.queue.context.objects_perform code command
      · exact client.queue.context.asked_perform code command

theorem goes_perform (net : Network τ α κ ν ω)
    (old : ∀ address username state, action ≠ .dial address username state) :
    net.Goes code action := by
  have silent (client : Client κ ν ω) : ∀ m ∈ client.desk.outgoing.messages.drop
      client.desk.outgoing.messages.length, m.isLogon = false := by simp
  cases action with
  | dial address username state => exact (old address username state rfl).elim
  | serverReads id lull arrivals =>
    refine goes_of_peers (fun other => ?_) fun _ => rfl
    unfold perform serverReads
    dsimp only
    split
    · exact ⟨_, peer?_onPeer (fun _ => rfl) other, fun peer => by split <;> rfl⟩
    · exact ⟨_, peer?_of_peers rfl other, fun _ => rfl⟩
  | serverWrites id answers =>
    refine goes_of_peers (fun other => ⟨_, peer?_onPeer (fun _ => rfl) other, fun peer => ?_⟩)
      fun _ => rfl
    split <;> rfl
  | serverCloses id =>
    exact goes_of_peers (fun other => ⟨_, peer?_of_peers rfl other, fun _ => rfl⟩) fun _ => rfl
  | notify =>
    refine goes_of_peers (fun other => ⟨_, peer?_of_peers ?_ other, fun _ => rfl⟩) fun _ => rfl
    unfold perform Network.notify
    dsimp only
    split <;> rfl
  | serve =>
    refine goes_of_peers (fun other => ⟨_, peer?_of_peers ?_ other, fun _ => rfl⟩) fun _ => rfl
    unfold perform
    dsimp only
    cases next : net.hall.pending with
    | nil => rw [serve_of_idle next]
    | cons command rest => rw [serve_of_pending next]
  | wait milliseconds =>
    exact goes_of_peers (fun other => ⟨_, peer?_of_peers rfl other, fun _ => rfl⟩) fun _ => rfl
  | stopServing =>
    exact goes_of_peers (fun other => ⟨_, peer?_of_peers rfl other, fun _ => rfl⟩) fun _ => rfl
  | clientReads id lull arrivals =>
    have performs : net.perform code (.clientReads id lull arrivals) =
      net.onPeer id fun peer => ([], peer.read lull arrivals) := rfl
    exact goes_onPeer performs (fun peer => (peer.moved_read lull arrivals).id) (fun _ _ => rfl)
      fun peer _ => peer.goes_read lull arrivals
  | clientWrites id answers =>
    refine goes_onJoined rfl (fun _ _ => rfl) (fun _ _ => rfl) fun client peer _ stage => ?_
    refine Peer.goes_joined stage rfl (client.wrote_write answers).oid
      (client.objects_write answers) fun message mem => ?_
    obtain none | same := client.messages_write answers
    · rw [none, List.drop_nil] at mem
      cases mem
    · rw [same, List.drop_length] at mem
      cases mem
  | clientRuns id => exact goes_clientRuns net id
  | begin id call =>
    refine goes_onJoined rfl (fun _ _ => rfl) (fun _ _ => rfl) fun client peer _ stage => ?_
    exact Peer.goes_joined stage rfl rfl rfl (silent client)
  | conclude id index =>
    refine goes_onJoined rfl (fun client peer => ?_) (fun _ _ => rfl) fun client peer _ stage => ?_
    · split <;> rfl
    · split
      · rename_i request tokens held
        obtain ⟨-, posted, messages, good⟩ := client.desk.conclude_spec request tokens
        have asked : client.desk.Asked (client.desk.conclude request tokens).2 :=
          ⟨posted, messages, fun message mem => ⟨request, good message mem⟩⟩
        exact Peer.goes_joined stage rfl rfl rfl (notLogon_of_asked asked)
      · exact Peer.goes_nowhere rfl
  | ping id time => exact goes_post rfl (fun _ => rfl) rfl
  | logoff id => exact goes_post rfl (fun _ => rfl) rfl
  | observe id name =>
    have performs : net.perform code (.observe id name) =
      net.onClient id fun client => ([], (client.enqueue (.addObserver name)).2) := rfl
    have context (client : Client κ ν ω) := client.queue.context_enqueue (.addObserver name)
    refine goes_onClient performs (fun _ => rfl) (fun _ => rfl) (fun client => ?_) fun client => ?_
    · exact congrArg (·.objects) (context client)
    · have same : (client.enqueue (.addObserver name)).2.desk = client.desk :=
        congrArg (·.desk) (context client)
      rw [same]
      exact silent client
  | duplicate id response =>
    by_cases known : response ∈ Network.posted net.history
    · have performs : net.perform code (.duplicate id response) = net.onClient id fun client =>
          (client.desk.dispatchDeeds code.listen response,
            client.setDesk (client.desk.dispatch code.listen response).2) := if_pos known
      exact goes_onClient performs (fun _ => rfl) (fun _ => rfl) (fun _ => rfl) fun client =>
        notLogon_of_asked (client.desk.asked_dispatch code.listen response)
    · have same : net.perform code (.duplicate id response) = net := if_neg known
      exact goes_of_peers (fun other => ⟨_, peer?_of_peers (congrArg (·.peers) same) other,
        fun _ => rfl⟩) fun _ => rfl
  | stopQueue id =>
    have performs : net.perform code (.stopQueue id) =
      net.onClient id fun client => ([], { client with queue := client.queue.shutdown }) := rfl
    exact goes_onClient performs (fun _ => rfl) (fun _ => rfl) (fun _ => rfl) silent
  | stopWriting id =>
    have performs : net.perform code (.stopWriting id) = net.onClient id fun client =>
      ([], { client with unsent := [], writing := false }.setDesk
        { client.desk with outgoing := { refusal := some .closed } }) := rfl
    refine goes_onClient performs (fun _ => rfl) (fun _ => rfl) (fun _ => rfl)
      fun client m mem => ?_
    exact absurd (List.mem_of_mem_drop mem) List.not_mem_nil

section Introductions

variable {journal : List (Entry ν)} {entry : Entry ν}

/-- No client says its name but first of all. -/
def Introduced (journal : List (Entry ν)) : Prop :=
  ∀ id, ∀ message ∈ (said id journal).tail, message.isLogon = false

theorem mem_tail_append {first second : List σ} {x : σ} (mem : x ∈ (first ++ second).tail) :
    x ∈ first.tail ∨ x ∈ second := by
  cases first with
  | nil => exact .inr (List.mem_of_mem_tail mem)
  | cons head rest => exact List.mem_append.1 mem

theorem mem_tail_filterMap {items : List σ} {f : σ → Option ρ} {x : ρ}
    (mem : x ∈ (items.filterMap f).tail) : ∃ item ∈ items.tail, f item = some x := by
  cases items with
  | nil => cases mem
  | cons head rest =>
    rw [List.filterMap_cons] at mem
    cases here : f head with
    | none =>
      rw [here] at mem
      exact List.mem_filterMap.1 (List.mem_of_mem_tail mem)
    | some y =>
      rw [here] at mem
      exact List.mem_filterMap.1 mem

theorem Introduced.perform (introduced : Introduced journal) (sound : net.Sound maxFrame)
    (requests : net.Requests journal) (action : Action κ ν ω) :
    Introduced (journal ++ [net.entry code action]) := by
  intro id message mem
  rw [said_append, said_singleton] at mem
  by_cases new : ∃ address username state, action = .dial address username state
  · obtain ⟨address, username, state, rfl⟩ := new
    have own : (net.entry code (.dial address username state)).said id =
      if id = net.desk.manager.nextId then [Logon.greeting username] else [] := rfl
    rw [own] at mem
    split at mem
    · rename_i here
      rw [(requests.strangers id (peer?_of_le sound (Nat.le_of_eq here.symm))).1] at mem
      cases mem
    · rw [List.append_nil] at mem
      exact introduced id message mem
  · have old (address username : String) (state : ω) : action ≠ .dial address username state :=
      fun same => new ⟨address, username, state, same⟩
    have own : (net.entry code action).said id = net.uttered (net.perform code action) id := by
      cases action with
      | dial address username state => exact (old address username state rfl).elim
      | _ => rfl
    obtain mem | mem := mem_tail_append mem
    · exact introduced id message mem
    · rw [own] at mem
      cases found : (net.perform code action).peer? id with
      | none =>
        rw [uttered_of_none found] at mem
        cases mem
      | some peer' =>
        obtain ⟨peer, known, goes⟩ := goes_perform net old id peer' found
        rw [uttered_of_peer? known found] at mem
        exact goes.plain message mem

/-- A client that logs on has asked for nothing before. -/
theorem Introduced.first (introduced : Introduced (journal ++ [entry]))
    (requests : net.Requests (journal ++ [entry]))
    (small : ∀ message ∈ said id (journal ++ [entry]), message.Framable) {version : UInt32}
    {username : String} (served : entry.served = some (.startSession id version username)) :
    dealt id journal = [] := by
  have begins := requests.dealt small
  have own : dealt id [entry] = [.startSession id version username] := by
    simp [dealt, served, Server.Command.isFrom]
  rw [dealt_append, own] at begins
  cases past : dealt id journal with
  | nil => rfl
  | cons command rest =>
    rw [past] at begins
    obtain ⟨later, whole⟩ := begins
    have behind : .startSession id version username ∈
        ((said id (journal ++ [entry])).filterMap (Server.command? id)).tail := by
      rw [← whole]
      simp
    obtain ⟨message, mem, asked⟩ := mem_tail_filterMap behind
    have plain := introduced id message mem
    cases message <;> cases asked
    cases plain

end Introductions

section Depictions

variable {outboxes : Outboxes} {spoken posted : List Message} {journal : List (Entry ν)}

def welcomed? (messages : List Message) : Option Oid := messages.findSome? Message.welcome?

theorem welcomed?_append {messages : List Message} {oid : Oid}
    (welcome : welcomed? messages = some oid) (more : List Message) :
    welcomed? (messages ++ more) = some oid := by
  rw [welcomed?, List.findSome?_append, ← welcomed?, welcome]
  rfl

theorem welcomed?_eq_none {messages : List Message}
    (skipped : ∀ message ∈ messages, isWelcome message = false) : welcomed? messages = none := by
  refine List.findSome?_eq_none_iff.2 fun message mem => ?_
  have passed := skipped message mem
  cases message <;> first | rfl | cases passed

theorem Peer.welcomed_read {reader : Wire.FrameReader} (stage : peer.stage = .joining reader)
    (receives : peer.Receives outboxes id spoken posted ran) {lull : Lull} {arrivals : List Arrival}
    (entered : (peer.read lull arrivals).stage = .joined client) :
    welcomed? posted = some client.oid ∧ client.queue.context.objects = [] := by
  have moved := (peer.moved_read lull arrivals).stage
  rw [stage, entered] at moved
  refine ⟨?_, congrArg (·.objects) moved.2.2⟩
  have whole := carried_turn lull peer.toClient arrivals
  have settled := settled_turn lull peer.toClient arrivals
  unfold Peer.Receives at receives
  rw [stage] at receives
  obtain ⟨-, -, passed, later, rfl, skipped, box, -, awaits⟩ := receives
  unfold Peer.read at entered
  rcases turned : turn lull peer.toClient arrivals with ⟨answers, toClient⟩
  rw [turned] at whole settled entered
  rw [← whole, List.append_assoc] at awaits
  rcases proceeded : Logon.proceed reader answers with ⟨logon, left⟩
  have reached := Logon.reached_proceed settled awaits proceeded
  dsimp only at entered
  rw [stage] at entered
  dsimp only at entered
  rw [proceeded] at entered
  cases logon with
  | waiting next => cases entered
  | failed error => cases entered
  | welcome oid services next =>
    obtain ⟨-, -, more, later, rfl, skipped', -⟩ := reached
    obtain rfl := Stage.joined.inj entered
    have silent : welcomed? (passed ++ more) = none := welcomed?_eq_none fun message mem =>
      (List.mem_append.1 mem).elim (skipped message) (skipped' message)
    rw [← List.append_assoc, welcomed?, List.findSome?_append, ← welcomed?, silent]
    have oid := (Client.new oid services next peer.state : Client κ ν ω).kept_read left
    exact congrArg some oid.oid.symm

/-- Clients that are logged on go by the oid of their welcome, and know what they have run. -/
def Depicts (journal : List (Entry ν)) (net : Network τ α κ ν ω) : Prop :=
  ∀ id peer client, net.peer? id = some peer → peer.stage = .joined client →
    welcomed? (sent id journal) = some client.oid ∧
    client.queue.context.objects = depicted (Network.ran id journal)

theorem Depicts.perform (depicts : net.Depicts journal) (delivers : net.Delivers journal)
    (action : Action κ ν ω) :
    (net.perform code action).Depicts (journal ++ [net.entry code action]) := by
  intro id peer' client' found joined
  rw [sent_append, ran_append, ran_singleton]
  by_cases new : ∃ address username state, action = .dial address username state
  · obtain ⟨address, username, state, rfl⟩ := new
    rw [Network.perform, peer?_dial] at found
    have still : (net.entry code (.dial address username state)).ran id = [] := rfl
    obtain known | ⟨-, stranger⟩ := Option.or_eq_some_iff.1 found
    · obtain ⟨welcome, objects⟩ := depicts id peer' client' known joined
      rw [still, List.append_nil]
      exact ⟨welcomed?_append welcome _, objects⟩
    · split at stranger <;> cases stranger
      cases joined
  · have old (address username : String) (state : ω) : action ≠ .dial address username state :=
      fun same => new ⟨address, username, state, same⟩
    obtain ⟨peer, known, goes⟩ := goes_perform net old id peer' found
    obtain ⟨client, stage⟩ | ⟨reader, lull, arrivals, stage, rfl⟩ := goes.enters client' joined
    · obtain ⟨welcome, objects⟩ := depicts id peer client known stage
      obtain ⟨next, same, oid, seen⟩ := goes.stays client stage
      obtain rfl := Stage.joined.inj (same.symm.trans joined)
      refine ⟨oid ▸ welcomed?_append welcome _, ?_⟩
      rw [seen, objects, depicted, depicted, List.foldl_append]
    · have receives := delivers.receives id peer known
      have idle := goes.idle fun client same => by cases stage.symm.trans same
      obtain ⟨welcome, objects⟩ := Peer.welcomed_read stage receives joined
      unfold Peer.Receives at receives
      rw [stage] at receives
      rw [idle, List.append_nil, receives.1]
      exact ⟨welcomed?_append welcome _, objects⟩

end Depictions

end Network

end Parley
