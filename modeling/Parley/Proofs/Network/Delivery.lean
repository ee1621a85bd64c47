import Parley.Proofs.Network.Journal

/-! What a client has of the messages that were posted to it.
Since it was let in, everything that the server has posted to a client was run, waits in the
client's queue or is on its way, in this order, as long as the client reads on. -/

namespace Parley.Network

open Client (Command Deed Logon isWelcome)
open Connection (Arrival Lull ReadAnswer Settled WriteAnswer carried carried_turn settled_turn turn)
open Wire (Bytes FrameReader frames)

/-- The frames of the messages are on their way to the reader, and the last of them are in the
outbox. -/
def OnWay (outboxes : Outboxes) (id : ConnectionId) (toClient : Bytes) (reader : FrameReader)
    (messages : List Message) : Prop :=
  ∃ box, outboxes.find? id = some box ∧ reader.Awaits (toClient ++ box.buffer) messages

/-- What a client has of what was sent to it, after it has said and run what it has. -/
def Peer.Receives (outboxes : Outboxes) (id : ConnectionId) (said sent : List Message)
    (ran : List (Command ν)) (peer : Peer κ ν ω) : Prop :=
  match peer.stage with
  | .joining reader => ran = [] ∧ (∀ request, .invocation request ∉ said) ∧
    ∃ passed later, sent = passed ++ later ∧ (∀ message ∈ passed, isWelcome message = false) ∧
      OnWay outboxes id peer.toClient reader later
  | .joined client => (∃ message ∈ sent, isWelcome message = true) ∧
    ∃ taken later, sinceWelcome sent = taken ++ later ∧
      (ran ++ client.queue.pending).filter (·.isNews) = taken.filterMap Client.command? ∧
      (client.reading = true → OnWay outboxes id peer.toClient client.reader later)
  | .failed _ => ran = [] ∧ ∀ request, .invocation request ∉ said

/-- All clients receive what the journal says was sent to them. -/
structure Delivers (journal : List (Entry ν)) (net : Network τ α κ ν ω) : Prop where
  receives : ∀ id peer, net.peer? id = some peer →
    peer.Receives net.desk.outboxes id (said id journal) (sent id journal) (ran id journal)
  strangers : ∀ id, net.peer? id = none → said id journal = [] ∧ ran id journal = []
  fresh : ∀ id, net.desk.manager.nextId ≤ id → sent id journal = []

variable {maxFrame : Nat} {outboxes outboxes' : Outboxes} {id : ConnectionId}
  {said said' sent posted : List Message} {peer peer' : Peer κ ν ω}
  {net after : Network τ α κ ν ω} {code : Client.Code κ ν ω}

theorem OnWay.carry {toClient toClient' : Bytes} {reader : FrameReader} {messages : List Message}
    (onWay : OnWay outboxes id toClient reader messages)
    (route : ∀ box, outboxes.find? id = some box → ∃ box', outboxes'.find? id = some box' ∧
      toClient' ++ box'.buffer = toClient ++ box.buffer ++ frames posted)
    (small : ∀ message ∈ posted, message.Framable) :
    OnWay outboxes' id toClient' reader (messages ++ posted) := by
  obtain ⟨box, found, awaits⟩ := onWay
  obtain ⟨box', found', moved⟩ := route box found
  refine ⟨box', found', ?_⟩
  rw [moved]
  exact awaits.grow small

theorem Peer.Receives.carry {ran : List (Command ν)}
    (receives : peer.Receives outboxes id said sent ran) (stage : peer'.stage = peer.stage)
    (route : ∀ box, outboxes.find? id = some box → ∃ box', outboxes'.find? id = some box' ∧
      peer'.toClient ++ box'.buffer = peer.toClient ++ box.buffer ++ frames posted)
    (small : ∀ message ∈ posted, message.Framable) :
    peer'.Receives outboxes' id said (sent ++ posted) ran := by
  unfold Peer.Receives at receives ⊢
  rw [stage]
  cases known : peer.stage with
  | joining reader =>
    rw [known] at receives
    obtain ⟨idle, silent, passed, later, rfl, skipped, onWay⟩ := receives
    exact ⟨idle, silent, passed, later ++ posted, List.append_assoc _ _ _, skipped,
      onWay.carry route small⟩
  | joined client =>
    rw [known] at receives
    obtain ⟨welcome, taken, later, since, news, onWay⟩ := receives
    refine ⟨?_, taken, later ++ posted, ?_, news, fun on => (onWay on).carry route small⟩
    · obtain ⟨message, mem, same⟩ := welcome
      exact ⟨message, List.mem_append_left posted mem, same⟩
    · rw [sinceWelcome_append welcome, since, List.append_assoc]
  | failed error =>
    rw [known] at receives
    exact receives

theorem Peer.Receives.keep {ran : List (Command ν)}
    (receives : peer.Receives outboxes id said sent ran)
    (route : ∀ box, outboxes.find? id = some box → outboxes'.find? id = some box) :
    peer.Receives outboxes' id said sent ran := by
  have kept : peer.Receives outboxes' id said (sent ++ []) ran :=
    receives.carry rfl (fun box found => ⟨box, route box found, by simp⟩) nofun
  rwa [List.append_nil] at kept

theorem Peer.Receives.joined {ran ran' : List (Command ν)} {client client' : Client κ ν ω}
    (receives : peer.Receives outboxes id said sent ran) (stage : peer.stage = .joined client)
    (stage' : peer'.stage = .joined client') (toClient : peer'.toClient = peer.toClient)
    (reader : client'.reader = client.reader) (reading : client'.reading = client.reading)
    (news : (ran' ++ client'.queue.pending).filter (·.isNews) =
      (ran ++ client.queue.pending).filter (·.isNews)) :
    peer'.Receives outboxes id said' sent ran' := by
  unfold Peer.Receives at receives ⊢
  rw [stage] at receives
  rw [stage', toClient]
  obtain ⟨welcome, taken, later, since, same, onWay⟩ := receives
  refine ⟨welcome, taken, later, since, news.trans same, fun on => ?_⟩
  rw [reader]
  exact onWay (reading ▸ on)

/-- What a client reads goes into its queue behind what was there, and the rest stays on its
way. -/
theorem OnWay.read {ran : List (Command ν)} {taken messages : List Message} {toClient : Bytes}
    {box : Outbox} (found : outboxes.find? id = some box) (client : Client κ ν ω)
    {answers : List ReadAnswer} (settled : Settled answers)
    (awaits : client.reader.Awaits (carried answers ++ (toClient ++ box.buffer)) messages)
    (news : (ran ++ client.queue.pending).filter (·.isNews) = taken.filterMap Client.command?) :
    ∃ now later, messages = now ++ later ∧
      (ran ++ (client.read answers).queue.pending).filter (·.isNews) =
        (taken ++ now).filterMap Client.command? ∧
      ((client.read answers).reading = true →
        OnWay outboxes id toClient (client.read answers).reader later) := by
  obtain ⟨now, refused, later, lost, rfl, queued, left, kept⟩ := client.queued_read settled awaits
  obtain ⟨commands, pending, asked⟩ := queued.queued
  refine ⟨now, refused ++ later, rfl, ?_, fun on => ⟨box, found, ?_⟩⟩
  · rw [pending, ← List.append_assoc, List.filter_append, news, asked, List.filterMap_append]
  · obtain ⟨rfl, rfl⟩ := kept on
    exact left

theorem Peer.receives_joining {ran : List (Command ν)} {reader : FrameReader}
    (stage : peer.stage = .joining reader)
    (receives : peer.Receives outboxes id said sent ran) (lull : Lull) (arrivals : List Arrival) :
    (peer.read lull arrivals).Receives outboxes id said sent ran := by
  have whole := carried_turn lull peer.toClient arrivals
  have settled := settled_turn lull peer.toClient arrivals
  unfold Peer.Receives at receives
  rw [stage] at receives
  obtain ⟨rfl, silent, passed, later, rfl, skipped, box, found, awaits⟩ := receives
  unfold Peer.read
  rcases turned : turn lull peer.toClient arrivals with ⟨answers, toClient⟩
  rw [turned] at whole settled
  rw [← whole, List.append_assoc] at awaits
  rcases proceeded : Logon.proceed reader answers with ⟨logon, left⟩
  have reached := Logon.reached_proceed settled awaits proceeded
  dsimp only
  rw [stage]
  dsimp only
  rw [proceeded]
  cases logon with
  | waiting next =>
    obtain ⟨-, more, later, rfl, skipped', awaits'⟩ := reached
    exact ⟨rfl, silent, passed ++ more, later, (List.append_assoc _ _ _).symm,
      fun message mem => (List.mem_append.1 mem).elim (skipped message) (skipped' message),
      box, found, awaits'⟩
  | welcome oid services next =>
    obtain ⟨-, settled', more, later, rfl, skipped', awaits'⟩ := reached
    have since : sinceWelcome (passed ++ (more ++ .bootstrap oid services :: later)) = later := by
      rw [← List.append_assoc]
      exact sinceWelcome_of_passed
        (fun message mem => (List.mem_append.1 mem).elim (skipped message) (skipped' message)) _ _ _
    have none : (([] : List (Command ν)) ++ (Client.new oid services next peer.state :
        Client κ ν ω).queue.pending).filter (·.isNews) = [].filterMap Client.command? := rfl
    obtain ⟨now, later', split, news, onWay⟩ := OnWay.read found _ settled' awaits' none
    exact ⟨⟨.bootstrap oid services, by simp, rfl⟩, now, later', since.trans split, news, onWay⟩
  | failed error => exact ⟨rfl, silent⟩

theorem Peer.Receives.read {ran : List (Command ν)}
    (receives : peer.Receives outboxes id said sent ran) (lull : Lull) (arrivals : List Arrival) :
    (peer.read lull arrivals).Receives outboxes id said sent ran := by
  have known := receives
  cases stage : peer.stage with
  | joining reader => exact peer.receives_joining stage receives lull arrivals
  | joined client =>
    unfold Peer.Receives at receives
    rw [stage] at receives
    obtain ⟨welcome, taken, later, since, news, onWay⟩ := receives
    have whole := carried_turn lull peer.toClient arrivals
    unfold Peer.read
    rw [stage]
    dsimp only
    split
    · rename_i on
      obtain ⟨box, found, awaits⟩ := onWay on
      rw [← whole, List.append_assoc] at awaits
      obtain ⟨now, later', rfl, news', onWay'⟩ :=
        OnWay.read found client (settled_turn lull _ _) awaits news
      exact ⟨welcome, taken ++ now, later', by rw [since, List.append_assoc], news', onWay'⟩
    · exact known
  | failed error =>
    have still : peer.read lull arrivals = peer := by
      unfold Peer.read
      rw [stage]
    rwa [still]

theorem Delivers.advance {journal : List (Entry ν)} {entry : Entry ν}
    (delivers : net.Delivers journal)
    (peers : ∀ id, ∃ f : Peer κ ν ω → Peer κ ν ω, after.peer? id = (net.peer? id).map f ∧
      ∀ peer, (f peer).stage = peer.stage ∧ ∀ box, net.desk.outboxes.find? id = some box →
        ∃ box', after.desk.outboxes.find? id = some box' ∧
          (f peer).toClient ++ box'.buffer =
            peer.toClient ++ box.buffer ++ frames (entry.posted id))
    (small : ∀ id, ∀ message ∈ entry.posted id, message.Framable)
    (fresh : ∀ id, after.desk.manager.nextId ≤ id →
      net.desk.manager.nextId ≤ id ∧ entry.posted id = [])
    (said : entry.said = net.uttered after) (ran : ∀ id, entry.ran id = []) :
    after.Delivers (journal ++ [entry]) := by
  have silent (id : ConnectionId) : entry.said id = [] := by
    obtain ⟨f, same, kept⟩ := peers id
    rw [said]
    cases found : net.peer? id with
    | none => exact uttered_of_none (by rw [same, found]; rfl)
    | some peer => exact uttered_of_stage found (by rw [same, found]; rfl) (kept peer).1
  refine ⟨fun id peer found => ?_, fun id absent => ?_, fun id le => ?_⟩
  · obtain ⟨f, same, kept⟩ := peers id
    rw [same] at found
    obtain ⟨old, known, rfl⟩ := Option.map_eq_some_iff.1 found
    obtain ⟨stage, route⟩ := kept old
    rw [said_append, sent_append, ran_append, said_singleton, sent_singleton, ran_singleton,
      silent, ran, List.append_nil, List.append_nil]
    exact (delivers.receives id old known).carry stage route (small id)
  · obtain ⟨f, same, -⟩ := peers id
    rw [same, Option.map_eq_none_iff] at absent
    obtain ⟨nothing, idle⟩ := delivers.strangers id absent
    exact ⟨by simp [nothing, silent], by simp [idle, ran]⟩
  · obtain ⟨le, nothing⟩ := fresh id le
    simp [delivers.fresh id le, nothing]

/-- What has been posted as `P` says, within the limit, can tell how long it is. -/
def Legible (maxFrame : Nat) (P : ConnectionId → Message → Prop) : Prop :=
  ∀ id message, P id message → message.encode.length ≤ maxFrame → message.Framable

theorem legible_of_room (room : maxFrame < 256 ^ Wire.headerLength)
    (P : ConnectionId → Message → Prop) : Legible maxFrame P :=
  fun _ _ _ le => Nat.lt_of_le_of_lt le room

theorem legible_of_none : Legible maxFrame fun _ _ => False := fun _ _ none => none.elim

theorem legible_pong : Legible maxFrame Connection.Desk.Pong := by
  rintro id message ⟨time, rfl⟩ -
  have length : (Message.pong time).encode.length = 12 := by
    simp only [Message.encode, Message.write, Wire.length_writeWord, List.length_nil]
  rw [Message.Framable, length]
  decide

theorem Delivers.outward {P : ConnectionId → Message → Prop} {journal : List (Entry ν)}
    {action : Action κ ν ω} (delivers : net.Delivers journal) (sound : net.Sound maxFrame)
    (fine : Legible maxFrame P)
    (said : (net.entry code action).said = net.uttered (net.perform code action))
    (ran : ∀ id, (net.entry code action).ran id = [])
    (peers : ∀ id, ∃ f : Peer κ ν ω → Peer κ ν ω,
      (net.perform code action).peer? id = (net.peer? id).map f ∧
        ∀ peer, (f peer).stage = peer.stage ∧ (f peer).toClient = peer.toClient)
    (grown : net.desk.outboxes.Grown P (net.perform code action).desk.outboxes)
    (nextId : (net.perform code action).desk.manager.nextId = net.desk.manager.nextId) :
    (net.perform code action).Delivers (journal ++ [net.entry code action]) := by
  have posted (id : ConnectionId) : (net.entry code action).posted id =
      gained net.desk.outboxes (net.perform code action).desk.outboxes id := rfl
  have spec (id : ConnectionId) (box : Outbox) (found : net.desk.outboxes.find? id = some box) :=
    gained_of_grown grown found (by rw [sound.limits id box found]; exact fine id)
  refine delivers.advance (fun id => ?_) (fun id message mem => ?_) (fun id le => ?_) said ran
  · obtain ⟨f, same, kept⟩ := peers id
    refine ⟨f, same, fun peer => ⟨(kept peer).1, fun box found => ?_⟩⟩
    obtain ⟨box', found', buffer, -⟩ := spec id box found
    exact ⟨box', found', by rw [(kept peer).2, buffer, posted, List.append_assoc]⟩
  · rw [posted] at mem
    cases found : net.desk.outboxes.find? id with
    | none =>
      rw [gained_of_absent found] at mem
      cases mem
    | some box =>
      obtain ⟨-, -, -, good⟩ := spec id box found
      obtain ⟨le, told⟩ := good message mem
      rw [sound.limits id box found] at le
      exact fine id message told le
  · rw [nextId] at le
    exact ⟨le, by rw [posted, gained_of_absent (sound.noOutbox id le)]⟩

theorem Delivers.posts {P : ConnectionId → Message → Prop} {journal : List (Entry ν)}
    {action : Action κ ν ω} (delivers : net.Delivers journal) (sound : net.Sound maxFrame)
    (fine : Legible maxFrame P)
    (said : (net.entry code action).said = net.uttered (net.perform code action))
    (ran : ∀ id, (net.entry code action).ran id = [])
    (peers : (net.perform code action).peers = net.peers)
    (grown : net.desk.outboxes.Grown P (net.perform code action).desk.outboxes)
    (nextId : (net.perform code action).desk.manager.nextId = net.desk.manager.nextId) :
    (net.perform code action).Delivers (journal ++ [net.entry code action]) :=
  delivers.outward sound fine said ran
    (fun id => ⟨_, peer?_of_peers peers id, fun _ => ⟨rfl, rfl⟩⟩) grown nextId

theorem gained_accept (desk : Connection.Desk) (address : String) (id : ConnectionId) :
    gained desk.outboxes (desk.accept address).outboxes id = [] := by
  cases found : desk.outboxes.find? id with
  | none => exact gained_of_absent found
  | some box =>
    have found' : (desk.accept address).outboxes.find? id = some box := by
      rw [Connection.Desk.outbox_accept, found]
      rfl
    exact gained_of_shorter found found' (Nat.le_refl _)

theorem gained_flush (desk : Connection.Desk) (id : ConnectionId) (answers : List WriteAnswer)
    (other : ConnectionId) :
    gained desk.outboxes (desk.flush id answers).2.outboxes other = [] := by
  cases found : desk.outboxes.find? other with
  | none => exact gained_of_absent found
  | some box =>
    obtain ⟨box', found', -, whole⟩ := (desk.flushed_flush id answers).present other box found
    have length := congrArg List.length whole
    rw [List.length_append] at length
    exact gained_of_shorter found found' (by omega)

theorem Delivers.dial {journal : List (Entry ν)} (delivers : net.Delivers journal)
    (sound : net.Sound maxFrame) (address username : String) (state : ω) :
    (net.dial address username state).Delivers
      (journal ++ [net.entry code (.dial address username state)]) := by
  have said (id : ConnectionId) : (net.entry code (.dial address username state)).said id =
      if id = net.desk.manager.nextId then [Logon.greeting username] else [] := rfl
  have posted (id : ConnectionId) :
      (net.entry code (.dial address username state)).posted id = [] :=
    gained_accept net.desk address id
  have ran (id : ConnectionId) : (net.entry code (.dial address username state)).ran id = [] := rfl
  refine ⟨fun id peer found => ?_, fun id absent => ?_, fun id le => ?_⟩
  · rw [said_append, sent_append, ran_append, said_singleton, sent_singleton, ran_singleton,
      said, posted, ran, List.append_nil, List.append_nil]
    rw [peer?_dial] at found
    obtain known | ⟨unknown, new⟩ := Option.or_eq_some_iff.1 found
    · have apart : id ≠ net.desk.manager.nextId := by
        intro same
        rw [peer?_of_le sound (Nat.le_of_eq same.symm)] at known
        cases known
      rw [if_neg apart, List.append_nil]
      refine (delivers.receives id peer known).keep fun box h => ?_
      change (net.desk.accept address).outboxes.find? id = some box
      rw [Connection.Desk.outbox_accept, h]
      rfl
    · split at new
      · rename_i here
        subst here
        cases new
        obtain ⟨nothing, idle⟩ := delivers.strangers _ unknown
        rw [if_pos rfl, nothing, idle, delivers.fresh _ (Nat.le_refl _)]
        refine ⟨rfl, by simp [Logon.greeting], [], [], rfl, List.forall_mem_nil _,
          { id := net.desk.manager.nextId, address, limit := net.desk.manager.limit }, ?_,
          rfl, List.forall_mem_nil _⟩
        change (net.desk.accept address).outboxes.find? _ = _
        rw [Connection.Desk.outbox_accept, sound.noOutbox _ (Nat.le_refl _), if_pos rfl]
        rfl
      · cases new
  · rw [peer?_dial, Option.or_eq_none_iff] at absent
    obtain ⟨unknown, other⟩ := absent
    obtain ⟨nothing, idle⟩ := delivers.strangers id unknown
    have apart : id ≠ net.desk.manager.nextId := by
      intro same
      rw [if_pos same.symm] at other
      cases other
    simp [nothing, idle, said, ran, apart]
  · have le : net.desk.manager.nextId + 1 ≤ id := le
    simp [delivers.fresh id (Nat.le_of_succ_le le), posted]

/-- A server that reads posts no more than answers to pings. -/
theorem grown_serverReads (id : ConnectionId) (lull : Lull) (arrivals : List Arrival) :
    net.desk.outboxes.Grown Connection.Desk.Pong
      (net.serverReads id lull arrivals).desk.outboxes := by
  unfold Network.serverReads
  split
  · rename_i peer connection _ found
    rcases turn lull peer.toServer arrivals with ⟨answers, toServer⟩
    rcases reading : connection.readMessages answers with ⟨outcome, next⟩
    exact (net.desk.visited_read found reading).outboxes
  · exact .refl _

theorem Delivers.serverReads {journal : List (Entry ν)} (delivers : net.Delivers journal)
    (sound : net.Sound maxFrame) (id : ConnectionId) (lull : Lull) (arrivals : List Arrival) :
    (net.perform code (.serverReads id lull arrivals)).Delivers
      (journal ++ [net.entry code (.serverReads id lull arrivals)]) := by
  have spec : (∀ other, ∃ f : Peer κ ν ω → Peer κ ν ω,
        (net.serverReads id lull arrivals).peer? other = (net.peer? other).map f ∧
          ∀ peer, (f peer).stage = peer.stage ∧ (f peer).toClient = peer.toClient) ∧
      (net.serverReads id lull arrivals).desk.manager.nextId = net.desk.manager.nextId := by
    unfold Network.serverReads
    split
    · rename_i peer connection _ found
      rcases turn lull peer.toServer arrivals with ⟨answers, toServer⟩
      rcases reading : connection.readMessages answers with ⟨outcome, next⟩
      refine ⟨fun other => ⟨_, peer?_onPeer (fun _ => rfl) other, fun p => ?_⟩,
        (net.desk.visited_read found reading).nextId⟩
      split <;> exact ⟨rfl, rfl⟩
    · exact ⟨fun other => ⟨_, peer?_of_peers rfl other, fun _ => ⟨rfl, rfl⟩⟩, rfl⟩
  exact delivers.outward sound legible_pong rfl (fun _ => rfl) spec.1
    (grown_serverReads id lull arrivals) spec.2

theorem Delivers.serverWrites {journal : List (Entry ν)} (delivers : net.Delivers journal)
    (id : ConnectionId) (answers : List WriteAnswer) :
    (net.perform code (.serverWrites id answers)).Delivers
      (journal ++ [net.entry code (.serverWrites id answers)]) := by
  have flushed := net.desk.flushed_flush id answers
  have outboxes : (net.perform code (.serverWrites id answers)).desk =
      (net.desk.flush id answers).2 := rfl
  have posted (other : ConnectionId) :
      (net.entry code (.serverWrites id answers)).posted other = [] :=
    gained_flush net.desk id answers other
  refine delivers.advance (fun other => ⟨_, peer?_onPeer (fun _ => rfl) other, fun peer => ?_⟩)
    (fun other message mem => ?_) (fun other le => ⟨?_, posted other⟩) rfl fun _ => rfl
  · refine ⟨by split <;> rfl, fun box found => ?_⟩
    obtain ⟨box', found', -, whole⟩ := flushed.present other box found
    refine ⟨box', found', ?_⟩
    rw [posted, Wire.frames_nil, List.append_nil]
    split
    · rename_i here
      rw [if_pos here] at whole
      rw [← whole, ← List.append_assoc]
      rfl
    · rename_i apart
      rw [if_neg apart, List.nil_append] at whole
      rw [whole]
  · rw [posted] at mem
    cases mem
  · rwa [outboxes, flushed.manager.nextId] at le

theorem Delivers.serverCloses {journal : List (Entry ν)} (delivers : net.Delivers journal)
    (sound : net.Sound maxFrame) (id : ConnectionId) :
    (net.perform code (.serverCloses id)).Delivers
      (journal ++ [net.entry code (.serverCloses id)]) := by
  obtain ⟨kept, grown, -⟩ := net.desk.close_spec id (P := fun _ _ => False)
  exact delivers.posts sound legible_of_none rfl (fun _ => rfl) rfl grown kept.nextId

theorem Delivers.serve {P : ConnectionId → Message → Prop} {journal : List (Entry ν)}
    (delivers : net.Delivers journal) (sound : net.Sound maxFrame) (fine : Legible maxFrame P)
    (grown : net.desk.outboxes.Grown P net.serve.desk.outboxes) :
    (net.perform code .serve).Delivers (journal ++ [net.entry code .serve]) := by
  have spec : net.serve.peers = net.peers ∧
      net.serve.desk.manager.nextId = net.desk.manager.nextId := by
    cases next : net.hall.pending with
    | nil =>
      rw [serve_of_idle next]
      exact ⟨rfl, rfl⟩
    | cons command rest =>
      rw [serve_of_pending next]
      exact ⟨rfl, rfl⟩
  exact delivers.posts sound fine rfl (fun _ => rfl) spec.1 grown spec.2

theorem Sound.grown_serve (sound : net.Sound maxFrame) :
    net.desk.outboxes.Grown (fun _ _ => True) net.serve.desk.outboxes := by
  cases next : net.hall.pending with
  | nil =>
    rw [serve_of_idle next]
    exact .refl _
  | cons command rest =>
    have performed := sound.ready.perform command
    rw [serve_of_pending next]
    exact performed.outboxes.mono fun _ _ _ => trivial

theorem outboxes_notify : net.notify.desk.outboxes = net.desk.outboxes := by
  unfold Network.notify
  split <;> rfl

theorem Delivers.notify {journal : List (Entry ν)} (delivers : net.Delivers journal)
    (sound : net.Sound maxFrame) :
    (net.perform code .notify).Delivers (journal ++ [net.entry code .notify]) := by
  have spec : net.notify.peers = net.peers ∧ net.notify.desk.manager = net.desk.manager := by
    unfold Network.notify
    split <;> exact ⟨rfl, rfl⟩
  have grown : net.desk.outboxes.Grown (fun _ _ => False) net.notify.desk.outboxes := by
    rw [outboxes_notify]
    exact .refl _
  exact delivers.posts sound legible_of_none rfl (fun _ => rfl) spec.1 grown
    (congrArg (·.nextId) spec.2)

theorem Delivers.onPeer {journal : List (Entry ν)} {action : Action κ ν ω}
    (delivers : net.Delivers journal)
    {work : Peer κ ν ω → List (Event κ) × Peer κ ν ω}
    (performs : net.perform code action = net.onPeer id work)
    (same : ∀ peer, (work peer).2.id = peer.id)
    (said : (net.entry code action).said = net.uttered (net.perform code action))
    (ran : ∀ other, other ≠ id ∨ net.peer? other = none → (net.entry code action).ran other = [])
    (own : ∀ peer, net.peer? id = some peer → ∀ said sent, ∀ before : List (Command ν),
      peer.Receives net.desk.outboxes id said sent before →
      (work peer).2.Receives net.desk.outboxes id
        (said ++ (work peer).2.stage.outgoing.drop peer.stage.outgoing.length) sent
        (before ++ (net.entry code action).ran id)) :
    (net.perform code action).Delivers (journal ++ [net.entry code action]) := by
  have posted (other : ConnectionId) : (net.entry code action).posted other = [] := by
    change gained _ (net.perform code action).desk.outboxes other = []
    rw [performs, desk_onPeer]
    exact gained_self _ other
  have peers (other : ConnectionId) : (net.perform code action).peer? other =
      (net.peer? other).map fun peer => if other = id then (work peer).2 else peer := by
    rw [performs]
    exact peer?_onPeer same other
  have desk : (net.perform code action).desk = net.desk := by rw [performs, desk_onPeer]
  refine ⟨fun other peer found => ?_, fun other absent => ?_, fun other le => ?_⟩
  · have mapped := peers other
    rw [found] at mapped
    obtain ⟨old, known, moved⟩ := Option.map_eq_some_iff.1 mapped.symm
    have receives := delivers.receives other old known
    rw [said_append, sent_append, ran_append, said_singleton, sent_singleton, ran_singleton,
      posted, List.append_nil, said, desk]
    by_cases here : other = id
    · subst here
      rw [if_pos rfl] at moved
      subst moved
      rw [uttered_of_peer? known found]
      exact own old known _ _ _ receives
    · rw [if_neg here] at moved
      subst moved
      rw [uttered_of_stage known found rfl, ran other (.inl here), List.append_nil,
        List.append_nil]
      exact receives
  · have unknown : net.peer? other = none := by
      rwa [peers, Option.map_eq_none_iff] at absent
    obtain ⟨nothing, idle⟩ := delivers.strangers other unknown
    refine ⟨?_, ?_⟩
    · rw [said_append, said_singleton, nothing, said, uttered_of_none absent]
      rfl
    · rw [ran_append, ran_singleton, idle, ran other (.inr unknown)]
      rfl
  · have le : net.desk.manager.nextId ≤ other := by
      rwa [performs, desk_onPeer] at le
    simp [delivers.fresh other le, posted]

theorem Delivers.clientReads {journal : List (Entry ν)} (delivers : net.Delivers journal)
    (id : ConnectionId) (lull : Lull) (arrivals : List Arrival) :
    (net.perform code (.clientReads id lull arrivals)).Delivers
      (journal ++ [net.entry code (.clientReads id lull arrivals)]) := by
  have performs : net.perform code (.clientReads id lull arrivals) =
      net.onPeer id fun peer => ([], peer.read lull arrivals) := rfl
  refine delivers.onPeer performs (fun peer => (peer.moved_read lull arrivals).id) rfl
    (fun _ _ => rfl) fun peer _ said sent before receives => ?_
  have ran : (net.entry code (.clientReads id lull arrivals)).ran id = [] := rfl
  dsimp only
  rw [drop_outgoing_of_moved (peer.moved_read lull arrivals).stage, ran, List.append_nil,
    List.append_nil]
  exact receives.read lull arrivals

theorem Delivers.onJoined {journal : List (Entry ν)} {action : Action κ ν ω}
    (delivers : net.Delivers journal)
    {work : Client κ ν ω → Peer κ ν ω → List (Deed κ) × Peer κ ν ω}
    (performs : net.perform code action = net.onJoined id work)
    (same : ∀ client peer, (work client peer).2.id = peer.id)
    (said : (net.entry code action).said = net.uttered (net.perform code action))
    (ran : ∀ other, other ≠ id ∨ net.queued other = [] → (net.entry code action).ran other = [])
    (own : ∀ client peer, net.peer? id = some peer → peer.stage = .joined client →
      ∃ client', (work client peer).2.stage = .joined client' ∧
        (work client peer).2.toClient = peer.toClient ∧ client'.reader = client.reader ∧
        client'.reading = client.reading ∧
        ((net.entry code action).ran id ++ client'.queue.pending).filter (·.isNews) =
          client.queue.pending.filter (·.isNews)) :
    (net.perform code action).Delivers (journal ++ [net.entry code action]) := by
  refine delivers.onPeer performs (fun peer => ?_) said (fun other stranger => ?_)
    fun peer known said sent before receives => ?_
  · obtain ⟨client, -, acted⟩ | idle := whenJoined_cases id peer work
    · rw [acted]
      exact same client peer
    · rw [idle]
  · refine ran other (stranger.imp_right fun absent => ?_)
    rw [queued, absent]
    rfl
  · by_cases logged : ∃ client, peer.stage = .joined client
    · obtain ⟨client, stage⟩ := logged
      obtain ⟨client', stage', toClient, reader, reading, news⟩ := own client peer known stage
      rw [whenJoined_of_joined stage]
      refine receives.joined stage stage' toClient reader reading ?_
      rw [List.append_assoc, List.filter_append, news, ← List.filter_append]
    · have stage (client : Client κ ν ω) (same : peer.stage = .joined client) : False :=
        logged ⟨client, same⟩
      have idle : net.queued id = [] := by
        rw [queued, known]
        unfold Stage.queued
        cases away : peer.stage with
        | joined client => exact (stage client away).elim
        | _ => simp [away]
      rw [whenJoined_of_stranger stage, ran id (.inr idle), List.drop_length, List.append_nil,
        List.append_nil]
      exact receives

theorem Delivers.clientRuns {journal : List (Entry ν)} (delivers : net.Delivers journal)
    (id : ConnectionId) :
    (net.perform code (.clientRuns id)).Delivers
      (journal ++ [net.entry code (.clientRuns id)]) := by
  have performs : net.perform code (.clientRuns id) = net.onJoined id fun client peer =>
      ((runOne code client).1, { peer with stage := .joined (runOne code client).2 }) := rfl
  have ran (other : ConnectionId) : (net.entry code (.clientRuns id)).ran other =
      if other = id then (net.queued other).head?.toList else [] := rfl
  refine delivers.onJoined performs (fun _ _ => rfl) rfl (fun other stranger => ?_)
    fun client peer known stage => ?_
  · rw [ran]
    obtain apart | idle := stranger
    · exact if_neg apart
    · rw [idle]
      exact ite_self []
  · have queue : net.queued id = client.queue.pending := by
      rw [queued, known, Option.map_some, stage]
      rfl
    refine ⟨(runOne code client).2, rfl, rfl, ?_⟩
    rw [ran, if_pos rfl, queue]
    cases next : client.queue.pending with
    | nil =>
      rw [runOne_of_idle code next, next]
      exact ⟨rfl, rfl, rfl⟩
    | cons command rest =>
      rw [runOne_of_pending code next]
      exact ⟨rfl, rfl, rfl⟩

theorem Delivers.conclude {journal : List (Entry ν)} (delivers : net.Delivers journal)
    (id : ConnectionId) (index : Nat) :
    (net.perform code (.conclude id index)).Delivers
      (journal ++ [net.entry code (.conclude id index)]) := by
  refine delivers.onJoined rfl (fun client peer => ?_) rfl (fun _ _ => rfl)
    fun client peer _ stage => ?_
  · split <;> rfl
  · split
    · exact ⟨_, rfl, rfl, rfl, rfl, rfl⟩
    · exact ⟨client, stage, rfl, rfl, rfl, rfl⟩

theorem Delivers.observe {journal : List (Entry ν)} (delivers : net.Delivers journal)
    (id : ConnectionId) (name : ν) :
    (net.perform code (.observe id name)).Delivers
      (journal ++ [net.entry code (.observe id name)]) := by
  refine delivers.onJoined rfl (fun _ _ => rfl) rfl (fun _ _ => rfl) fun client peer _ stage => ?_
  refine ⟨(client.enqueue (.addObserver name)).2, rfl, rfl, ?_⟩
  obtain shut | taken := client.enqueue_cases (.addObserver name)
  · rw [shut]
    exact ⟨rfl, rfl, rfl⟩
  · rw [taken]
    have silent : [(.addObserver name : Command ν)].filter (·.isNews) = [] := rfl
    have ran : (net.entry code (.observe id name)).ran id = [] := rfl
    exact ⟨rfl, rfl, by rw [ran, List.nil_append, List.filter_append, silent, List.append_nil]⟩

theorem Delivers.duplicate {journal : List (Entry ν)} (delivers : net.Delivers journal)
    (sound : net.Sound maxFrame) (id : ConnectionId) (response : Response) :
    (net.perform code (.duplicate id response)).Delivers
      (journal ++ [net.entry code (.duplicate id response)]) := by
  by_cases known : response ∈ Network.posted net.history
  · have performs : net.perform code (.duplicate id response) = net.onJoined id fun client peer =>
        (client.desk.dispatchDeeds code.listen response, { peer with
          stage := .joined (client.setDesk (client.desk.dispatch code.listen response).2) }) :=
      if_pos known
    exact delivers.onJoined performs (fun _ _ => rfl) rfl (fun _ _ => rfl)
      fun client peer _ stage => ⟨_, rfl, rfl, rfl, rfl, rfl⟩
  · have same : net.perform code (.duplicate id response) = net := if_neg known
    have grown : net.desk.outboxes.Grown (fun _ _ => False)
        (net.perform code (.duplicate id response)).desk.outboxes := by
      rw [same]
      exact .refl _
    exact delivers.posts sound legible_of_none rfl (fun _ => rfl) (congrArg (·.peers) same) grown
      (congrArg (·.desk.manager.nextId) same)

/-- Any step, if what the server posts when it runs a command can tell how long it is. -/
theorem Delivers.perform {P : ConnectionId → Message → Prop} {journal : List (Entry ν)}
    (delivers : net.Delivers journal) (sound : net.Sound maxFrame) (action : Action κ ν ω)
    (fine : Legible maxFrame P)
    (grown : action = .serve → net.desk.outboxes.Grown P net.serve.desk.outboxes) :
    (net.perform code action).Delivers (journal ++ [net.entry code action]) := by
  cases action with
  | dial address username state => exact delivers.dial sound address username state
  | serverReads id lull arrivals => exact delivers.serverReads sound id lull arrivals
  | serverWrites id answers => exact delivers.serverWrites id answers
  | serverCloses id => exact delivers.serverCloses sound id
  | notify => exact delivers.notify sound
  | serve => exact delivers.serve sound fine (grown rfl)
  | clientReads id lull arrivals => exact delivers.clientReads id lull arrivals
  | clientWrites id answers =>
    refine delivers.onJoined rfl (fun _ _ => rfl) rfl (fun _ _ => rfl) fun client peer _ _ => ?_
    have wrote := client.wrote_write answers
    exact ⟨_, rfl, rfl, wrote.reader, wrote.reading,
      congrArg (List.filter (·.isNews)) wrote.pending⟩
  | clientRuns id => exact delivers.clientRuns id
  | conclude id index => exact delivers.conclude id index
  | observe id name => exact delivers.observe id name
  | duplicate id response => exact delivers.duplicate sound id response
  | wait milliseconds =>
    have still : net.desk.outboxes.Grown (fun _ _ => False) net.desk.outboxes := .refl _
    exact delivers.posts sound legible_of_none rfl (fun _ => rfl) rfl still rfl
  | stopServing =>
    have still : net.desk.outboxes.Grown (fun _ _ => False) net.desk.outboxes := .refl _
    exact delivers.posts sound legible_of_none rfl (fun _ => rfl) rfl still rfl
  | _ =>
    exact delivers.onJoined rfl (fun _ _ => rfl) rfl (fun _ _ => rfl)
      fun client peer _ _ => ⟨_, rfl, rfl, rfl, rfl, rfl⟩

theorem Delivers.new [Inhabited τ] (maxClients maxFrame : Nat) (app : α) :
    (Network.new maxClients maxFrame app : Network τ α κ ν ω).Delivers ([] : List (Entry ν)) :=
  ⟨nofun, fun _ _ => ⟨rfl, rfl⟩, fun _ _ => rfl⟩

end Parley.Network
