import Parley.Proofs.Connection.Channel
import Parley.Proofs.Network.Downstream

/-! The journal of a network.
It is kept beside the run, one entry a step, and tells in which order the hosts have posted
messages and run commands. What was posted is read off the states before and after a step: the
messages behind those that waited for a client's writer, and the frames behind those in an
outbox. -/

namespace Parley

def Server.Command.isFrom (id : ConnectionId) : Server.Command → Bool
  | .startSession connection _ _ => connection = id
  | .handleRequest connection _ => connection = id
  | .endSession _ => false

namespace Network

open Client (Code Logon isWelcome)
open Wire (FrameReader frames)

/-- What one step has done. -/
structure Entry (ν : Type) where
  /-- The messages that a client has posted to the server. -/
  said : ConnectionId → List Message
  /-- The messages that the server has posted to a client. -/
  posted : ConnectionId → List Message
  /-- The command that the server has run. -/
  served : Option Server.Command
  /-- The commands that a client has run. -/
  ran : ConnectionId → List (Client.Command ν)

/-- The messages that were posted to a connection between two states of the outboxes. -/
def gained (before after : Outboxes) (id : ConnectionId) : List Message :=
  match before.find? id, after.find? id with
  | some old, some new =>
    (FrameReader.mk old.limit (new.buffer.drop old.buffer.length)).drainMessages.1
  | _, _ => []

def Stage.outgoing : Stage κ ν ω → List Message
  | .joined client => client.desk.outgoing.messages
  | _ => []

def Stage.queued : Stage κ ν ω → List (Client.Command ν)
  | .joined client => client.queue.pending
  | _ => []

def peer? (net : Network τ α κ ν ω) (id : ConnectionId) : Option (Peer κ ν ω) :=
  net.peers.find? (·.id = id)

def outgoing (net : Network τ α κ ν ω) (id : ConnectionId) : List Message :=
  ((net.peer? id).map (·.stage.outgoing)).getD []

def queued (net : Network τ α κ ν ω) (id : ConnectionId) : List (Client.Command ν) :=
  ((net.peer? id).map (·.stage.queued)).getD []

def uttered (before after : Network τ α κ ν ω) (id : ConnectionId) : List Message :=
  (after.outgoing id).drop (before.outgoing id).length

variable (code : Code κ ν ω)

def entry (net : Network τ α κ ν ω) (action : Action κ ν ω) : Entry ν where
  said :=
    match action with
    | .dial _ username _ => fun id =>
      if id = net.desk.manager.nextId then [Logon.greeting username] else []
    | action => net.uttered (net.perform code action)
  posted := gained net.desk.outboxes (net.perform code action).desk.outboxes
  served :=
    match action with
    | .serve => net.hall.pending.head?
    | _ => none
  ran :=
    match action with
    | .clientRuns client => fun id => if id = client then (net.queued id).head?.toList else []
    | _ => fun _ => []

def journal (net : Network τ α κ ν ω) : List (Action κ ν ω) → List (Entry ν)
  | [] => []
  | action :: rest => net.entry code action :: (net.perform code action).journal rest

theorem journal_append (net : Network τ α κ ν ω) (early late : List (Action κ ν ω)) :
    net.journal code (early ++ late) =
      net.journal code early ++ (net.run code early).journal code late := by
  induction early generalizing net with
  | nil => rfl
  | cons action rest ih => exact congrArg (net.entry code action :: ·) (ih _)

theorem journal_eq_append {net : Network τ α κ ν ω} {actions : List (Action κ ν ω)}
    {before after : List (Entry ν)} {entry : Entry ν}
    (h : net.journal code actions = before ++ entry :: after) :
    ∃ early action late, actions = early ++ action :: late ∧
      before = net.journal code early ∧ entry = (net.run code early).entry code action := by
  induction actions generalizing net before with
  | nil => cases List.append_ne_nil_of_right_ne_nil before (List.cons_ne_nil entry after) h.symm
  | cons action rest ih =>
    cases before with
    | nil => exact ⟨[], action, rest, rfl, rfl, (List.cons.inj h).1.symm⟩
    | cons first before =>
      obtain ⟨same, others⟩ := List.cons.inj h
      obtain ⟨early, last, late, rfl, rfl, same'⟩ := ih others
      exact ⟨action :: early, last, late, rfl, congrArg (· :: _) same.symm, same'⟩

/-- What every step keeps up, with the journal that grows by its entry, holds after a run. -/
theorem journal_induction {P : List (Entry ν) → Network τ α κ ν ω → Prop}
    (step : ∀ journal net action, P journal net →
      P (journal ++ [net.entry code action]) (net.perform code action))
    {journal : List (Entry ν)} {net : Network τ α κ ν ω} (start : P journal net)
    (actions : List (Action κ ν ω)) :
    P (journal ++ net.journal code actions) (net.run code actions) := by
  induction actions generalizing journal net with
  | nil => rwa [Network.journal, List.append_nil]
  | cons action rest ih =>
    have later := ih (step journal net action start)
    rwa [List.append_assoc] at later

/-- The messages that a client has posted to the server. -/
def said (id : ConnectionId) (journal : List (Entry ν)) : List Message :=
  journal.flatMap (·.said id)

/-- The messages that the server has posted to a client. -/
def sent (id : ConnectionId) (journal : List (Entry ν)) : List Message :=
  journal.flatMap (·.posted id)

/-- The commands that messages of a client made the server run. -/
def dealt (id : ConnectionId) (journal : List (Entry ν)) : List Server.Command :=
  (journal.filterMap (·.served)).filter (·.isFrom id)

/-- The commands that a client has run. -/
def ran (id : ConnectionId) (journal : List (Entry ν)) : List (Client.Command ν) :=
  journal.flatMap (·.ran id)

/-- What is behind the message that lets a client in. -/
def sinceWelcome (messages : List Message) : List Message :=
  (messages.dropWhile (!isWelcome ·)).tail

/-- The responses and events that a client has run. -/
def executed (id : ConnectionId) (journal : List (Entry ν)) : List (Client.Command ν) :=
  (ran id journal).filter (·.isNews)

/-- The responses and events that the server has posted to a client since it was let in. -/
def heard (id : ConnectionId) (journal : List (Entry ν)) : List (Client.Command ν) :=
  (sinceWelcome (sent id journal)).filterMap Client.command?

section Projections

variable (id : ConnectionId) (journal more : List (Entry ν)) (entry : Entry ν)

@[simp] theorem said_append : said id (journal ++ more) = said id journal ++ said id more :=
  List.flatMap_append

@[simp] theorem sent_append : sent id (journal ++ more) = sent id journal ++ sent id more :=
  List.flatMap_append

@[simp] theorem ran_append : ran id (journal ++ more) = ran id journal ++ ran id more :=
  List.flatMap_append

@[simp] theorem dealt_append :
    dealt id (journal ++ more) = dealt id journal ++ dealt id more := by
  rw [dealt, List.filterMap_append, List.filter_append]
  rfl

@[simp] theorem said_singleton : said id [entry] = entry.said id := List.append_nil _

@[simp] theorem sent_singleton : sent id [entry] = entry.posted id := List.append_nil _

@[simp] theorem ran_singleton : ran id [entry] = entry.ran id := List.append_nil _

theorem sent_cons : sent id (entry :: more) = entry.posted id ++ sent id more := rfl

theorem dealt_cons :
    dealt id (entry :: more) =
      (entry.served.filter (·.isFrom id)).toList ++ dealt id more := by
  unfold dealt
  cases served : entry.served with
  | none =>
    rw [List.filterMap_cons_none served]
    rfl
  | some command =>
    rw [List.filterMap_cons_some served, List.filter_cons, Option.filter_some]
    split <;> rfl

theorem executed_append :
    executed id (journal ++ more) = executed id journal ++ executed id more := by
  rw [executed, ran_append, List.filter_append]
  rfl

theorem executed_cons :
    executed id (entry :: more) = (entry.ran id).filter (·.isNews) ++ executed id more :=
  List.filter_append ..

end Projections

section Welcome

variable {messages : List Message}

theorem sinceWelcome_append (welcome : ∃ message ∈ messages, isWelcome message = true)
    (more : List Message) :
    sinceWelcome (messages ++ more) = sinceWelcome messages ++ more := by
  induction messages with
  | nil => simp at welcome
  | cons message rest ih =>
    cases first : isWelcome message with
    | true => simp [sinceWelcome, first]
    | false =>
      have later : ∃ message ∈ rest, isWelcome message = true := by
        simpa [first] using welcome
      have step (rest : List Message) : sinceWelcome (message :: rest) = sinceWelcome rest := by
        simp [sinceWelcome, first]
      rw [List.cons_append, step, step, ih later]

theorem sinceWelcome_of_passed {passed : List Message}
    (skipped : ∀ message ∈ passed, isWelcome message = false) (oid : Oid) (services : List Binding)
    (later : List Message) :
    sinceWelcome (passed ++ .bootstrap oid services :: later) = later := by
  have waits : ∀ message ∈ passed, (!isWelcome message) = true := by simpa using skipped
  rw [sinceWelcome, List.dropWhile_append_of_pos waits]
  rfl

end Welcome

section Posts

variable {before after : Outboxes} {id : ConnectionId} {old new : Outbox}
  {P : ConnectionId → Message → Prop}

theorem gained_of_absent (absent : before.find? id = none) : gained before after id = [] := by
  unfold gained
  rw [absent]

theorem gained_of_present (found : before.find? id = some old)
    (found' : after.find? id = some new) :
    gained before after id =
      (FrameReader.mk old.limit (new.buffer.drop old.buffer.length)).drainMessages.1 := by
  unfold gained
  rw [found, found']

theorem gained_of_shorter (found : before.find? id = some old)
    (found' : after.find? id = some new) (shorter : new.buffer.length ≤ old.buffer.length) :
    gained before after id = [] := by
  rw [gained_of_present found found', List.drop_of_length_le shorter]
  rfl

theorem gained_self (outboxes : Outboxes) (id : ConnectionId) :
    gained outboxes outboxes id = [] := by
  cases found : outboxes.find? id with
  | none => exact gained_of_absent found
  | some box => exact gained_of_shorter found found (Nat.le_refl _)

/-- What an outbox has gained are the messages that were posted. -/
theorem gained_of_grown (grown : before.Grown P after) (found : before.find? id = some old)
    (fine : ∀ message, P id message → message.encode.length ≤ old.limit → message.Framable) :
    ∃ new, after.find? id = some new ∧ new.buffer = old.buffer ++ frames (gained before after id) ∧
      ∀ message ∈ gained before after id, message.encode.length ≤ old.limit ∧ P id message := by
  obtain ⟨new, posted, found', -, buffer, good⟩ := grown.present id old found
  have same : gained before after id = posted := by
    rw [gained_of_present found found', buffer, List.drop_left]
    exact FrameReader.drainMessages_frames (fun message mem => (good message mem).1)
      fun message mem => fine message (good message mem).2 (good message mem).1
  exact ⟨new, found', same ▸ buffer, same ▸ good⟩

end Posts

section Steps

variable {maxFrame : Nat} {net after : Network τ α κ ν ω} {id other : ConnectionId}
  {work : Peer κ ν ω → List (Event κ) × Peer κ ν ω}

theorem peer?_onPeer (same : ∀ peer, (work peer).2.id = peer.id) (other : ConnectionId) :
    (net.onPeer id work).peer? other =
      (net.peer? other).map fun peer => if other = id then (work peer).2 else peer := by
  unfold onPeer peer?
  cases found : net.peers.find? (·.id = id) with
  | none =>
    by_cases here : other = id
    · rw [here, found]
      rfl
    · simp [here]
  | some peer =>
    dsimp only
    have own := id_of_find? found
    have keeps : ((fun p : Peer κ ν ω => decide (p.id = other)) ∘
        fun p => if p.id = id then (work peer).2 else p) = fun p => decide (p.id = other) := by
      funext p
      by_cases here : p.id = id
      · simp [here, same, own]
      · simp [here]
    rw [List.find?_map, keeps]
    refine Option.map_congr fun p known => ?_
    have key := id_of_find? known
    by_cases here : other = id
    · subst here
      obtain rfl := Option.some.inj (found.symm.trans known)
      rw [if_pos key, if_pos rfl]
    · rw [if_neg here, if_neg (by rwa [key])]

theorem peer?_onPeer_of_found {peer : Peer κ ν ω} (found : net.peer? id = some peer)
    (same : ∀ peer, (work peer).2.id = peer.id) :
    (net.onPeer id work).peer? id = some (work peer).2 := by
  rw [peer?_onPeer same, found, Option.map_some, if_pos rfl]

theorem peer?_onJoined {peer : Peer κ ν ω} {client : Client κ ν ω}
    (found : net.peer? id = some peer) (stage : peer.stage = .joined client)
    {work : Client κ ν ω → Peer κ ν ω → List (Client.Deed κ) × Peer κ ν ω}
    (keeps : ∀ client peer, (work client peer).2.id = peer.id) :
    (net.onJoined id work).peer? id = some (work client peer).2 := by
  rw [onJoined, peer?_onPeer_of_found found fun p => ?_, whenJoined_of_joined stage]
  obtain ⟨client', -, same⟩ | same := whenJoined_cases id p work
  · rw [same]
    exact keeps client' p
  · rw [same]

theorem peer?_of_le (sound : net.Sound maxFrame) (le : net.desk.manager.nextId ≤ id) :
    net.peer? id = none := by
  refine List.find?_eq_none.2 fun peer mem => ?_
  have less := sound.ids peer mem
  simpa using Nat.ne_of_lt (Nat.lt_of_lt_of_le less le)

theorem peer?_dial (net : Network τ α κ ν ω) (address username : String) (state : ω)
    (id : ConnectionId) :
    (net.dial address username state).peer? id =
      (net.peer? id).or (if net.desk.manager.nextId = id then
        some { id := net.desk.manager.nextId, state, toServer := (Logon.greeting username).toFrame }
      else none) := by
  by_cases same : net.desk.manager.nextId = id <;> simp [peer?, Network.dial, same]

theorem peer?_of_peers (same : after.peers = net.peers) (id : ConnectionId) :
    after.peer? id = (net.peer? id).map fun peer => peer := by
  rw [Option.map_id', peer?, same, peer?]

theorem outgoing_of_peer? {peer : Peer κ ν ω} (found : net.peer? id = some peer) :
    net.outgoing id = peer.stage.outgoing := by
  rw [outgoing, found]
  rfl

theorem outgoing_of_none (absent : net.peer? id = none) : net.outgoing id = [] := by
  rw [outgoing, absent]
  rfl

theorem uttered_of_none (absent : after.peer? id = none) : net.uttered after id = [] := by
  rw [uttered, outgoing_of_none absent, List.drop_nil]

theorem uttered_of_peer? {old peer : Peer κ ν ω} (found : net.peer? id = some old)
    (found' : after.peer? id = some peer) :
    net.uttered after id = peer.stage.outgoing.drop old.stage.outgoing.length := by
  rw [uttered, outgoing_of_peer? found, outgoing_of_peer? found']

theorem uttered_of_stage {old peer : Peer κ ν ω} (found : net.peer? id = some old)
    (found' : after.peer? id = some peer) (same : peer.stage = old.stage) :
    net.uttered after id = [] := by
  rw [uttered_of_peer? found found', same, List.drop_length]

theorem drop_outgoing_of_moved {state : ω} {before after : Stage κ ν ω}
    (moved : before.Moved state after) : after.outgoing.drop before.outgoing.length = [] := by
  cases before with
  | joining reader =>
    cases after with
    | joined client =>
      obtain ⟨-, -, context⟩ := moved
      simp [Stage.outgoing, Client.desk, context]
    | _ => rfl
  | joined client =>
    cases after with
    | joined client' =>
      obtain ⟨-, -, -, context⟩ := moved
      simp [Stage.outgoing, Client.desk, context]
    | _ => cases moved
  | failed error =>
    obtain ⟨error', rfl⟩ := moved
    rfl

end Steps

end Network

end Parley
