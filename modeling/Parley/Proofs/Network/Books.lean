import Parley.Proofs.Network.Downstream

/-! What the clients of a network know of their listeners.
The book of every client tells of all that its listeners were told, and every answer that a
listener was given had been posted for it. -/

namespace Parley.Network

open Client (Acted Call Deed informed parked)
open Connection (Arrival Lull WriteAnswer)
open Wire (Bytes)

/-- No client has registered more listeners than there are request ids. -/
def Few (history : List (Event κ)) : Prop :=
  ∀ id, (parked (deedsOf id history)).length < 2 ^ 32

def Peer.Balanced (history : List (Event κ)) (peer : Peer κ ν ω) : Prop :=
  match peer.stage with
  | .joined client => client.desk.director.Accounts client.oid
    (parked (deedsOf peer.id history)) (informed (deedsOf peer.id history))
  | _ => deedsOf peer.id history = []

/-- The outcomes of listeners come from answers for their tokens, which were posted if the frames of
the server can tell how long they are; and every call has the tokens that it should have. -/
structure Backed (maxFrame : Nat) (history : List (Event κ)) (deeds : List (Deed κ)) : Prop where
  causes : ∀ token name response, .heard token name (some response) ∈ deeds →
    response.token = token ∧ (maxFrame < 256 ^ Wire.headerLength → response ∈ posted history)
  tokens : ∀ call request tokens, .begun call request tokens ∈ deeds →
    call.Tokens request tokens

structure Balanced (maxFrame : Nat) (peers : List (Peer κ ν ω)) (history : List (Event κ)) :
    Prop where
  books : ∀ peer ∈ peers, peer.Balanced history
  strangers : ∀ id, (∀ peer ∈ peers, peer.id ≠ id) → deedsOf id history = []
  backed : ∀ id, Backed maxFrame history (deedsOf id history)
  answers : ∀ id request responses, .dispatched id request responses ∈ history →
    ∀ response ∈ responses, response.token ∈ request.args.tokens ∧
      .granted id response.token.callerOid ∈ history

variable {maxFrame : Nat} {history history' : List (Event κ)} {deeds : List (Deed κ)}
  {id other : ConnectionId} {peer : Peer κ ν ω} {net : Network τ α κ ν ω}
  {code : Client.Code κ ν ω}

theorem mem_deedsOf {deed : Deed κ} : deed ∈ deedsOf id history ↔ .did id deed ∈ history := by
  unfold deedsOf
  rw [List.mem_filterMap]
  refine ⟨fun found => ?_, fun mem => ⟨_, mem, if_pos rfl⟩⟩
  obtain ⟨event, mem, known⟩ := found
  cases event with
  | did id' deed' =>
    by_cases same : id' = id
    · obtain rfl : deed' = deed := by simpa [same] using known
      exact same ▸ mem
    · simp [same] at known
  | _ => cases known

theorem deedsOf_append (history more : List (Event κ)) :
    deedsOf id (history ++ more) = deedsOf id history ++ deedsOf id more := List.filterMap_append

theorem deedsOf_did (deeds : List (Deed κ)) : deedsOf id (deeds.map (.did id)) = deeds := by
  induction deeds with
  | nil => rfl
  | cons deed rest ih =>
    simp only [deedsOf, List.map_cons, List.filterMap_cons, ↓reduceIte]
    exact congrArg (deed :: ·) ih

theorem deedsOf_did_of_ne (deeds : List (Deed κ)) (apart : other ≠ id) :
    deedsOf other (deeds.map (.did id)) = [] := by
  rw [deedsOf, List.filterMap_map, List.filterMap_eq_nil_iff]
  exact fun deed _ => if_neg apart.symm

theorem deedsOf_serverEvents (server : Server τ α) (command : Server.Command) :
    deedsOf id (serverEvents server command : List (Event κ)) = [] := by
  rw [List.eq_nil_iff_forall_not_mem]
  intro deed mem
  rw [mem_deedsOf] at mem
  cases command with
  | handleRequest connection request => cases List.mem_singleton.1 mem
  | _ =>
    obtain ⟨_, _, same⟩ := List.mem_map.1 mem
    cases same

theorem few_iff :
    (history.all fun
      | .did id _ => (parked (deedsOf id history)).length < 2 ^ 32
      | _ => true) = true ↔ Few history := by
  rw [List.all_eq_true]
  refine ⟨fun all id => ?_, fun few event _ => ?_⟩
  · cases done : deedsOf id history with
    | nil => exact Nat.two_pow_pos 32
    | cons deed rest =>
      have mem : deed ∈ deedsOf id history := done ▸ List.mem_cons_self
      exact done ▸ of_decide_eq_true (all _ (mem_deedsOf.1 mem))
  · cases event with
    | did id deed => exact decide_eq_true (few id)
    | _ => rfl

instance (history : List (Event κ)) : Decidable (Few history) := decidable_of_iff _ few_iff

theorem Few.mono (few : Few history') (earlier : history <+: history') : Few history := by
  intro id
  obtain ⟨more, rfl⟩ := earlier
  have less := few id
  rw [deedsOf_append, Client.parked_append, List.length_append] at less
  omega

theorem Peer.Balanced.grow {more : List (Event κ)} (balanced : peer.Balanced history)
    (silent : deedsOf peer.id more = []) : peer.Balanced (history ++ more) := by
  unfold Peer.Balanced at balanced ⊢
  rwa [deedsOf_append, silent, List.append_nil]

theorem Peer.Balanced.keep {client : Client κ ν ω} (stage : peer.stage = .joined client)
    (balanced : peer.Balanced history) (client' : Client κ ν ω) (oid : client'.oid = client.oid)
    (kept : ∀ oid given told, client.desk.director.Accounts oid given told →
      client'.desk.director.Accounts oid given told) (toServer : Bytes)
    (calls : List (Request × List Token)) :
    { peer with stage := .joined client', toServer, calls }.Balanced history := by
  unfold Peer.Balanced at balanced ⊢
  rw [stage] at balanced
  dsimp only at balanced ⊢
  rw [oid]
  exact kept _ _ _ balanced

theorem Peer.Balanced.act {client : Client κ ν ω} (stage : peer.stage = .joined client)
    (balanced : peer.Balanced history) (client' : Client κ ν ω) (oid : client'.oid = client.oid)
    {answer : Option Response} (acted : Acted answer deeds client.desk client'.desk)
    (few : Few (history ++ deeds.map (Event.did peer.id))) (calls : List (Request × List Token)) :
    { peer with stage := .joined client', calls }.Balanced
      (history ++ deeds.map (Event.did peer.id)) := by
  have less := few peer.id
  unfold Peer.Balanced at balanced ⊢
  rw [stage] at balanced
  dsimp only at balanced ⊢
  rw [deedsOf_append, deedsOf_did, Client.parked_append] at less ⊢
  rw [oid, Client.informed_append]
  exact acted.accounts _ _ _ balanced less

theorem Backed.mono (backed : Backed maxFrame history deeds) (sub : history ⊆ history') :
    Backed maxFrame history' deeds := by
  refine ⟨fun token name response mem => ?_, backed.tokens⟩
  obtain ⟨own, known⟩ := backed.causes token name response mem
  exact ⟨own, fun small => posted_mono sub (known small)⟩

theorem Backed.append {more : List (Deed κ)} (backed : Backed maxFrame history deeds)
    (others : Backed maxFrame history more) : Backed maxFrame history (deeds ++ more) := by
  refine ⟨fun token name response mem => ?_, fun call request tokens mem => ?_⟩
  · exact (List.mem_append.1 mem).elim (backed.causes token name response)
      (others.causes token name response)
  · exact (List.mem_append.1 mem).elim (backed.tokens call request tokens)
      (others.tokens call request tokens)

theorem Backed.nil : Backed maxFrame history [] := by
  refine ⟨fun _ _ _ mem => ?_, fun _ _ _ mem => ?_⟩
  all_goals cases mem

theorem backed_of_acted {answer : Option Response} {before after : Client.Desk κ ω}
    (acted : Acted answer deeds before after)
    (given : maxFrame < 256 ^ Wire.headerLength →
      ∀ response, answer = some response → response ∈ posted history) :
    Backed maxFrame history deeds := by
  refine ⟨fun token name response mem => ?_, acted.tokens⟩
  obtain ⟨same, own⟩ := acted.causes token name response mem
  exact ⟨own, fun small => given small response same⟩

theorem Balanced.nil : Balanced maxFrame ([] : List (Peer κ ν ω)) [] :=
  ⟨List.forall_mem_nil _, fun _ _ => rfl, fun _ => .nil,
    fun _ _ _ mem => (List.not_mem_nil mem).elim⟩

theorem Balanced.onPeer (balanced : Balanced maxFrame net.peers net.history)
    {work : Peer κ ν ω → List (Event κ) × Peer κ ν ω}
    (same : ∀ peer ∈ net.peers, (work peer).2.id = peer.id)
    (deeds : ∀ peer ∈ net.peers, ∃ deeds, (work peer).1 = deeds.map (.did id) ∧
      Backed maxFrame net.history deeds)
    (own : ∀ peer ∈ net.peers, peer.id = id →
      (net.onPeer id work).history = net.history ++ (work peer).1 →
      peer.Balanced net.history → (work peer).2.Balanced (net.history ++ (work peer).1)) :
    Balanced maxFrame (net.onPeer id work).peers (net.onPeer id work).history := by
  have silent {other : ConnectionId} (apart : other ≠ id) :
      ∀ peer ∈ net.peers, deedsOf other (work peer).1 = [] := by
    intro peer mem
    obtain ⟨deeds, events, -⟩ := deeds peer mem
    rw [events]
    exact deedsOf_did_of_ne deeds apart
  have books := forall_onPeer (P := fun history peer => peer.Balanced history) balanced.books
    (fun peer mem p _ apart balanced => balanced.grow (silent apart peer mem)) own
  obtain unchanged | ⟨peer, mem, here, history⟩ := net.onPeer_spec id work
  · rwa [unchanged]
  refine ⟨books, fun other unknown => ?_, fun other => ?_, ?_⟩
  all_goals rw [history]
  · have ids : (net.onPeer id work).peers.map (·.id) = net.peers.map (·.id) :=
      map_id_onPeer same
    have unknown' (p : Peer κ ν ω) (mem : p ∈ net.peers) : p.id ≠ other := by
      have mem' : p.id ∈ (net.onPeer id work).peers.map (·.id) := ids ▸ List.mem_map_of_mem mem
      obtain ⟨q, known, same⟩ := List.mem_map.1 mem'
      exact same ▸ unknown q known
    rw [deedsOf_append, balanced.strangers other unknown', List.nil_append]
    exact silent (fun same => unknown' peer mem (here.trans same.symm)) peer mem
  · have known := (balanced.backed other).mono (List.subset_append_left _ (work peer).1)
    rw [deedsOf_append]
    by_cases here' : other = id
    · obtain ⟨deeds, events, backed⟩ := deeds peer mem
      rw [here', events, deedsOf_did, ← events]
      exact (here' ▸ known).append (backed.mono (List.subset_append_left _ (work peer).1))
    · rwa [silent here' peer mem, List.append_nil]
  · intro other request responses known response mem'
    obtain known | known := List.mem_append.1 known
    · exact (balanced.answers other request responses known response mem').imp_right
        (List.mem_append_left _)
    · obtain ⟨deeds, events, -⟩ := deeds peer mem
      rw [events] at known
      obtain ⟨deed, -, same⟩ := List.mem_map.1 known
      cases same

theorem Balanced.quiet (balanced : Balanced maxFrame net.peers net.history)
    {work : Peer κ ν ω → List (Event κ) × Peer κ ν ω} (silent : ∀ peer, (work peer).1 = [])
    (own : ∀ peer ∈ net.peers, (work peer).2.id = peer.id ∧
      (peer.Balanced net.history → (work peer).2.Balanced net.history)) :
    Balanced maxFrame (net.onPeer id work).peers (net.onPeer id work).history := by
  refine balanced.onPeer (fun peer mem => (own peer mem).1)
    (fun peer _ => ⟨[], silent peer, .nil⟩) fun peer mem _ _ balanced => ?_
  rw [silent, List.append_nil]
  exact (own peer mem).2 balanced

theorem Balanced.onJoined (balanced : Balanced maxFrame net.peers net.history)
    {work : Client κ ν ω → Peer κ ν ω → List (Deed κ) × Peer κ ν ω}
    (same : ∀ client peer, (work client peer).2.id = peer.id)
    (own : ∀ client, ∀ peer ∈ net.peers, peer.stage = .joined client →
      Backed maxFrame net.history (work client peer).1 ∧ (peer.id = id →
        (net.onJoined id work).history = net.history ++ (work client peer).1.map (.did id) →
        peer.Balanced net.history →
        (work client peer).2.Balanced (net.history ++ (work client peer).1.map (.did id)))) :
    Balanced maxFrame (net.onJoined id work).peers (net.onJoined id work).history := by
  refine balanced.onPeer (fun peer _ => ?_) (fun peer mem => ?_)
    fun peer mem here history known => ?_
  all_goals obtain ⟨client, stage, acted⟩ | idle := whenJoined_cases id peer work
  · rw [acted]
    exact same client peer
  · rw [idle]
  · rw [acted]
    exact ⟨_, rfl, (own client peer mem stage).1⟩
  · rw [idle]
    exact ⟨[], rfl, .nil⟩
  · rw [acted] at history ⊢
    exact (own client peer mem stage).2 here history known
  · rw [idle]
    exact known.grow rfl

theorem Balanced.onClient (balanced : Balanced maxFrame net.peers net.history)
    {work : Client κ ν ω → List (Deed κ) × Client κ ν ω}
    (few : Few (net.onClient id work).history) (oid : ∀ client, (work client).2.oid = client.oid)
    (acted : ∀ peer ∈ net.peers, ∀ client, peer.stage = .joined client → ∃ answer,
      Acted answer (work client).1 client.desk (work client).2.desk ∧
      (maxFrame < 256 ^ Wire.headerLength →
        ∀ response, answer = some response → response ∈ posted net.history)) :
    Balanced maxFrame (net.onClient id work).peers (net.onClient id work).history := by
  refine balanced.onJoined (fun _ _ => rfl) fun client peer mem stage => ?_
  obtain ⟨answer, acted, given⟩ := acted peer mem client stage
  refine ⟨backed_of_acted acted given, fun here history known => ?_⟩
  unfold Network.onClient at few
  rw [history] at few
  subst here
  exact Peer.Balanced.act stage known _ (oid client) acted few peer.calls

theorem Balanced.dial (balanced : Balanced maxFrame net.peers net.history)
    (sound : net.Sound maxFrame) (address username : String) (state : ω) :
    Balanced maxFrame (net.dial address username state).peers
      (net.dial address username state).history := by
  have silent (id : ConnectionId) :
      deedsOf id [(.dialled net.desk.manager.nextId username : Event κ)] = [] := rfl
  have new : deedsOf net.desk.manager.nextId net.history = [] :=
    balanced.strangers _ fun peer mem => Nat.ne_of_lt (sound.ids peer mem)
  refine ⟨fun peer mem => ?_, fun id unknown => ?_, fun id => ?_, ?_⟩
  · obtain mem | mem := List.mem_append.1 mem
    · exact (balanced.books peer mem).grow (silent peer.id)
    · obtain rfl := List.mem_singleton.1 mem
      exact (deedsOf_append net.history _).trans (List.append_eq_nil_iff.2 ⟨new, silent _⟩)
  · refine (deedsOf_append net.history _).trans (List.append_eq_nil_iff.2 ⟨?_, silent _⟩)
    exact balanced.strangers id fun peer mem => unknown peer (List.mem_append_left _ mem)
  · have known := (balanced.backed id).mono
      (List.subset_append_left _ [.dialled net.desk.manager.nextId username])
    rwa [Network.dial, deedsOf_append, silent, List.append_nil]
  · intro id request responses known response mem
    obtain known | known := List.mem_append.1 known
    · exact (balanced.answers id request responses known response mem).imp_right
        (List.mem_append_left _)
    · cases List.mem_singleton.1 known

theorem Balanced.serve (balanced : Balanced maxFrame net.peers net.history)
    (sound : net.Sound maxFrame) : Balanced maxFrame net.serve.peers net.serve.history := by
  cases next : net.hall.pending with
  | nil => rwa [serve_of_idle next]
  | cons command rest =>
    rw [serve_of_pending next]
    have sub : net.history ⊆ net.history ++ serverEvents net.server command :=
      List.subset_append_left _ _
    have silent (id : ConnectionId) :
        deedsOf id (net.history ++ serverEvents net.server command) = deedsOf id net.history := by
      rw [deedsOf_append, deedsOf_serverEvents, List.append_nil]
    refine ⟨fun peer mem => ?_, fun id unknown => ?_, fun id => ?_, ?_⟩
    all_goals dsimp only
    · exact (balanced.books peer mem).grow (deedsOf_serverEvents _ _)
    · rw [silent]
      exact balanced.strangers id unknown
    · rw [silent]
      exact (balanced.backed id).mono sub
    · intro id request responses known response mem
      obtain known | known := List.mem_append.1 known
      · exact (balanced.answers id request responses known response mem).imp_right (sub ·)
      · cases command with
        | handleRequest connection asked =>
          obtain ⟨rfl, rfl, rfl⟩ := Event.dispatched.inj (List.mem_singleton.1 known)
          exact (sound.ready.granted_of_answers mem).imp_right (sub ·)
        | _ =>
          obtain ⟨_, _, same⟩ := List.mem_map.1 known
          cases same

theorem Peer.Balanced.moved {peer' : Peer κ ν ω} (balanced : peer.Balanced history)
    (moved : peer.Moved peer') : peer'.Balanced history := by
  unfold Peer.Balanced at balanced ⊢
  rw [moved.id]
  replace moved := moved.stage
  cases stage : peer.stage with
  | joining reader =>
    rw [stage] at balanced moved
    cases stage' : peer'.stage with
    | joined client =>
      rw [stage'] at moved
      obtain ⟨-, -, context⟩ := moved
      dsimp only at balanced ⊢
      rw [balanced, Client.desk, context]
      exact .start client.oid
    | _ => exact balanced
  | joined client =>
    rw [stage] at balanced moved
    cases stage' : peer'.stage with
    | joined client' =>
      rw [stage'] at moved
      obtain ⟨oid, -, -, context⟩ := moved
      dsimp only at balanced ⊢
      rwa [oid, Client.desk, context]
    | _ =>
      rw [stage'] at moved
      cases moved
  | failed error =>
    rw [stage] at balanced moved
    obtain ⟨error', stage'⟩ := moved
    rw [stage']
    exact balanced

theorem Balanced.still (balanced : Balanced maxFrame net.peers net.history)
    {work : Client κ ν ω → Peer κ ν ω → List (Deed κ) × Peer κ ν ω}
    (same : ∀ client peer, (work client peer).2.id = peer.id)
    (silent : ∀ client peer, (work client peer).1 = [])
    (own : ∀ client peer, peer.stage = .joined client → peer.Balanced net.history →
      (work client peer).2.Balanced net.history) :
    Balanced maxFrame (net.onJoined id work).peers (net.onJoined id work).history := by
  refine balanced.onJoined same fun client peer _ stage => ?_
  rw [silent]
  refine ⟨.nil, fun _ _ known => ?_⟩
  rw [List.map_nil, List.append_nil]
  exact own client peer stage known

theorem Balanced.clientWrites (balanced : Balanced maxFrame net.peers net.history)
    (id : ConnectionId) (answers : List WriteAnswer) :
    Balanced maxFrame (net.clientWrites id answers).peers
      (net.clientWrites id answers).history := by
  refine balanced.still (fun _ _ => rfl) (fun _ _ => rfl) fun client peer stage known => ?_
  have wrote := client.wrote_write answers
  refine Peer.Balanced.keep stage known _ wrote.oid (fun _ _ _ accounts => ?_) _ _
  rwa [wrote.director]

theorem Balanced.conclude (balanced : Balanced maxFrame net.peers net.history) (id : ConnectionId)
    (index : Nat) :
    Balanced maxFrame (net.conclude id index).peers (net.conclude id index).history := by
  refine balanced.still (fun client peer => ?_) (fun client peer => ?_)
    fun client peer stage known => ?_
  · split <;> rfl
  · split <;> rfl
  · split
    · rename_i request tokens _
      exact Peer.Balanced.keep stage known
        (client.setDesk (client.desk.conclude request tokens).2) rfl
        (client.desk.conclude_spec request tokens).1 peer.toServer (peer.calls.eraseIdx index)
    · exact known

theorem Balanced.begin (balanced : Balanced maxFrame net.peers net.history) (id : ConnectionId)
    (call : Call κ) (few : Few (net.begin id call).history) :
    Balanced maxFrame (net.begin id call).peers (net.begin id call).history := by
  refine balanced.onJoined (fun _ _ => rfl) fun client peer _ stage => ?_
  have acted := client.desk.acted_begin call
  refine ⟨backed_of_acted acted fun _ => nofun, fun here history known => ?_⟩
  unfold Network.begin at few
  rw [history] at few
  subst here
  exact Peer.Balanced.act stage known
    (client.setDesk { client.desk with director := (client.desk.director.begin call).2 }) rfl
    acted few (peer.calls ++ (client.desk.director.begin call).1.toOption.toList)

theorem Balanced.clientRuns (balanced : Balanced maxFrame net.peers net.history)
    (sound : net.Sound maxFrame) (lawful : code.Lawful)
    (few : Few (net.onClient id (runOne code)).history) :
    Balanced maxFrame (net.onClient id (runOne code)).peers
      (net.onClient id (runOne code)).history := by
  refine balanced.onClient few (fun client => ?_) fun peer mem client stage => ?_
  · cases next : client.queue.pending with
    | nil => rw [runOne_of_idle code next]
    | cons command rest => rw [runOne_of_pending code next]
  · cases next : client.queue.pending with
    | nil =>
      rw [runOne_of_idle code next]
      exact ⟨none, .refl _, fun _ => nofun⟩
    | cons command rest =>
      rw [runOne_of_pending code next]
      refine ⟨_, client.queue.context.acted_perform lawful command, fun small response same => ?_⟩
      have listens := sound.listens small peer mem
      unfold Peer.Listens at listens
      rw [stage] at listens
      refine listens.2.2 response (next ▸ ?_)
      cases command with
      | respond answer =>
        obtain rfl := Option.some.inj same
        exact List.mem_cons_self
      | _ => cases same

theorem Balanced.idle (balanced : Balanced maxFrame net.peers net.history)
    {work : Client κ ν ω → List (Deed κ) × Client κ ν ω} (silent : ∀ client, (work client).1 = [])
    (oid : ∀ client, (work client).2.oid = client.oid)
    (director : ∀ client, (work client).2.desk.director = client.desk.director) :
    Balanced maxFrame (net.onClient id work).peers (net.onClient id work).history := by
  refine balanced.still (fun _ _ => rfl) (fun client _ => silent client)
    fun client peer stage known => ?_
  refine Peer.Balanced.keep stage known (work client).2 (oid client) ?_ peer.toServer peer.calls
  exact fun _ _ _ accounts => director client ▸ accounts

theorem Balanced.perform (balanced : Balanced maxFrame net.peers net.history)
    (sound : net.Sound maxFrame) (lawful : code.Lawful) {action : Action κ ν ω}
    (few : Few (net.perform code action).history) :
    Balanced maxFrame (net.perform code action).peers (net.perform code action).history := by
  cases action with
  | dial address username state => exact balanced.dial sound address username state
  | serverReads id lull arrivals =>
    rw [Network.perform]
    unfold Network.serverReads
    split
    · exact balanced.quiet (fun _ => rfl) fun _ _ => ⟨rfl, fun balanced => balanced⟩
    · exact balanced
  | serverWrites id answers =>
    exact balanced.quiet (fun _ => rfl) fun _ _ => ⟨rfl, fun balanced => balanced⟩
  | notify =>
    rw [Network.perform]
    unfold Network.notify
    split
    all_goals exact balanced
  | serve => exact balanced.serve sound
  | clientReads id lull arrivals =>
    refine balanced.quiet (fun _ => rfl) fun peer mem => ?_
    exact ⟨(peer.moved_read lull arrivals).id, (·.moved (peer.moved_read lull arrivals))⟩
  | clientWrites id answers => exact balanced.clientWrites id answers
  | clientRuns id => exact balanced.clientRuns sound lawful few
  | begin id call => exact balanced.begin id call few
  | conclude id index => exact balanced.conclude id index
  | duplicate id response =>
    rw [Network.perform] at few ⊢
    split
    · rename_i given
      rw [if_pos given] at few
      refine balanced.onClient few (fun _ => rfl) fun peer _ client _ => ?_
      refine ⟨some response, client.desk.acted_dispatch lawful response, fun _ response same => ?_⟩
      exact Option.some.inj same ▸ given
    · exact balanced
  | observe id name =>
    refine balanced.idle (fun _ => rfl) (fun _ => rfl) fun client => ?_
    exact congrArg (·.desk.director) (client.queue.context_enqueue (.addObserver name))
  | serverCloses id => exact balanced
  | wait milliseconds => exact balanced
  | stopServing => exact balanced
  | ping id time => exact balanced.idle (fun _ => rfl) (fun _ => rfl) fun _ => rfl
  | logoff id => exact balanced.idle (fun _ => rfl) (fun _ => rfl) fun _ => rfl
  | stopQueue id => exact balanced.idle (fun _ => rfl) (fun _ => rfl) fun _ => rfl
  | stopWriting id => exact balanced.idle (fun _ => rfl) (fun _ => rfl) fun _ => rfl

end Parley.Network
