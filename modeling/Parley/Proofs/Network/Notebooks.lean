import Parley.Proofs.Client.Hearings
import Parley.Proofs.Network.Books
import Parley.Proofs.Network.Journal

/-! A network of clients that take notes.
It goes through the states that it goes through without the notes, and every listener has noted just
what its client's deeds say that it has heard. -/

namespace Parley.Network

open Client (Code Deed Noted Voiced Word hearings)

/-! The same states, with other states of the clients' own code. -/

section Map

variable (f : ω → ω')

def Stage.map : Stage κ ν ω → Stage κ ν ω'
  | .joining reader => .joining reader
  | .joined client => .joined (client.map f)
  | .failed error => .failed error

def Peer.map (peer : Peer κ ν ω) : Peer κ ν ω' :=
  { peer with state := f peer.state, stage := peer.stage.map f }

def map (net : Network τ α κ ν ω) : Network τ α κ ν ω' :=
  { net with peers := net.peers.map (Peer.map f) }

def Action.map : Action κ ν ω → Action κ ν ω'
  | .dial address username state => .dial address username (f state)
  | .serverReads id lull arrivals => .serverReads id lull arrivals
  | .serverWrites id answers => .serverWrites id answers
  | .serverCloses id => .serverCloses id
  | .notify => .notify
  | .serve => .serve
  | .wait milliseconds => .wait milliseconds
  | .stopServing => .stopServing
  | .clientReads id lull arrivals => .clientReads id lull arrivals
  | .clientWrites id answers => .clientWrites id answers
  | .clientRuns id => .clientRuns id
  | .begin id call => .begin id call
  | .conclude id index => .conclude id index
  | .ping id time => .ping id time
  | .logoff id => .logoff id
  | .observe id name => .observe id name
  | .duplicate id response => .duplicate id response
  | .stopQueue id => .stopQueue id
  | .stopWriting id => .stopWriting id

variable {f} {net : Network τ α κ ν ω} {id : ConnectionId}

theorem find?_map (peers : List (Peer κ ν ω)) :
    (peers.map (Peer.map f)).find? (·.id = id) = (peers.find? (·.id = id)).map (Peer.map f) :=
  List.find?_map ..

theorem map_onPeer {work : Peer κ ν ω → List (Event κ) × Peer κ ν ω}
    {work' : Peer κ ν ω' → List (Event κ) × Peer κ ν ω'}
    (same : ∀ peer, work' (peer.map f) = ((work peer).1, (work peer).2.map f)) :
    (net.onPeer id work).map f = (net.map f).onPeer id work' := by
  have found : (net.map f).peers.find? (·.id = id) =
      (net.peers.find? (·.id = id)).map (Peer.map f) := find?_map net.peers
  unfold onPeer
  rw [found]
  cases net.peers.find? (·.id = id) with
  | none => rfl
  | some peer =>
    dsimp only [Option.map_some]
    rw [same]
    unfold map
    dsimp only
    congr 1
    rw [List.map_map, List.map_map]
    refine List.map_congr_left fun p _ => ?_
    have key : (p.map f).id = p.id := rfl
    rw [Function.comp_apply, Function.comp_apply, key]
    split <;> rfl

theorem map_onJoined {work : Client κ ν ω → Peer κ ν ω → List (Deed κ) × Peer κ ν ω}
    {work' : Client κ ν ω' → Peer κ ν ω' → List (Deed κ) × Peer κ ν ω'}
    (same : ∀ client peer, work' (client.map f) (peer.map f) =
      ((work client peer).1, (work client peer).2.map f)) :
    (net.onJoined id work).map f = (net.map f).onJoined id work' := by
  refine map_onPeer fun peer => ?_
  unfold whenJoined
  cases stage : peer.stage with
  | joined client =>
    have stage' : (peer.map f).stage = .joined (client.map f) := congrArg (Stage.map f) stage
    rw [stage']
    dsimp only
    rw [same]
  | joining reader =>
    have stage' : (peer.map f).stage = .joining reader := congrArg (Stage.map f) stage
    rw [stage']
  | failed error =>
    have stage' : (peer.map f).stage = .failed error := congrArg (Stage.map f) stage
    rw [stage']

theorem map_onClient {work : Client κ ν ω → List (Deed κ) × Client κ ν ω}
    {work' : Client κ ν ω' → List (Deed κ) × Client κ ν ω'}
    (same : ∀ client, work' (client.map f) = ((work client).1, (work client).2.map f)) :
    (net.onClient id work).map f = (net.map f).onClient id work' := by
  refine map_onJoined fun client peer => ?_
  rw [same]
  rfl

theorem Peer.map_read (peer : Peer κ ν ω) (lull : Connection.Lull)
    (arrivals : List Connection.Arrival) :
    (peer.map f).read lull arrivals = (peer.read lull arrivals).map f := by
  have toClient : (peer.map f).toClient = peer.toClient := rfl
  have stage : (peer.map f).stage = peer.stage.map f := rfl
  unfold Peer.read
  rw [toClient, stage]
  rcases Connection.turn lull peer.toClient arrivals with ⟨answers, rest⟩
  cases peer.stage with
  | joining reader =>
    dsimp only [Stage.map]
    rcases Client.Logon.proceed reader answers with
      ⟨reader | ⟨oid, services, reader⟩ | error, later⟩
    · rfl
    · have read := (Client.new oid services reader peer.state : Client κ ν ω).read_map f later
      exact congrArg (fun client => ({ peer.map f with stage := .joined client, toClient := rest } :
        Peer κ ν ω')) read
    · rfl
  | joined client =>
    have reading : (client.map f).reading = client.reading := rfl
    dsimp only [Stage.map]
    rw [reading, client.read_map]
    split <;> rfl
  | failed error => rfl

end Map

section Noting

variable {code : Code κ ν ω} {net : Network τ α κ ν (Noted κ ω)}

theorem map_runOne (client : Client κ ν (Noted κ ω)) :
    runOne code (client.map Noted.state) =
      ((runOne code.noting client).1, (runOne code.noting client).2.map Noted.state) := by
  have pending : (client.map Noted.state).queue.pending = client.queue.pending := rfl
  cases next : client.queue.pending with
  | nil => rw [runOne_of_idle code (pending.trans next), runOne_of_idle code.noting next]
  | cons command rest =>
    have context : client.queue.context = (client.map Noted.state).queue.context.noted
      client.desk.state.notes := rfl
    obtain ⟨same, new, ran, -⟩ := (client.map Noted.state).queue.context.deeds_noting code
      client.desk.state.notes command
    rw [runOne_of_pending code (pending.trans next), runOne_of_pending code.noting next, context,
      same, ran]
    rfl

theorem map_perform (action : Action κ ν (Noted κ ω)) :
    (net.perform code.noting action).map Noted.state =
      (net.map Noted.state).perform code (action.map Noted.state) := by
  cases action
  all_goals dsimp only [Network.perform, Action.map]
  case dial address username state => 
    unfold map dial
    dsimp only
    rw [List.map_append]
    rfl
  case serverReads id lull arrivals =>
    have desk : (net.map Noted.state).desk = net.desk := rfl
    have known : (net.map Noted.state).peers.find? (·.id = id) =
      (net.peers.find? (·.id = id)).map (Peer.map Noted.state) := find?_map net.peers
    unfold serverReads
    rw [known, desk]
    cases found : net.peers.find? (·.id = id) with
    | none => rfl
    | some peer =>
      cases found' : net.desk.manager.find? id with
      | none => rfl
      | some connection =>
        have moved (toServer : Wire.Bytes) :
            (net.onPeer id fun peer => ([], { peer with toServer })).map Noted.state =
              (net.map Noted.state).onPeer id fun peer => ([], { peer with toServer }) :=
          map_onPeer fun _ => rfl
        exact congrArg (fun after : Network τ α κ ν ω =>
          { after with desk := net.desk.read id (Connection.turn lull peer.toServer arrivals).1 })
          (moved _)
  case serverWrites id answers =>
    have moved (written : Wire.Bytes) : (net.onPeer id fun peer =>
        ([], { peer with toClient := peer.toClient ++ written })).map Noted.state =
          (net.map Noted.state).onPeer id fun peer =>
            ([], { peer with toClient := peer.toClient ++ written }) :=
      map_onPeer fun _ => rfl
    exact congrArg (fun after : Network τ α κ ν ω =>
      { after with desk := (net.desk.flush id answers).2 }) (moved _)
  case notify =>
    have desk : (net.map Noted.state).desk = net.desk := rfl
    unfold notify
    rw [desk]
    rcases net.desk.notices with _ | ⟨notice, rest⟩ <;> rfl
  case serve =>
    have pending : (net.map Noted.state).hall.pending = net.hall.pending := rfl
    cases next : net.hall.pending with
    | nil => rw [serve_of_idle next, serve_of_idle (pending.trans next)]
    | cons command rest =>
      rw [serve_of_pending next, serve_of_pending (pending.trans next)]
      rfl
  case clientReads id lull arrivals =>
    exact map_onPeer fun peer => congrArg (Prod.mk []) (peer.map_read lull arrivals)
  case clientWrites id answers =>
    refine map_onJoined fun client peer => ?_
    rw [client.write_map]
    rfl
  case clientRuns id => exact map_onClient map_runOne
  case begin id call => exact map_onJoined fun client peer => rfl
  case conclude id index =>
    refine map_onJoined fun client peer => ?_
    have calls : (peer.map Noted.state).calls = peer.calls := rfl
    have desk : client.desk = (client.map Noted.state).desk.noted client.desk.state.notes := rfl
    rw [calls]
    cases peer.calls[index]? with
    | none => rfl
    | some call =>
      have concluded := (client.map Noted.state).desk.conclude_noted call.1 call.2
        client.desk.state.notes
      dsimp only
      rw [desk, concluded]
      rfl
  case observe id name =>
    refine map_onClient fun client => ?_
    rw [client.enqueue_map]
  case duplicate id response =>
    have history : (net.map Noted.state).history = net.history := rfl
    rw [history]
    split
    · refine map_onClient fun client => ?_
      have desk : client.desk = (client.map Noted.state).desk.noted client.desk.state.notes := rfl
      have listen : code.noting.listen = Client.noting code.listen := rfl
      obtain ⟨same, new, ran, -⟩ := (client.map Noted.state).desk.dispatchDeeds_noting code.listen
        response client.desk.state.notes
      rw [listen, desk, same, ran]
      rfl
    · rfl
  case ping id time => exact map_onClient fun client => rfl
  case logoff id => exact map_onClient fun client => rfl
  case stopQueue id => exact map_onClient fun client => rfl
  case stopWriting id => exact map_onClient fun client => rfl
  case serverCloses id => rfl
  case wait milliseconds => rfl
  case stopServing => rfl

theorem map_run (net : Network τ α κ ν (Noted κ ω)) (actions : List (Action κ ν (Noted κ ω))) :
    (net.run code.noting actions).map Noted.state =
      (net.map Noted.state).run code (actions.map (Action.map Noted.state)) := by
  induction actions generalizing net with
  | nil => rfl
  | cons action rest ih =>
    rw [Network.run, List.foldl_cons]
    exact (ih _).trans
      (congrArg (run code · (rest.map (Action.map Noted.state))) (map_perform action))

end Noting

/-! What the clients note. -/

section Notes

def Peer.notes (peer : Peer κ ν (Noted κ ω)) : List (κ × Word) :=
  match peer.stage with
  | .joined client => client.desk.state.notes
  | _ => peer.state.notes

def notes (net : Network τ α κ ν (Noted κ ω)) (id : ConnectionId) : List (κ × Word) :=
  ((net.peer? id).map Peer.notes).getD []

/-- Between the two, a client has noted what its deeds tell. -/
def Annotated (id : ConnectionId) (before after : Network τ α κ ν (Noted κ ω)) : Prop :=
  ∃ more new, after.history = before.history ++ more ∧ after.notes id = before.notes id ++ new ∧
    List.Forall₂ Voiced (hearings (deedsOf id more)) new

variable {code : Code κ ν ω} {net after : Network τ α κ ν (Noted κ ω)} {id other : ConnectionId}

theorem Annotated.still (id : ConnectionId) {more : List (Event κ)}
    (history : after.history = net.history ++ more) (silent : deedsOf id more = [])
    (same : after.notes id = net.notes id) : Annotated id net after :=
  ⟨more, [], history, by rw [same, List.append_nil], by rw [silent]; exact .nil⟩

theorem Annotated.refl (id : ConnectionId) (net : Network τ α κ ν (Noted κ ω)) :
    Annotated id net net :=
  .still id (List.append_nil _).symm rfl rfl

theorem Annotated.onPeer {work : Peer κ ν (Noted κ ω) → List (Event κ) × Peer κ ν (Noted κ ω)}
    (same : ∀ peer, (work peer).2.id = peer.id)
    (own : ∀ peer, net.peer? other = some peer → ∃ deeds new,
      (work peer).1 = deeds.map (.did other) ∧
      (work peer).2.notes = peer.notes ++ new ∧
      List.Forall₂ Voiced (hearings deeds) new) (id : ConnectionId) :
    Annotated id net (net.onPeer other work) := by
  cases found : net.peer? other with
  | none =>
    have idle : net.onPeer other work = net := by
      unfold peer? at found
      rw [Network.onPeer, found]
    rw [idle]
    exact .refl id net
  | some peer =>
    obtain ⟨deeds, new, events, noted, voiced⟩ := own peer found
    have history : (net.onPeer other work).history = _ := onPeer_of_found found
    rw [events] at history
    have peers : (net.onPeer other work).peer? id = _ := peer?_onPeer same id
    by_cases here : id = other
    · subst here
      refine ⟨_, new, history, ?_, by rwa [deedsOf_did]⟩
      simp only [notes, peers, found, Option.map_some, ↓reduceIte, Option.getD_some, noted]
    · refine .still id history (deedsOf_did_of_ne deeds here) ?_
      simp only [notes, peers, if_neg here, Option.map_id']

theorem Annotated.moved {work : Peer κ ν (Noted κ ω) → List (Event κ) × Peer κ ν (Noted κ ω)}
    (same : ∀ peer, (work peer).2.id = peer.id) (silent : ∀ peer, (work peer).1 = [])
    (kept : ∀ peer, (work peer).2.notes = peer.notes)
    (id : ConnectionId) : Annotated id net (net.onPeer other work) := by
  refine .onPeer same (fun peer _ => ⟨[], [], silent peer, ?_, .nil⟩) id
  rw [kept peer, List.append_nil]

theorem Annotated.onJoined
    {work : Client κ ν (Noted κ ω) → Peer κ ν (Noted κ ω) → List (Deed κ) × Peer κ ν (Noted κ ω)}
    (same : ∀ client peer, (work client peer).2.id = peer.id)
    (own : ∀ client peer, net.peer? other = some peer → peer.stage = .joined client → ∃ new,
      (work client peer).2.notes = client.desk.state.notes ++ new ∧
      List.Forall₂ Voiced (hearings (work client peer).1) new) (id : ConnectionId) :
    Annotated id net (net.onJoined other work) := by
  refine .onPeer (fun peer => ?_) (fun peer found => ?_) id
  all_goals obtain ⟨client, stage, acted⟩ | idle := whenJoined_cases other peer work
  · rw [acted]
    exact same client peer
  · rw [idle]
  · obtain ⟨new, noted, voiced⟩ := own client peer found stage
    rw [acted]
    have before : peer.notes = client.desk.state.notes := by rw [Peer.notes, stage]
    exact ⟨_, new, rfl, before ▸ noted, voiced⟩
  · rw [idle]
    exact ⟨[], [], rfl, (List.append_nil _).symm, .nil⟩

theorem Annotated.onClient
    {work : Client κ ν (Noted κ ω) → List (Deed κ) × Client κ ν (Noted κ ω)}
    (own : ∀ client, ∃ new, (work client).2.desk.state.notes = client.desk.state.notes ++ new ∧
      List.Forall₂ Voiced (hearings (work client).1) new) (id : ConnectionId) :
    Annotated id net (net.onClient other work) := by
  refine .onJoined (fun _ _ => rfl) (fun client _ _ _ => ?_) id
  exact own client

theorem Annotated.idle
    {work : Client κ ν (Noted κ ω) → List (Deed κ) × Client κ ν (Noted κ ω)}
    (silent : ∀ client, hearings (work client).1 = [])
    (state : ∀ client, (work client).2.desk.state = client.desk.state) (id : ConnectionId) :
    Annotated id net (net.onClient other work) := by
  refine .onClient (fun client => ⟨[], ?_, ?_⟩) id
  · rw [state, List.append_nil]
  · rw [silent]
    exact .nil

theorem notes_runOne (client : Client κ ν (Noted κ ω)) :
    ∃ new, (runOne code.noting client).2.desk.state.notes = client.desk.state.notes ++ new ∧
      List.Forall₂ Voiced (hearings (runOne code.noting client).1) new := by
  cases next : client.queue.pending with
  | nil =>
    rw [runOne_of_idle code.noting next]
    exact ⟨[], (List.append_nil _).symm, .nil⟩
  | cons command rest =>
    have context : client.queue.context = (client.map Noted.state).queue.context.noted
      client.desk.state.notes := rfl
    obtain ⟨same, new, ran, voiced⟩ := (client.map Noted.state).queue.context.deeds_noting code
      client.desk.state.notes command
    rw [runOne_of_pending code.noting next, context, ran, same]
    exact ⟨new, rfl, voiced⟩

theorem notes_read (peer : Peer κ ν (Noted κ ω)) (lull : Connection.Lull)
    (arrivals : List Connection.Arrival) : (peer.read lull arrivals).notes = peer.notes := by
  have context (client : Client κ ν (Noted κ ω)) (answers : List Connection.ReadAnswer) :
      (client.read answers).desk = client.desk := (Client.Took.read client answers).desk
  unfold Peer.read
  rcases Connection.turn lull peer.toClient arrivals with ⟨answers, toClient⟩
  cases stage : peer.stage with
  | joining reader =>
    dsimp only
    rcases Client.Logon.proceed reader answers with
      ⟨reader | ⟨oid, services, reader⟩ | error, later⟩
    · simp only [Peer.notes, stage]
    · simp only [Peer.notes, stage, context]
      rfl
    · simp only [Peer.notes, stage]
  | joined client =>
    dsimp only
    split
    · simp only [Peer.notes, stage, context]
    · rfl
  | failed error => rfl

theorem state_write (client : Client κ ν ω) (answers : List Connection.WriteAnswer) :
    (client.write answers).2.desk.state = client.desk.state := by
  unfold Client.write
  split
  · rfl
  · dsimp only
    split <;> rfl

theorem state_conclude (desk : Client.Desk κ ω) (request : Request) (tokens : List Token) :
    (desk.conclude request tokens).2.state = desk.state := by
  unfold Client.Desk.conclude
  split <;> rfl

/-- In every step each client notes what its listeners are told. -/
theorem notes_perform (action : Action κ ν ω) (id : ConnectionId) :
    Annotated id net (net.perform code.noting (action.map (⟨·, []⟩))) := by
  cases action
  all_goals dsimp only [Action.map, Network.perform]
  case dial address username state =>
    have peers := peer?_dial net address username ⟨state, []⟩ id
    refine .still id rfl rfl ?_
    unfold notes
    rw [peers]
    cases net.peer? id with
    | some peer => rfl
    | none =>
      dsimp only [Option.none_or]
      split <;> rfl
  case serverReads other lull arrivals =>
    unfold serverReads
    split
    · exact Annotated.moved (fun _ => rfl) (fun _ => rfl) (fun _ => rfl) id
    · exact .refl id net
  case serverWrites other answers =>
    exact Annotated.moved (fun _ => rfl) (fun _ => rfl) (fun _ => rfl) id
  case notify =>
    unfold notify
    split <;> exact .refl id net
  case serve =>
    cases next : net.hall.pending with
    | nil =>
      rw [serve_of_idle next]
      exact .refl id net
    | cons command rest =>
      rw [serve_of_pending next]
      exact .still id rfl (deedsOf_serverEvents _ _) rfl
  case clientReads other lull arrivals =>
    exact .moved (fun peer => (peer.moved_read lull arrivals).id) (fun _ => rfl)
      (fun peer => notes_read peer lull arrivals) id
  case clientWrites other answers =>
    refine .onJoined (fun _ _ => rfl) (fun client _ _ _ => ⟨[], ?_, .nil⟩) id
    rw [List.append_nil]
    exact congrArg Noted.notes (state_write client answers)
  case clientRuns other => exact .onClient notes_runOne id
  case begin other call =>
    refine .onJoined (fun _ _ => rfl) (fun client _ _ _ => ⟨[], (List.append_nil _).symm, ?_⟩) id
    rw [client.desk.hearings_callDeeds]
    exact .nil
  case conclude other index =>
    refine .onJoined (fun client peer => ?_) (fun client peer _ stage => ⟨[], ?_, ?_⟩) id
    · split <;> rfl
    · rw [List.append_nil]
      split
      · exact congrArg Noted.notes (state_conclude client.desk _ _)
      · rw [Peer.notes, stage]
    · split <;> exact .nil
  case observe other name =>
    refine .idle (fun _ => rfl) (fun client => ?_) id
    exact congrArg (·.desk.state) (client.queue.context_enqueue (.addObserver name))
  case duplicate other response =>
    split
    · refine .onClient (fun client => ?_) id
      have desk : client.desk = (client.map Noted.state).desk.noted client.desk.state.notes := rfl
      obtain ⟨same, new, ran, voiced⟩ := (client.map Noted.state).desk.dispatchDeeds_noting
        code.listen response client.desk.state.notes
      have listen : code.noting.listen = Client.noting code.listen := rfl
      rw [listen, desk, same, ran]
      exact ⟨new, rfl, voiced⟩
    · exact .refl id net
  case ping other time => exact .idle (fun _ => rfl) (fun _ => rfl) id
  case logoff other => exact .idle (fun _ => rfl) (fun _ => rfl) id
  case stopQueue other => exact .idle (fun _ => rfl) (fun _ => rfl) id
  case stopWriting other => exact .idle (fun _ => rfl) (fun _ => rfl) id
  case serverCloses other => exact .refl id net
  case wait milliseconds => exact .refl id net
  case stopServing => exact .refl id net

theorem Annotated.trans {first second third : Network τ α κ ν (Noted κ ω)}
    (early : Annotated id first second) (late : Annotated id second third) :
    Annotated id first third := by
  obtain ⟨more, new, history, noted, voiced⟩ := early
  obtain ⟨more', new', history', noted', voiced'⟩ := late
  refine ⟨more ++ more', new ++ new', ?_, ?_, ?_⟩
  · rw [history', history, List.append_assoc]
  · rw [noted', noted, List.append_assoc]
  · rw [deedsOf_append, Client.hearings_append]
    exact List.rel_append voiced voiced'

variable (code)

/-- The network after a run in which the clients take notes. -/
def keepingNotes (net : Network τ α κ ν ω) (actions : List (Action κ ν ω)) :
    Network τ α κ ν (Noted κ ω) :=
  (net.map (⟨·, []⟩)).run code.noting (actions.map (Action.map (⟨·, []⟩)))

theorem notes_keepingNotes_append (net : Network τ α κ ν ω) (early late : List (Action κ ν ω))
    (id : ConnectionId) :
    Annotated id (net.keepingNotes code early) (net.keepingNotes code (early ++ late)) := by
  unfold keepingNotes
  rw [List.map_append, run_append]
  generalize (net.map (⟨·, []⟩)).run code.noting _ = noting
  induction late generalizing noting with
  | nil => exact .refl id noting
  | cons action rest ih => exact (notes_perform action id).trans (ih _)

theorem map_keepingNotes (net : Network τ α κ ν ω) (actions : List (Action κ ν ω)) :
    (net.keepingNotes code actions).map Noted.state = net.run code actions := by
  have start : (net.map fun state => (⟨state, []⟩ : Noted κ ω)).map Noted.state = net := by
    have same : (Peer.map Noted.state ∘ Peer.map fun state => (⟨state, []⟩ : Noted κ ω)) =
        (id : Peer κ ν ω → Peer κ ν ω) := by
      funext ⟨id, state, stage, toServer, toClient, calls⟩
      cases stage <;> rfl
    unfold map
    rw [List.map_map, same, List.map_id]
  have same : (Action.map Noted.state ∘ Action.map fun state => (⟨state, []⟩ : Noted κ ω)) =
      (id : Action κ ν ω → Action κ ν ω) := by
    funext action
    cases action <;> rfl
  rw [keepingNotes, map_run, start, List.map_map, same, List.map_id]

theorem history_keepingNotes (net : Network τ α κ ν ω) (actions : List (Action κ ν ω)) :
    (net.keepingNotes code actions).history = (net.run code actions).history :=
  congrArg Network.history (map_keepingNotes code net actions)

/-- What clients have noted in the end is what their listeners are said to have heard. -/
theorem voiced_keepingNotes (net : Network τ α κ ν ω) (new : net.peers = [])
    (silent : net.history = []) (actions : List (Action κ ν ω)) (id : ConnectionId) :
    List.Forall₂ Voiced (hearings (deedsOf id (net.run code actions).history))
      ((net.keepingNotes code actions).notes id) := by
  obtain ⟨more, told, history, noted, voiced⟩ :=
    notes_keepingNotes_append code net [] actions id
  have blank : (net.keepingNotes code []).notes id = [] := by
    simp [keepingNotes, notes, peer?, Network.run, map, new]
  have empty : (net.keepingNotes code []).history = [] := silent
  rw [List.nil_append, history_keepingNotes code, empty, List.nil_append] at history
  rw [List.nil_append, blank, List.nil_append] at noted
  rwa [history, noted]

end Notes

end Parley.Network
