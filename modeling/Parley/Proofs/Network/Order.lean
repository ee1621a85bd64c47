import Parley.Proofs.Network.Correlation
import Parley.Proofs.Network.Delivery
import Parley.Proofs.Network.Requests

/-! Order, from end to end.
A client runs responses and events in the order in which the server has posted them to it, and the
server runs the requests of a client in the order in which the client has posted them. So all that
was posted to a client by the time it had one of its requests handled is run before the answers to
the next. -/

namespace Parley

namespace Network

open Client (Code Command Deed Voiced hearings isWelcome replies)

def Entry.Handles (entry : Entry ν) (id : ConnectionId) (request : Request) : Prop :=
  entry.served = some (.handleRequest id request)

instance (entry : Entry ν) (id : ConnectionId) (request : Request) :
    Decidable (entry.Handles id request) :=
  inferInstanceAs (Decidable (entry.served = some (.handleRequest id request)))

/-- The answers that the listeners of a client have heard, in the order of the callbacks. -/
def answered (id : ConnectionId) (history : List (Event κ)) : List Response :=
  replies (deedsOf id history)

variable {maxFrame : Nat} {net : Network τ α κ ν ω} {code : Code κ ν ω} {id : ConnectionId}
  {journal : List (Entry ν)} {action : Action κ ν ω}

section Posts

theorem posted_of_same (same : (net.perform code action).desk.outboxes = net.desk.outboxes)
    (id : ConnectionId) : (net.entry code action).posted id = [] := by
  change gained _ (net.perform code action).desk.outboxes id = []
  rw [same]
  exact gained_self _ id

theorem Sound.of_mem_posted {P : ConnectionId → Message → Prop} (sound : net.Sound maxFrame)
    (fine : Legible maxFrame P)
    (grown : net.desk.outboxes.Grown P (net.perform code action).desk.outboxes)
    {message : Message} (mem : message ∈ (net.entry code action).posted id) : P id message := by
  change message ∈ gained _ (net.perform code action).desk.outboxes id at mem
  cases found : net.desk.outboxes.find? id with
  | none =>
    rw [gained_of_absent found] at mem
    cases mem
  | some box =>
    obtain ⟨-, -, -, good⟩ := gained_of_grown grown found
      (by rw [sound.limits id box found]; exact fine id)
    exact (good message mem).2

theorem Sound.pong_of_mem_posted (sound : net.Sound maxFrame) (other : action ≠ .serve)
    {message : Message} (mem : message ∈ (net.entry code action).posted id) :
    Connection.Desk.Pong id message := by
  have silent (none : (net.entry code action).posted id = []) : False := by
    rw [none] at mem
    cases mem
  have idle (same : (net.perform code action).desk.outboxes = net.desk.outboxes) : False :=
    silent (posted_of_same same id)
  cases action with
  | serve => exact (other rfl).elim
  | serverReads id' lull arrivals =>
    exact sound.of_mem_posted legible_pong (grown_serverReads id' lull arrivals) mem
  | serverCloses id' =>
    have grown : net.desk.outboxes.Grown (fun _ _ => False)
        (net.perform code (.serverCloses id')).desk.outboxes := (net.desk.close_spec id').2.1
    exact (sound.of_mem_posted legible_of_none grown mem).elim
  | dial address username state => exact (silent (gained_accept net.desk address id)).elim
  | serverWrites id' answers => exact (silent (gained_flush net.desk id' answers id)).elim
  | notify => exact (idle outboxes_notify).elim
  | duplicate id' response' =>
    refine (idle ?_).elim
    rw [Network.perform]
    split
    · exact congrArg (·.outboxes) desk_onPeer
    · rfl
  | wait milliseconds => exact (idle rfl).elim
  | stopServing => exact (idle rfl).elim
  | _ => exact (idle (congrArg (·.outboxes) desk_onPeer)).elim

/-- A response is posted to nobody but the client whose request is handled, and for a listener that
came with the request. -/
theorem Sound.handles_of_response (sound : net.Sound maxFrame)
    (room : maxFrame < 256 ^ Wire.headerLength) {response : Response}
    (mem : .response response ∈ (net.entry code action).posted id) :
    ∃ request, (net.entry code action).Handles id request ∧
      response.token ∈ request.args.tokens := by
  by_cases serving : action = .serve
  · subst serving
    cases next : net.hall.pending with
    | nil =>
      rw [posted_of_same (congrArg (·.desk.outboxes) (serve_of_idle next))] at mem
      cases mem
    | cons command rest =>
      have grown : net.desk.outboxes.Grown (Server.Answers command)
          (net.perform code .serve).desk.outboxes := by
        rw [Network.perform, serve_of_pending next]
        exact sound.ready.grown_perform command
      obtain ⟨request, rfl, listed⟩ :=
        sound.of_mem_posted (legible_of_room room _) grown mem response rfl
      exact ⟨request, congrArg List.head? next, listed⟩
  · obtain ⟨time, same⟩ := sound.pong_of_mem_posted serving mem
    cases same

end Posts

section Callbacks

variable {before after more : List (Event κ)} {heard : List Response}

/-- What the listeners of a client hear in a step. -/
inductive Voices (code : Code κ ν ω) (net : Network τ α κ ν ω) (action : Action κ ν ω)
    (id : ConnectionId) : List Response → Prop where
  | silent : Voices code net action id []
  | ran (context : Client.Context κ ν ω) (command : Command ν)
      (own : (net.entry code action).ran id = [command]) :
    Voices code net action id (replies (context.deeds code command))
  | again (desk : Client.Desk κ ω) (response : Response) (own : action = .duplicate id response) :
    Voices code net action id (replies (desk.dispatchDeeds code.listen response))

/-- In a step no answer is heard but the one that the client runs in this step. -/
theorem Voices.sublist (voices : Voices code net action id heard) (lawful : code.Lawful)
    (once : ∀ response, action ≠ .duplicate id response) :
    heard.Sublist (((net.entry code action).ran id).filterMap Command.answer?) := by
  cases voices with
  | silent => exact List.nil_sublist _
  | ran context command own =>
    have one : [command].filterMap Command.answer? = command.answer?.toList := by
      cases asked : command.answer? <;> simp [asked]
    rw [own, one]
    exact context.replies_deeds lawful command
  | again desk response own => exact (once response own).elim

theorem Voices.mem (voices : Voices code net action id heard) {response : Response}
    (mem : response ∈ heard) :
    (net.entry code action).ran id = [.respond response] ∨ action = .duplicate id response := by
  cases voices with
  | silent => cases mem
  | ran context command own =>
    refine .inl (own.trans ?_)
    have brought := context.replies_deeds_subset code command mem
    cases command with
    | respond other => rw [List.mem_singleton.1 brought]
    | _ => cases brought
  | again desk other own =>
    rw [List.mem_singleton.1 (desk.replies_dispatch_subset code.listen other mem)]
    exact .inr own

/-- Between two histories the listeners of a client have heard what they hear in the step. -/
def Speaks (code : Code κ ν ω) (net : Network τ α κ ν ω) (action : Action κ ν ω)
    (id : ConnectionId) (after : List (Event κ)) : Prop :=
  ∃ more, after = net.history ++ more ∧ Voices code net action id (replies (deedsOf id more))

theorem Speaks.still (more : List (Event κ)) (history : after = net.history ++ more)
    (idle : deedsOf id more = []) : Speaks code net action id after := by
  refine ⟨more, history, ?_⟩
  rw [idle]
  exact .silent

theorem Speaks.same (same : after = net.history) : Speaks code net action id after :=
  .still [] (same.trans (List.append_nil _).symm) rfl

theorem Speaks.onJoined {other : ConnectionId}
    {work : Client κ ν ω → Peer κ ν ω → List (Deed κ) × Peer κ ν ω}
    (own : ∀ client peer, net.peer? other = some peer → peer.stage = .joined client → id = other →
      Voices code net action id (replies (work client peer).1)) :
    Speaks code net action id (net.onJoined other work).history := by
  cases found : net.peer? other with
  | none =>
    refine .same ?_
    unfold peer? at found
    rw [Network.onJoined, onPeer, found]
  | some peer =>
    refine ⟨_, onPeer_of_found found, ?_⟩
    obtain ⟨client, stage, acted⟩ | idle := whenJoined_cases other peer work
    · rw [acted]
      by_cases here : id = other
      · rw [here, deedsOf_did, ← here]
        exact own client peer found stage here
      · rw [deedsOf_did_of_ne _ here]
        exact .silent
    · rw [idle]
      exact .silent

theorem speaks_clientRuns (other : ConnectionId) :
    Speaks code net (.clientRuns other) id (net.perform code (.clientRuns other)).history := by
  refine .onJoined fun client peer found stage here => ?_
  subst here
  have ran : (net.entry code (.clientRuns id)).ran id = client.queue.pending.head?.toList := by
    change (if id = id then (net.queued id).head?.toList else []) = _
    rw [if_pos rfl, queued, found, Option.map_some, stage]
    rfl
  cases next : client.queue.pending with
  | nil =>
    rw [runOne_of_idle code next]
    exact .silent
  | cons command rest =>
    rw [runOne_of_pending code next]
    exact .ran _ command (by rw [ran, next]; rfl)

theorem context_clientRuns {peer : Peer κ ν ω} {client : Client κ ν ω}
    (found : net.peer? id = some peer) (stage : peer.stage = .joined client) :
    ∃ peer' client', (net.perform code (.clientRuns id)).peer? id = some peer' ∧
      peer'.stage = .joined client' ∧
      client'.queue.context = ((net.entry code (.clientRuns id)).ran id).foldl
        (fun context command => (context.perform code command).2) client.queue.context := by
  have ran : (net.entry code (.clientRuns id)).ran id = client.queue.pending.head?.toList := by
    change (if id = id then (net.queued id).head?.toList else []) = _
    rw [if_pos rfl, queued, found, Option.map_some, stage]
    rfl
  have now : (net.perform code (.clientRuns id)).peer? id =
      some { peer with stage := .joined (runOne code client).2 } :=
    peer?_onJoined found stage fun _ _ => rfl
  refine ⟨_, _, now, rfl, ?_⟩
  rw [ran]
  cases next : client.queue.pending with
  | nil =>
    rw [runOne_of_idle code next]
    rfl
  | cons command rest =>
    rw [runOne_of_pending code next]
    rfl

theorem speaks_perform (code : Code κ ν ω) (net : Network τ α κ ν ω) (action : Action κ ν ω)
    (id : ConnectionId) : Speaks code net action id (net.perform code action).history := by
  cases action with
  | dial address username state => exact .still _ rfl rfl
  | serverReads other lull arrivals =>
    refine .same ?_
    rw [Network.perform]
    unfold Network.serverReads
    split
    · exact history_onPeer fun _ => rfl
    · rfl
  | serverWrites other answers => exact .same (history_onPeer fun _ => rfl)
  | serverCloses other => exact .same rfl
  | notify =>
    refine .same ?_
    rw [Network.perform]
    unfold Network.notify
    split <;> rfl
  | serve =>
    rw [Network.perform]
    cases next : net.hall.pending with
    | nil => exact .same (congrArg (·.history) (serve_of_idle next))
    | cons command rest =>
      rw [serve_of_pending next]
      exact .still _ rfl (deedsOf_serverEvents _ _)
  | wait milliseconds => exact .same rfl
  | stopServing => exact .same rfl
  | clientReads other lull arrivals => exact .same (history_onPeer fun _ => rfl)
  | clientRuns other => exact speaks_clientRuns other
  | begin other call =>
    refine .onJoined fun client _ _ _ _ => ?_
    rw [(client.desk.acted_begin call).replies_eq_nil]
    exact .silent
  | conclude other index =>
    refine .onJoined fun client peer _ _ _ => ?_
    split <;> exact .silent
  | duplicate other response =>
    rw [Network.perform]
    split
    · exact .onJoined fun client _ _ _ here => .again client.desk response (here ▸ rfl)
    · exact .same rfl
  | _ => exact .onJoined fun _ _ _ _ _ => .silent

theorem heard_in_step (code : Code κ ν ω) (net : Network τ α κ ν ω) (early : List (Action κ ν ω))
    (action : Action κ ν ω) (id : ConnectionId) : ∃ more notes,
      (net.run code (early ++ [action])).history = (net.run code early).history ++ more ∧
      (net.keepingNotes code (early ++ [action])).notes id =
        (net.keepingNotes code early).notes id ++ notes ∧
      List.Forall₂ Voiced (hearings (deedsOf id more)) notes ∧
      ∀ name response, (name, some response) ∈ hearings (deedsOf id more) →
        ((net.run code early).entry code action).ran id = [.respond response] ∨
          action = .duplicate id response := by
  obtain ⟨more, notes, history, noted, voiced⟩ :=
    notes_keepingNotes_append code net early [action] id
  rw [history_keepingNotes, history_keepingNotes] at history
  obtain ⟨more', grown, voices⟩ := speaks_perform code (net.run code early) action id
  have same : more = more' := by
    rw [run_append] at history
    exact List.append_cancel_left (history.symm.trans grown)
  refine ⟨more, notes, history, noted, voiced, fun name response mem => ?_⟩
  rw [same] at mem
  exact voices.mem (Client.mem_replies_of_mem_hearings mem)

/-- Callbacks run in the order of the commands that bring their answers. -/
theorem answered_run (lawful : code.Lawful) (id : ConnectionId) (actions : List (Action κ ν ω))
    (once : ∀ response, .duplicate id response ∉ actions) :
    (answered id (net.run code actions).history).Sublist
      (answered id net.history ++
        (ran id (net.journal code actions)).filterMap Command.answer?) := by
  induction actions generalizing net with
  | nil => exact (List.append_nil (answered id net.history)).symm ▸ List.Sublist.refl _
  | cons action rest ih =>
    have later (response : Response) (mem : .duplicate id response ∈ rest) : False :=
      once response (List.mem_cons_of_mem action mem)
    obtain ⟨more, grown, voices⟩ := speaks_perform code net action id
    have less := voices.sublist lawful fun response same =>
      once response (same ▸ List.mem_cons_self)
    refine (ih later).trans ?_
    have ran : ran id (net.journal code (action :: rest)) =
      (net.entry code action).ran id ++ ran id ((net.perform code action).journal code rest) := rfl
    rw [answered, grown, deedsOf_append, Client.replies_append, ran, List.filterMap_append,
      List.append_assoc]
    exact (List.Sublist.refl _).append (less.append (List.Sublist.refl _))

theorem filterMap_answer?_executed (id : ConnectionId) (journal : List (Entry ν)) :
    (executed id journal).filterMap Command.answer? =
      (ran id journal).filterMap Command.answer? := by
  rw [executed, List.filterMap_filter]
  refine List.filterMap_congr fun command _ => ?_
  cases command <;> rfl

end Callbacks

section Runs

theorem mem_of_handleRequest {messages : List Message} {request : Request}
    (mem : .handleRequest id request ∈ messages.filterMap (Server.command? id)) :
    .invocation request ∈ messages := by
  obtain ⟨message, known, asked⟩ := List.mem_filterMap.1 mem
  cases message <;> cases asked
  exact known

theorem mem_of_respond {messages : List Message} {response : Response}
    (mem : (.respond response : Command ν) ∈ messages.filterMap Client.command?) :
    .response response ∈ messages := by
  obtain ⟨message, known, asked⟩ := List.mem_filterMap.1 mem
  cases message <;> cases asked
  exact known

theorem sinceWelcome_subset (messages : List Message) : sinceWelcome messages ⊆ messages :=
  ((List.tail_sublist _).trans (List.dropWhile_sublist _)).subset

/-- In a list that begins as another does, what is not in the first part of that comes behind all of
this part. -/
theorem prefix_of_notMem {first front back rest : List σ} {x : σ}
    (begins : front ++ x :: back <+: first ++ rest) (unknown : x ∉ first) : first <+: front := by
  have ahead : first <+: first ++ rest := List.prefix_append _ _
  rcases Nat.lt_or_ge front.length first.length with less | le
  · have early : front ++ [x] <+: first ++ rest := by
      refine List.IsPrefix.trans ⟨back, ?_⟩ begins
      rw [List.append_assoc, List.singleton_append]
    have within : front ++ [x] <+: first :=
      List.prefix_of_prefix_length_le early ahead (by rwa [List.length_append])
    exact (unknown (within.subset (by simp))).elim
  · exact List.prefix_of_prefix_length_le ahead ((List.prefix_append _ _).trans begins) le

/-- What the server has run of what a client has asked is the first part of it. -/
theorem Requests.dealt (requests : net.Requests journal) {id : ConnectionId}
    (small : ∀ message ∈ said id journal, message.Framable) :
    dealt id journal <+: (said id journal).filterMap (Server.command? id) := by
  cases found : net.peer? id with
  | none =>
    have nothing := (requests.strangers id found).2.1
    rw [accepted, List.append_eq_nil_iff] at nothing
    rw [nothing.1]
    exact List.nil_prefix
  | some peer => exact (List.prefix_append _ _).trans (requests.asks id peer found small).order

/-- What a client has run of responses and events is the first part of what was posted to it. -/
theorem Delivers.executed (delivers : net.Delivers journal) (id : ConnectionId) :
    executed id journal <+: heard id journal := by
  have idle (none : ran id journal = []) : Network.executed id journal <+: heard id journal := by
    rw [Network.executed, none]
    exact List.nil_prefix
  cases found : net.peer? id with
  | none => exact idle (delivers.strangers id found).2
  | some peer =>
    have receives := delivers.receives id peer found
    unfold Peer.Receives at receives
    cases stage : peer.stage with
    | joining reader =>
      rw [stage] at receives
      exact idle receives.1
    | joined client =>
      rw [stage] at receives
      obtain ⟨-, taken, later, since, news, -⟩ := receives
      rw [heard, since, List.filterMap_append, ← news, List.filter_append, List.append_assoc]
      exact List.prefix_append _ _
    | failed error =>
      rw [stage] at receives
      exact idle receives.1

theorem mem_pending_of_handles {request : Request}
    (handles : (net.entry code action).Handles id request) :
    .handleRequest id request ∈ net.hall.pending := by
  unfold Entry.Handles at handles
  cases action with
  | serve => exact List.mem_of_mem_head? handles
  | _ => cases handles

theorem Delivers.welcome_of_handles (delivers : net.Delivers journal)
    (requests : net.Requests journal) (small : ∀ message ∈ said id journal, message.Framable)
    {request : Request} (handles : (net.entry code action).Handles id request) :
    ∃ message ∈ sent id journal, isWelcome message = true := by
  have queued := mem_pending_of_handles handles
  have known : .handleRequest id request ∈ accepted id journal net.hall.pending :=
    List.mem_append_right _ (List.mem_filter.2 ⟨queued, decide_eq_true rfl⟩)
  cases found : net.peer? id with
  | none =>
    rw [(requests.strangers id found).2.1] at known
    cases known
  | some peer =>
    have spoken := mem_of_handleRequest ((requests.asks id peer found small).order.subset known)
    have receives := delivers.receives id peer found
    unfold Peer.Receives at receives
    cases stage : peer.stage with
    | joining reader =>
      rw [stage] at receives
      exact (receives.2.1 request spoken).elim
    | joined client =>
      rw [stage] at receives
      exact receives.1
    | failed error =>
      rw [stage] at receives
      exact (receives.2 request spoken).elim

/-- What a network and its journal keep up in every step. -/
structure Ordered (maxFrame : Nat) (journal : List (Entry ν)) (net : Network τ α κ ν ω) :
    Prop where
  sound : net.Sound maxFrame
  requests : net.Requests journal
  delivers : maxFrame < 256 ^ Wire.headerLength → net.Delivers journal

theorem Ordered.new [Inhabited τ] (maxClients maxFrame : Nat) (app : α) :
    (Network.new maxClients maxFrame app : Network τ α κ ν ω).Ordered maxFrame
      ([] : List (Entry ν)) :=
  ⟨.new maxClients maxFrame app, .new maxClients maxFrame app,
    fun _ => .new maxClients maxFrame app⟩

theorem Ordered.run (ordered : net.Ordered maxFrame []) (code : Code κ ν ω)
    (actions : List (Action κ ν ω)) :
    (net.run code actions).Ordered maxFrame (net.journal code actions) := by
  have step (journal : List (Entry ν)) (net : Network τ α κ ν ω) (action : Action κ ν ω)
      (ordered : net.Ordered maxFrame journal) :
      (net.perform code action).Ordered maxFrame (journal ++ [net.entry code action]) :=
    ⟨ordered.sound.perform action, ordered.requests.perform ordered.sound action,
      fun room => (ordered.delivers room).perform ordered.sound action (legible_of_room room _)
        fun _ => ordered.sound.grown_serve⟩
  exact journal_induction code step ordered actions

variable {actions : List (Action κ ν ω)} {before after : List (Entry ν)} {entry : Entry ν}
  {request : Request}

/-- In every run, responses answer requests of the clients that they are posted to. -/
theorem Ordered.handles_of_response (ordered : net.Ordered maxFrame [])
    (room : maxFrame < 256 ^ Wire.headerLength) (mem : entry ∈ net.journal code actions)
    {response : Response} (posted : .response response ∈ entry.posted id) :
    ∃ request, entry.Handles id request ∧ response.token ∈ request.args.tokens := by
  obtain ⟨before, after, split⟩ := List.append_of_mem mem
  obtain ⟨early, action, late, -, -, rfl⟩ := journal_eq_append code split
  exact (ordered.run code early).sound.handles_of_response room posted

theorem Orderly.called_of_handles (orderly : net.Orderly maxFrame) (lawful : code.Lawful)
    (few : Few (net.run code actions).history) (ordinary : Ordinary (net.run code actions).history)
    (mem : entry ∈ net.journal code actions) (handles : entry.Handles id request) :
    Called (net.run code actions).history id request := by
  obtain ⟨before, after, split⟩ := List.append_of_mem mem
  obtain ⟨early, action, late, rfl, -, rfl⟩ := journal_eq_append code split
  have earlier : (net.run code early).history <+:
      (net.run code (early ++ action :: late)).history := by
    rw [run_append]
    exact prefix_run _ _
  have orderly := orderly.run lawful early (few.mono earlier)
  have faithful := orderly.faithful (ordinary.mono earlier.subset)
  exact (faithful.queued id request (mem_pending_of_handles handles)).mono earlier.subset

/-- All that is posted to a client from one of its requests on is behind what it had to hear before
this request. -/
theorem Ordered.heard_of_handles (ordered : net.Ordered maxFrame [])
    (room : maxFrame < 256 ^ Wire.headerLength)
    (small : ∀ message ∈ said id (net.journal code actions), message.Framable)
    (split : net.journal code actions = before ++ entry :: after)
    (handles : entry.Handles id request) :
    heard id (net.journal code actions) =
      heard id before ++ (entry.posted id ++ sent id after).filterMap Client.command? := by
  rw [split, said_append] at small
  obtain ⟨early, action, late, -, rfl, rfl⟩ := journal_eq_append code split
  have ordered := ordered.run code early
  have welcome := (ordered.delivers room).welcome_of_handles ordered.requests
    (fun message mem => small message (List.mem_append_left _ mem)) handles
  rw [split, heard, sent_append, sinceWelcome_append welcome, List.filterMap_append, sent_cons]
  rfl

theorem exists_of_dealt {front back : List Server.Command} {command : Server.Command}
    (ran : dealt id journal = front ++ command :: back) : ∃ before entry after,
      journal = before ++ entry :: after ∧ dealt id before = front ∧
        entry.served = some command := by
  induction journal generalizing front with
  | nil => cases List.append_ne_nil_of_right_ne_nil front (List.cons_ne_nil command back) ran.symm
  | cons entry rest ih =>
    rw [dealt_cons] at ran
    have behind {front : List Server.Command} (ran : dealt id rest = front ++ command :: back) :
        ∃ before entry' after, entry :: rest = before ++ entry' :: after ∧
          dealt id before = (entry.served.filter (·.isFrom id)).toList ++ front ∧
          entry'.served = some command := by
      obtain ⟨before, entry', after, rfl, dealt, served⟩ := ih ran
      exact ⟨entry :: before, entry', after, rfl, by rw [dealt_cons, dealt], served⟩
    cases own : entry.served.filter (·.isFrom id) with
    | none =>
      rw [own] at ran behind
      exact behind ran
    | some first =>
      rw [own] at ran behind
      cases front with
      | nil =>
        obtain ⟨rfl, -⟩ := List.cons.inj ran
        exact ⟨[], entry, rest, rfl, rfl, (Option.filter_eq_some_iff.1 own).1⟩
      | cons other front =>
        obtain ⟨rfl, later⟩ := List.cons.inj ran
        exact behind later

/-- What follows for a client that has asked for one thing and then for another when the server
handles the other behind `front`. -/
structure Succession (code : Code κ ν ω) (net : Network τ α κ ν ω) (actions : List (Action κ ν ω))
    (id : ConnectionId) (earlier : List Message) (one other : Request)
    (front : List (Entry ν)) : Prop where
  /-- The server has handled the one in its turn, and what it has posted to the client meanwhile is
  among what the client has to run. -/
  handled : ∃ before first between, front = before ++ first :: between ∧ first.Handles id one ∧
    dealt id before = earlier.filterMap (Server.command? id) ∧
    heard id front =
      heard id before ++ (first.posted id ++ sent id between).filterMap Client.command?
  /-- When the client runs what was posted to it later, it has run all this. -/
  run : ∀ early late, actions = early ++ late →
    (heard id front).length ≤ (executed id (net.journal code early)).length →
    heard id front <+: executed id (net.journal code early)
  /-- An answer to the other, which is handled for the first time, is posted later. -/
  answered : code.Lawful → Few (net.run code actions).history →
    Ordinary (net.run code actions).history → (∀ entry ∈ front, ¬ entry.Handles id other) →
    ∀ early action late response, actions = early ++ action :: late →
      ((net.run code early).entry code action).ran id = [.respond response] →
      response.token ∈ other.args.tokens →
      heard id front <+: executed id (net.journal code early)

/-- What a client has run at any time is the first part of what it has to run. -/
theorem Ordered.executed_early (ordered : net.Ordered maxFrame [])
    (room : maxFrame < 256 ^ Wire.headerLength) (early late : List (Action κ ν ω)) :
    executed id (net.journal code early) <+: heard id (net.journal code (early ++ late)) := by
  refine List.IsPrefix.trans ?_ (((ordered.run code (early ++ late)).delivers room).executed id)
  rw [journal_append, executed_append]
  exact List.prefix_append _ _

theorem Ordered.succession (ordered : net.Ordered maxFrame []) (orderly : net.Orderly maxFrame)
    (room : maxFrame < 256 ^ Wire.headerLength)
    (small : ∀ message ∈ said id (net.journal code actions), message.Framable)
    {earlier between later : List Message} {one other : Request}
    (asked : said id (net.journal code actions) =
      earlier ++ .invocation one :: between ++ .invocation other :: later)
    (split : net.journal code actions = before ++ entry :: after) (handles : entry.Handles id other)
    (turn : (dealt id before).length =
      ((earlier ++ .invocation one :: between).filterMap (Server.command? id)).length) :
    Succession code net actions id earlier one other before := by
  have order := (ordered.run code actions).requests.dealt small
  rw [asked, split, dealt_append, List.filterMap_append] at order
  have turn := (List.prefix_of_prefix_length_le ((List.prefix_append _ _).trans order)
    (List.prefix_append _ _) turn.le).eq_of_length turn
  have whole := ordered.heard_of_handles room small split handles
  have begins : heard id before <+: heard id (net.journal code actions) :=
    whole ▸ List.prefix_append _ _
  refine ⟨?_, fun early late all beyond => ?_,
    fun lawful few ordinary new early action late response all ran listed => ?_⟩
  · have asked : Server.command? id (.invocation one) = some (.handleRequest id one) := rfl
    rw [List.filterMap_append, List.filterMap_cons_some asked] at turn
    obtain ⟨ahead, first, behind, rfl, dealt, served⟩ := exists_of_dealt turn
    obtain ⟨early, -, -, -, same, -⟩ := journal_eq_append code split
    rw [split, said_append] at small
    have heard := ordered.heard_of_handles room
      (fun message mem => small message (List.mem_append_left _ (same ▸ mem))) same.symm served
    exact ⟨ahead, first, behind, rfl, served, dealt, same ▸ heard⟩
  · subst all
    exact List.prefix_of_prefix_length_le begins (ordered.executed_early room early late) beyond
  · subst all
    have run := ((ordered.run code (early ++ action :: late)).delivers room).executed id
    have next : executed id (net.journal code (early ++ action :: late)) =
        executed id (net.journal code early) ++ .respond response ::
          executed id (((net.run code early).perform code action).journal code late) := by
      rw [journal_append, executed_append, Network.journal, executed_cons, ran]
      rfl
    rw [next, whole] at run
    refine prefix_of_notMem run fun known => ?_
    have posted := sinceWelcome_subset _ (mem_of_respond known)
    obtain ⟨one', mem, posted⟩ := List.mem_flatMap.1 posted
    have here (one' : Entry ν) (mem : one' ∈ before) :
        one' ∈ net.journal code (early ++ action :: late) := split ▸ List.mem_append_left _ mem
    obtain ⟨request, handled, own⟩ := ordered.handles_of_response room (here one' mem) posted
    have last : entry ∈ net.journal code (early ++ action :: late) :=
      split ▸ List.mem_append_right _ List.mem_cons_self
    obtain rfl := (orderly.run lawful _ few).eq_of_called ordinary few
      (orderly.called_of_handles lawful few ordinary (here one' mem) handled)
      (orderly.called_of_handles lawful few ordinary last handles) own listed
    exact new one' mem handled

/-- Order is kept from end to end. The server handles what a client asks for in the order in which
it was asked, and the client runs what was posted to it in the order of the posts. -/
theorem order_of_run [Inhabited τ] (code : Code κ ν ω) (maxClients maxFrame : Nat) (app : α)
    (actions : List (Action κ ν ω)) (id : ConnectionId) :
    let start : Network τ α κ ν ω := .new maxClients maxFrame app
    let net := start.run code actions
    let journal := start.journal code actions
    ((∀ message ∈ said id journal, message.Framable) →
      dealt id journal <+: (said id journal).filterMap (Server.command? id) ∧
      ∀ peer, net.peer? id = some peer → peer.Asks net.hall.isClosed net.desk.manager id
        (said id journal) (accepted id journal net.hall.pending)
        (noticed id net.desk.notices)) ∧
    (maxFrame < 256 ^ Wire.headerLength →
      executed id journal <+: heard id journal ∧
      (∀ peer client, net.peer? id = some peer → peer.stage = .joined client → ∃ taken later,
        sinceWelcome (sent id journal) = taken ++ later ∧
        (ran id journal ++ client.queue.pending).filter (·.isNews) =
          taken.filterMap Client.command? ∧
        (client.reading = true → OnWay net.desk.outboxes id peer.toClient client.reader later)) ∧
      (∀ entry ∈ journal, ∀ response, .response response ∈ entry.posted id → ∃ request,
        entry.Handles id request ∧ response.token ∈ request.args.tokens) ∧
      ((∀ message ∈ said id journal, message.Framable) →
        ∀ earlier one between other later, said id journal =
          earlier ++ .invocation one :: between ++ .invocation other :: later →
        ∀ before entry after, journal = before ++ entry :: after → entry.Handles id other →
          (dealt id before).length =
            ((earlier ++ .invocation one :: between).filterMap (Server.command? id)).length →
          Succession code start actions id earlier one other before)) ∧
    (∀ early late peer client, actions = early ++ .clientRuns id :: late →
      (start.run code early).peer? id = some peer → peer.stage = .joined client →
      ∃ peer' client', (start.run code (early ++ [.clientRuns id])).peer? id = some peer' ∧
        peer'.stage = .joined client' ∧
        client'.queue.context = (((start.run code early).entry code (.clientRuns id)).ran id).foldl
          (fun context command => (context.perform code command).2) client.queue.context) ∧
    (∀ early action late, actions = early ++ action :: late → ∃ more notes,
      (start.run code (early ++ [action])).history = (start.run code early).history ++ more ∧
      (start.keepingNotes code (early ++ [action])).notes id =
        (start.keepingNotes code early).notes id ++ notes ∧
      List.Forall₂ Voiced (hearings (deedsOf id more)) notes ∧
      ∀ name response, (name, some response) ∈ hearings (deedsOf id more) →
        ((start.run code early).entry code action).ran id = [.respond response] ∨
          action = .duplicate id response) ∧
    (code.Lawful → (∀ response, .duplicate id response ∉ actions) →
      (answered id net.history).Sublist ((executed id journal).filterMap Command.answer?)) := by
  intro start net journal
  have first : start.Ordered maxFrame ([] : List (Entry ν)) := .new maxClients maxFrame app
  have ordered : net.Ordered maxFrame journal := first.run code actions
  have orderly : start.Orderly maxFrame := .new maxClients maxFrame app
  refine ⟨fun small => ⟨ordered.requests.dealt small, fun peer found => ?_⟩,
    fun room => ⟨(ordered.delivers room).executed id, fun peer client found stage => ?_,
      fun entry mem response => ?_, fun small => ?_⟩, fun early late peer client _ found stage => ?_,
    fun early action late _ => ?_, fun lawful once => ?_⟩
  · exact ordered.requests.asks id peer found small
  · have receives := (ordered.delivers room).receives id peer found
    unfold Peer.Receives at receives
    rw [stage] at receives
    exact receives.2
  · exact first.handles_of_response room mem
  · intro earlier one between other later asked before entry after split handles turn
    exact first.succession orderly room small asked split handles turn
  · rw [run_append]
    exact context_clientRuns found stage
  · exact start.heard_in_step code early action id
  · rw [filterMap_answer?_executed]
    exact answered_run lawful id actions once

/-- Two clients log on, and the second says something to the first, which gets this together with
its welcome. The first one leaves an away text, and then says something to the second. -/
def smallTalk : List (Action Unit Unit Unit) :=
  [.dial "" "a" (), .dial "" "b" (), .serverReads 2 .wouldBlock [.piece 30],
    .serverReads 3 .wouldBlock [.piece 30], .notify, .notify, .serve, .serve,
    .serverWrites 3 [.accepted 100], .clientReads 3 .wouldBlock [.piece 100],
    .begin 3 (Chat.tellCall 1 "a" "x" ()), .conclude 3 0, .clientWrites 3 [.accepted 100],
    .serverReads 3 .wouldBlock [.piece 100], .notify, .serve,
    .serverWrites 2 [.accepted 200], .clientReads 2 .wouldBlock [.piece 200],
    .begin 2 (Chat.awayCall 1 "y"), .begin 2 (Chat.tellCall 1 "b" "z" ()), .conclude 2 0,
    .conclude 2 0, .clientWrites 2 [.accepted 10], .clientWrites 2 [.accepted 200],
    .serverReads 2 .wouldBlock [.piece 7, .piece 200], .notify, .notify, .serve]

/-- The first client runs all that it was sent. -/
def rejoinder : List (Action Unit Unit Unit) :=
  [.serverWrites 2 [.accepted 200], .clientReads 2 .wouldBlock [.piece 3],
    .clientReads 2 .wouldBlock [.piece 200], .clientRuns 2, .clientRuns 2, .clientRuns 2]

def afterSmallTalk : Network Unit Unit Unit Unit Unit := parlour.run listeners smallTalk

def afterRejoinder : Network Unit Unit Unit Unit Unit :=
  parlour.run listeners (smallTalk ++ .serve :: rejoinder)

def absence : Request := ⟨1, Chat.away, [.str "y"]⟩

def retort : Request := ⟨1, Chat.tell, [.str "b", .str "z", .listener ⟨1000, 1⟩]⟩

def receipt : Response := ⟨⟨1000, 1⟩, Chat.tellSucceeded, []⟩

/-- What the first client was told before its retort is handled, it has run before it hears of
that. -/
theorem order_of_run_smallTalk :
    let before := parlour.journal listeners smallTalk
    let journal := parlour.journal listeners (smallTalk ++ .serve :: rejoinder)
    let news : List (Command Unit) := [.apply (.message 1000 "chat" [.str "b", .str "x"]),
      .apply (.attributeChanged 1000 "away_message" (.str "y"))]
    executed 2 journal = news ++ [.respond receipt] ∧ executed 2 journal <+: heard 2 journal ∧
      Succession listeners parlour (smallTalk ++ .serve :: rejoinder) 2 [.logon 1 "a"] absence
        retort before ∧
      (answered 2 afterRejoinder.history).Sublist [receipt] := by
  intro before journal news
  have ran : executed 2 journal = news ++ [.respond receipt] := by decide +kernel
  have spoken : said 2 journal =
      [.logon 1 "a"] ++ .invocation absence :: [] ++ .invocation retort :: [] := by
    decide +kernel
  have small : ∀ message ∈ said 2 journal, message.Framable := by
    rw [spoken]
    decide
  have split : journal = before ++ afterSmallTalk.entry listeners .serve ::
      (afterSmallTalk.perform listeners .serve).journal listeners rejoinder :=
    journal_append listeners parlour smallTalk (.serve :: rejoinder)
  have handles : (afterSmallTalk.entry listeners .serve).Handles 2 retort := by decide +kernel
  obtain ⟨-, received, -, -, callbacks⟩ := @order_of_run Unit Unit Unit Unit Unit _ listeners
    4 1000 () (smallTalk ++ .serve :: rejoinder) 2
  obtain ⟨run, -, -, succession⟩ := received (by decide)
  have heard := callbacks lawful_listeners (by simp [smallTalk, rejoinder])
  rw [show executed 2 (Network.journal listeners (.new 4 1000 ()) _) = _ from ran] at heard
  exact ⟨ran, run, succession small _ _ _ _ _ spoken _ _ _ split handles (by decide +kernel), heard⟩

theorem journal_ship {data rest : Wire.Bytes} (front : Wire.Bytes) (some : front ≠ [])
    (whole : (Message.invocation (shipment data)).toFrame = front ++ rest) :
    let journal := (moored { id := 2, state := (), stage := .joined (guest ()) }
      [.dialled 2 "a", .granted 2 1000]).journal listeners
        [.begin 2 (shipping data), .conclude 2 0, .clientWrites 2 [.accepted front.length]]
    said 2 journal = [.invocation (shipment data)] ∧ dealt 2 journal = [] := by
  refine ⟨?_, rfl⟩
  simp only [said, journal, List.flatMap_cons, List.flatMap_nil, entry, perform]
  rw [begin_shipping, conclude_shipping, clientWrites_shipping some whole]
  rfl

/-- A request that does not tell how long it is can make the server handle another one, for which
nobody has asked. -/
theorem unasked_voyage :
    let journal := harbour.journal listeners voyage
    dealt 2 journal = [.startSession 2 1 "a", .handleRequest 2 remark] ∧
    ¬ dealt 2 journal <+: (said 2 journal).filterMap (Server.command? 2) := by
  intro journal
  have arrived : harbour.run listeners (arrive ()) = moored
      { id := 2, state := (), stage := .joined (guest ()) } [.dialled 2 "a", .granted 2 1000] :=
    run_arrive listeners () () (by decide)
  have whole : journal = harbour.journal listeners (arrive ()) ++
      ((harbour.run listeners (arrive ())).journal listeners ship ++
        laden.journal listeners unloading) := by
    rw [← run_ship, ← List.append_assoc, ← journal_append, ← journal_append]
    rfl
  have early : said 2 (harbour.journal listeners (arrive ())) = [.logon 1 "a"] ∧
      dealt 2 (harbour.journal listeners (arrive ())) = [.startSession 2 1 "a"] := by
    decide +kernel
  have late : said 2 (laden.journal listeners unloading) = [] ∧
      dealt 2 (laden.journal listeners unloading) = [.handleRequest 2 remark] := by
    decide +kernel
  obtain ⟨asked, idle⟩ := journal_ship (label ++ stowaway) (by decide) toFrame_cargo
  rw [whole, arrived, ship, said_append, said_append, dealt_append, dealt_append, early.1, early.2,
    late.1, late.2, asked, idle]
  refine ⟨rfl, fun order => ?_⟩
  have same : shipment (stowaway ++ ballast) = remark := by
    obtain ⟨more, same⟩ := order
    obtain ⟨-, same⟩ := List.cons.inj same
    exact (Server.Command.handleRequest.inj (List.cons.inj same).1).2.symm
  have count : 2 = 3 := congrArg (·.args.length) same
  cases count

end Runs

end Network

end Parley
