import Parley.Proofs.Chat.Replies
import Parley.Proofs.Connection.Mail
import Parley.Proofs.Server.Commands

/-! What a server that offers chat has to say.
For every command the messages that it posts are listed in their order, with the connections that
they are for. Carrying out the command comes to posting these, whoever takes them, and to a change
of the session table. -/

namespace Parley

namespace Dispatch

theorem DispatchTable.put_of_find? {entries : List (Entry τ σ)} {entry : Entry τ σ}
    (found : entries.find? (·.method = entry.method) = some entry) :
    DispatchTable.put entry entries = entries := by
  induction entries with
  | nil => cases found
  | cons first rest ih =>
    rw [DispatchTable.put]
    rw [List.find?_cons] at found
    by_cases here : first.method = entry.method
    · simp only [here, decide_true, Option.some.injEq] at found
      rw [if_pos here, found]
    · simp only [here, decide_false] at found
      rw [if_neg here, ih found]

end Dispatch

namespace Chat

open Dispatch Server

variable {α τ : Type} {lobby : Lobby α} {caller : Caller} {connection : ConnectionId}

/-- What the chat service takes a call for. -/
inductive Call where
  | tell (target text : String)
  | broadcast (text : String)
  | away (text : String)
  /-- It fails before the service sees it. -/
  | other
  deriving DecidableEq, Repr

/-- The lines that a broadcast posts: one for each session, up to the first that is too long. -/
def announced (speaker text : String) (lobby : Lobby α) :
    List Session → List (ConnectionId × Message)
  | [] => []
  | session :: rest =>
    match lobby.post session.connection (line session.oid speaker text) with
    | (.error (.frameTooLarge _ _), _) => [(session.connection, line session.oid speaker text)]
    | (_, lobby) =>
      (session.connection, line session.oid speaker text) :: announced speaker text lobby rest

namespace Call

def read (method : UInt8) : Arguments → Call
  | [.str target, .str text, .listener _] =>
    if method = Chat.tell then .tell target text else .other
  | [.str text, .listener _] => if method = Chat.broadcast then .broadcast text else .other
  | [.str text] => if method = Chat.away then .away text else .other
  | _ => .other

def target : Oid := .ofNat firstServiceOid

def ofRequest (request : Request) : Call :=
  if request.target = target then read request.method request.args else .other

def events (lobby : Lobby α) (caller : Caller) : Call → List (ConnectionId × Message)
  | tell target text =>
    ((lobby.sessions.findByUsername? target).map fun session =>
      (session.connection, line session.oid caller.username text)).toList
  | broadcast text => announced caller.username text lobby lobby.sessions.sessions
  | away text =>
    ((lobby.sessions.find? caller.oid).map fun session =>
      (session.connection, awayChange caller.oid text)).toList
  | other => []

def sessions (lobby : Lobby α) (caller : Caller) : Call → SessionTable
  | away text => lobby.sessions.setAway caller.oid text lobby.clock
  | _ => lobby.sessions

end Call

theorem announce_eq (speaker text : String) (lobby : Lobby α) (sessions : List Session) :
    (announce speaker text lobby sessions).2 =
      { lobby with
        outboxes := lobby.outboxes.offerAll (announced speaker text lobby sessions) } := by
  induction sessions generalizing lobby with
  | nil => rfl
  | cons session rest ih =>
    have after : (lobby.post session.connection (line session.oid speaker text)).2 =
        { lobby with outboxes :=
          (lobby.outboxes.post session.connection (line session.oid speaker text)).2 } := rfl
    rw [announce, announced]
    revert after
    rcases lobby.post session.connection (line session.oid speaker text) with ⟨result, lobby'⟩
    intro after
    obtain rfl : lobby' = _ := after
    by_cases long : ∃ length limit, result = .error (.frameTooLarge length limit)
    · obtain ⟨length, limit, rfl⟩ := long
      rfl
    · -- whatever else becomes of this line, the next session is told
      have next : (announce speaker text _ rest).2 = _ := ih { lobby with outboxes :=
        (lobby.outboxes.post session.connection (line session.oid speaker text)).2 }
      cases result with
      | ok _ => exact next
      | error error =>
        cases error <;> first | exact (long ⟨_, _, rfl⟩).elim | exact next

/-- An exchange has come to this: the events were posted, then its answers, all to one connection;
and of the rest of the lobby only the session table may have changed. -/
def Voiced (connection : ConnectionId) (lobby : Lobby α) (events : List (ConnectionId × Message))
    (sessions : SessionTable) (x : Exchange (Lobby α)) : Prop :=
  x.state = { lobby with
    sessions
    outboxes := lobby.outboxes.offerAll
      (events ++ x.ledger.posted.map fun response => (connection, .response response)) }

variable {events : List (ConnectionId × Message)} {sessions : SessionTable}
  {x : Exchange (Lobby α)}

theorem Voiced.answer (voiced : Voiced connection lobby events sessions x)
    (whole : lobby.poisoned = false) {response : Response} {session : Session}
    (known : sessions.find? response.token.callerOid = some session)
    (place : session.connection = connection) (position : Nat) :
    Voiced connection lobby events sessions (x.answer Lobby.route position response) := by
  have table : x.state.table? = some sessions := by
    rw [voiced, Lobby.table?, whole]
    rfl
  have routed : Lobby.route response x.state = x.state.offer connection (.response response) := by
    rw [Lobby.route, table, Option.bind_eq_bind, Option.bind_some, known]
    dsimp only
    rw [place]
  rw [Voiced, Exchange.answer, routed, List.map_append, ← List.append_assoc,
    Outboxes.offerAll_append]
  rw [Lobby.offer, Lobby.post, voiced]
  rfl

/-- The connection has the session of the caller, and there is no reason not to find it. -/
structure Present (connection : ConnectionId) (caller : Caller) (lobby : Lobby α) : Prop where
  whole : lobby.poisoned = false
  session : ∃ session, lobby.sessions.find? caller.oid = some session ∧
    session.connection = connection

theorem Present.table? (present : Present connection caller lobby) :
    lobby.table? = some lobby.sessions := Lobby.table?_of_whole present.whole

theorem voiced_start (connection : ConnectionId) (lobby : Lobby α) :
    Voiced connection lobby [] lobby.sessions { state := lobby } := rfl

theorem voiced_post {id : ConnectionId} {message : Message}
    {result : Except Wire.ProtocolError Unit} {after : Lobby α}
    (posted : lobby.post id message = (result, after)) :
    Voiced connection lobby [(id, message)] lobby.sessions { state := after } := by
  obtain rfl : after = _ := (congrArg Prod.snd posted).symm
  rfl

theorem eq_of_refused {id : ConnectionId} {message : Message} {error : Wire.ProtocolError}
    {after : Lobby α} (posted : lobby.post id message = (.error error, after)) : after = lobby := by
  have same : after = { lobby with outboxes := (lobby.outboxes.post id message).2 } :=
    (congrArg Prod.snd posted).symm
  rw [same, Outboxes.post_of_error (congrArg Prod.fst posted)]

theorem voiced_relayTell (present : Present connection caller lobby) (target text : String)
    {token : Token} (own : token.callerOid = caller.oid) :
    Voiced connection lobby (Call.events lobby caller (.tell target text)) lobby.sessions
      ((relayTell caller target text 2).run Lobby.route [.str target, .str text, .listener token]
        { state := lobby }).2 := by
  have here : Arguments.listenerAt? [.str target, .str text, .listener token] 2 = some token := rfl
  rw [run_relayTell caller target text here rfl, present.table?, Call.events]
  dsimp only
  cases lobby.sessions.findByUsername? target with
  | none => exact voiced_start connection lobby
  | some addressee =>
    dsimp only [Option.map_some, Option.toList_some]
    rcases posted : lobby.post addressee.connection (line addressee.oid caller.username text) with
      ⟨error | _, after⟩
    · have voiced : Voiced connection lobby _ _ _ := voiced_post posted
      rwa [eq_of_refused posted] at voiced
    · obtain ⟨session, known, place⟩ := present.session
      refine (voiced_post posted).answer present.whole ?_ place 2
      cases addressee.away <;> rwa [delivered, own]

theorem voiced_relayBroadcast (present : Present connection caller lobby) (text : String)
    {token : Token} (own : token.callerOid = caller.oid) :
    Voiced connection lobby (Call.events lobby caller (.broadcast text)) lobby.sessions
      ((relayBroadcast caller text 1).run Lobby.route [.str text, .listener token]
        { state := lobby }).2 := by
  have here : Arguments.listenerAt? [.str text, .listener token] 1 = some token := rfl
  rw [run_relayBroadcast caller text here rfl, present.table?, Call.events]
  dsimp only
  have said : Voiced connection lobby
      (announced caller.username text lobby lobby.sessions.sessions) lobby.sessions
      { state := (announce caller.username text lobby lobby.sessions.sessions).2 } := by
    rw [announce_eq, Voiced, List.map_nil, List.append_nil]
  rcases announced : announce caller.username text lobby lobby.sessions.sessions with
    ⟨_ | error, after⟩
  · rw [announced] at said
    obtain ⟨session, known, place⟩ := present.session
    exact said.answer present.whole (own ▸ known) place 1
  · rw [announced] at said
    exact said

theorem voiced_relayAway (present : Present connection caller lobby) (text : String) :
    Voiced connection lobby (Call.events lobby caller (.away text))
      (Call.sessions lobby caller (.away text))
      ((relayAway caller text).run Lobby.route [.str text] { state := lobby }).2 := by
  obtain ⟨session, known, place⟩ := present.session
  rw [run_relayAway, present.table?]
  dsimp only
  rw [Call.events, known]
  dsimp only [Option.map_some, Option.toList_some]
  rcases posted : Lobby.post _ session.connection (awayChange caller.oid text) with
    ⟨error | _, after⟩
  · have voiced : Voiced connection _ _ _ _ := voiced_post posted
    rw [eq_of_refused posted] at voiced
    exact voiced
  · have voiced : Voiced connection _ _ _ _ := voiced_post posted
    exact voiced

theorem voiced_onTell (present : Present connection caller lobby) {args : Arguments}
    (honest : isForged caller args = false) :
    Voiced connection lobby ((Call.read tell args).events lobby caller)
      ((Call.read tell args).sessions lobby caller)
      ((relay.onTell caller args).run Lobby.route args { state := lobby }).2 := by
  obtain ⟨error, same⟩ | ⟨target, text, token, rfl, same⟩ := relay.onTell_cases caller args
  · have other : Call.read tell args = .other := by
      unfold Call.read
      split
      · cases same
      · rfl
      · rfl
      · rfl
    rw [same, other]
    exact voiced_start connection lobby
  · rw [same]
    exact voiced_relayTell present target text
      (callerOid_of_unforged honest (List.mem_singleton_self token))

theorem voiced_onBroadcast (present : Present connection caller lobby) {args : Arguments}
    (honest : isForged caller args = false) :
    Voiced connection lobby ((Call.read broadcast args).events lobby caller)
      ((Call.read broadcast args).sessions lobby caller)
      ((relay.onBroadcast caller args).run Lobby.route args { state := lobby }).2 := by
  obtain ⟨error, same⟩ | ⟨text, token, rfl, same⟩ := relay.onBroadcast_cases caller args
  · have other : Call.read broadcast args = .other := by
      unfold Call.read
      split
      · rfl
      · cases same
      · rfl
      · rfl
    rw [same, other]
    exact voiced_start connection lobby
  · rw [same]
    exact voiced_relayBroadcast present text
      (callerOid_of_unforged honest (List.mem_singleton_self token))

theorem voiced_onAway (present : Present connection caller lobby) (args : Arguments) :
    Voiced connection lobby ((Call.read away args).events lobby caller)
      ((Call.read away args).sessions lobby caller)
      ((relay.onAway caller args).run Lobby.route args { state := lobby }).2 := by
  obtain ⟨error, same⟩ | ⟨text, rfl, same⟩ := relay.onAway_cases caller args
  · have other : Call.read away args = .other := by
      unfold Call.read
      split
      · rfl
      · rfl
      · cases same
      · rfl
    rw [same, other]
    exact voiced_start connection lobby
  · rw [same]
    exact voiced_relayAway present text

theorem voiced_handle [Inhabited τ] (present : Present connection caller lobby)
    {request : Request} (honest : isForged caller request.args = false)
    {entry : Entry τ (Lobby α)}
    (found : DispatchTable.entry? relay.table request.method = some entry) :
    Voiced connection lobby ((Call.read request.method request.args).events lobby caller)
      ((Call.read request.method request.args).sessions lobby caller)
      (entry.handle Lobby.route caller request { state := lobby }).2.2 := by
  have method := DispatchTable.method_of_entry? found
  have mem : entry ∈ (relay.table : DispatchTable τ (Lobby α)).entries :=
    List.mem_of_find?_eq_some found
  simp only [Provider.table, List.mem_cons, List.not_mem_nil, or_false] at mem
  rw [← method]
  obtain rfl | rfl | rfl := mem
  · rw [Entry.handle, Program.run_onShared]
    exact voiced_onTell present honest
  · rw [Entry.handle, Program.run_onShared]
    exact voiced_onBroadcast present honest
  · rw [Entry.handle, Program.run_onShared]
    exact voiced_onAway present request.args

theorem read_of_none [Inhabited τ] {method : UInt8} (args : Arguments)
    (none : DispatchTable.entry? (relay.table : DispatchTable τ (Lobby α)) method = .none) :
    Call.read method args = .other := by
  have unknown := List.find?_eq_none.1 none
  simp only [Provider.table, List.forall_mem_cons, decide_eq_true_eq] at unknown
  obtain ⟨noTell, noBroadcast, noAway, -⟩ := unknown
  unfold Call.read
  split
  · exact if_neg (Ne.symm noTell)
  · exact if_neg (Ne.symm noBroadcast)
  · exact if_neg (Ne.symm noAway)
  · rfl

def registry [Inhabited τ] : Registry τ (Lobby α) := (Registry.register {} ⟨relay.table, []⟩).2

theorem find?_registry [Inhabited τ] (oid : Oid) :
    (registry : Registry τ (Lobby α)).find? oid =
      if oid = Call.target then some ⟨relay.table, []⟩ else none :=
  Registry.lookup_cons_eq ..

theorem place_registry [Inhabited τ] :
    ({ (registry : Registry τ (Lobby α)) with
      targets := Registry.place Call.target ⟨relay.table, []⟩
        (registry : Registry τ (Lobby α)).targets } : Registry τ (Lobby α)) = registry := rfl

theorem dispatch_relay [Inhabited τ] (sink : Response → Lobby α → Lobby α) (request : Request)
    {entry : Entry τ (Lobby α)}
    (found : DispatchTable.entry? relay.table request.method = some entry) :
    Chain.dispatch sink (⟨relay.table, []⟩ : Chain τ (Lobby α)) caller request { state := lobby } =
      ((entry.handle sink caller request { state := lobby }).1, ⟨relay.table, []⟩,
        (entry.handle sink caller request { state := lobby }).2.2) := by
  obtain ⟨quiet, settled⟩ := settled_handle caller lobby request found
  obtain ⟨-, kept⟩ := settled sink
  have same : DispatchTable.put entry (relay.table : DispatchTable τ (Lobby α)).entries =
      (relay.table : DispatchTable τ (Lobby α)).entries := by
    refine DispatchTable.put_of_find? ?_
    rw [DispatchTable.method_of_entry? found]
    exact found
  rw [Chain.dispatch, DispatchTable.dispatch?_of_entry found, kept, same]

theorem voiced_registry_handle [Inhabited τ] (present : Present connection caller lobby)
    {request : Request} (honest : isForged caller request.args = false) :
    let handled := registry.handle (τ := τ) Lobby.route caller request { state := lobby }
    handled.2.1 = registry ∧
      Voiced connection lobby ((Call.ofRequest request).events lobby caller)
        ((Call.ofRequest request).sessions lobby caller) handled.2.2 := by
  intro handled
  have whole : handled = (registry : Registry τ (Lobby α)).handle Lobby.route caller request
    { state := lobby } := rfl
  rw [Registry.handle, find?_registry] at whole
  rw [Call.ofRequest]
  by_cases here : request.target = Call.target
  · rw [if_pos here] at whole ⊢
    dsimp only at whole
    cases found : DispatchTable.entry? (relay.table : DispatchTable τ _) request.method with
    | none =>
      have untaken :
          Chain.taker? (⟨relay.table, []⟩ : Chain τ (Lobby α)) request.method = none := by
        rw [Chain.taker?, Chain.tables, takerAmong?_cons, found]
        rfl
      rw [Chain.dispatch_of_none untaken, here] at whole
      rw [whole, read_of_none _ found]
      exact ⟨place_registry, voiced_start connection lobby⟩
    | some entry =>
      rw [dispatch_relay _ _ found, here] at whole
      rw [whole]
      exact ⟨place_registry, voiced_handle present honest found⟩
  · rw [if_neg here] at whole ⊢
    rw [whole]
    exact ⟨rfl, voiced_start connection lobby⟩

theorem Voiced.report (voiced : Voiced connection lobby events sessions x)
    (whole : lobby.poisoned = false) {session : Session}
    (known : sessions.find? caller.oid = some session) (place : session.connection = connection)
    {args : Arguments} (honest : isForged caller args = false) (error : InvocationError) :
    Voiced connection lobby events sessions (Registry.report Lobby.route args error x) := by
  rw [Registry.report]
  cases first : args.firstListener? with
  | none => exact voiced
  | some listener =>
    obtain ⟨position, token⟩ := listener
    have own : token.callerOid = caller.oid := by
      simpa using List.any_eq_false.1 honest _ (List.mem_of_mem_head? first)
    dsimp only
    rw [Ledger.respond]
    cases heard : x.ledger.hasResponded position with
    | true => exact voiced
    | false =>
      have answered : Voiced connection lobby events sessions
          (x.answer Lobby.route position (.failed token error.text)) :=
        voiced.answer whole (own ▸ known) place position
      exact answered

theorem Call.find?_sessions (call : Call) (lobby : Lobby α) (caller : Caller) (oid : Oid) :
    ((call.sessions lobby caller).find? oid).map (·.connection) =
      (lobby.sessions.find? oid).map (·.connection) := by
  cases call with
  | tell target text => rfl
  | broadcast text => rfl
  | other => rfl
  | away text =>
    rw [Call.sessions, SessionTable.find?_setAway, Option.map_map]
    congr 1
    funext session
    dsimp only [Function.comp]
    split <;> rfl

/-- Handling a call and reporting its failure changes no handler, and posts what is said of the
call and its answers. -/
theorem voiced_registry_dispatch [Inhabited τ] (present : Present connection caller lobby)
    {request : Request} (honest : isForged caller request.args = false) :
    let handled := (registry : Registry τ (Lobby α)).dispatch Lobby.route caller request lobby
    handled.2.1 = registry ∧
      Voiced connection lobby ((Call.ofRequest request).events lobby caller)
        ((Call.ofRequest request).sessions lobby caller) handled.2.2 := by
  intro handled
  have whole : handled = _ := Registry.dispatch_eq Lobby.route registry caller request lobby
  obtain ⟨kept, voiced⟩ := voiced_registry_handle (τ := τ) present honest
  obtain ⟨session, known, place⟩ := present.session
  have still := (Call.ofRequest request).find?_sessions lobby caller caller.oid
  rw [known, Option.map_some] at still
  obtain ⟨session', known', place'⟩ := Option.map_eq_some_iff.1 still
  rw [whole]
  refine ⟨kept, ?_⟩
  dsimp only
  split
  · exact voiced.report present.whole known' (place'.trans place) honest _
  · exact voiced

end Chat

namespace Server

open Dispatch

variable {server : Server τ α} {connection : ConnectionId} {request : Request} {caller : Caller}

def greeting? (server : Server τ α) (connection : ConnectionId) (version : UInt32)
    (username : String) : Option Message :=
  if version ≠ protocolVersion then some (.failure "Protocol version mismatch")
  else
    match server.lobby.table? with
    | none => some (.failure "Server error")
    | some table =>
      match (table.add username connection).1 with
      | .error refusal => some (.failure refusal.text)
      | .ok oid =>
        if table.exhausted then none else some (.bootstrap oid server.registry.bindings)

def utters (server : Server τ α) : Command → List (ConnectionId × Message)
  | .startSession connection version username =>
    ((server.greeting? connection version username).map (connection, ·)).toList
  | .handleRequest connection request =>
    match server.caller? connection with
    | none => []
    | some caller =>
      if isForged caller request.args then []
      else
        (Chat.Call.ofRequest request).events server.lobby caller ++
          (server.answers connection request).map fun response => (connection, .response response)
  | .endSession _ => []

theorem present_of_caller? (consistent : server.lobby.sessions.Consistent)
    (found : server.caller? connection = some caller) :
    Chat.Present connection caller server.lobby := by
  obtain ⟨session, indexed, known, -⟩ := session_of_caller? found
  obtain ⟨session', known', place⟩ := consistent.oidOf?_eq_some.1 indexed
  obtain ⟨table, there, -⟩ := Option.bind_eq_some_iff.1 found
  exact ⟨(table?_eq_some there).1, session', known', place⟩

theorem answers_of_caller? (found : server.caller? connection = some caller)
    (honest : isForged caller request.args = false) :
    server.answers connection request =
      (server.registry.dispatch Lobby.route caller request server.lobby).2.2.ledger.posted := by
  rw [answers, found]
  dsimp only
  rw [honest, if_neg Bool.false_ne_true]

theorem utters_of_caller? (found : server.caller? connection = some caller)
    (honest : isForged caller request.args = false) :
    server.utters (.handleRequest connection request) =
      (Chat.Call.ofRequest request).events server.lobby caller ++
        (server.answers connection request).map fun response =>
          (connection, .response response) := by
  rw [utters, found]
  dsimp only
  rw [honest, if_neg Bool.false_ne_true]

theorem handleRequest_eq [Inhabited τ] (chat : server.registry = Chat.registry)
    (consistent : server.lobby.sessions.Consistent)
    (found : server.caller? connection = some caller)
    (honest : isForged caller request.args = false) :
    (server.handleRequest connection request).2 =
      ⟨Chat.registry, { server.lobby with
        sessions := (Chat.Call.ofRequest request).sessions server.lobby caller
        outboxes := server.lobby.outboxes.offerAll
          (server.utters (.handleRequest connection request))
      }⟩ := by
  have present := present_of_caller? consistent found
  obtain ⟨kept, voiced⟩ := Chat.voiced_registry_dispatch (τ := τ) present honest
  rw [utters_of_caller? found honest, answers_of_caller? found honest, chat]
  refine Eq.trans ?_ (congrArg (Server.mk Chat.registry) voiced)
  rw [handleRequest, found]
  dsimp only
  rw [honest, if_neg Bool.false_ne_true, chat]
  revert kept
  rcases Chat.registry.dispatch Lobby.route caller request server.lobby with
    ⟨_ | _ | _, registry, x⟩
  all_goals
    rintro (rfl : registry = Chat.registry)
    rfl

theorem handleRequest_eq_of_dropped
    (dropped : ∀ caller, server.caller? connection = some caller →
      isForged caller request.args = true) :
    server.handleRequest connection request = (none, server) ∧
      server.utters (.handleRequest connection request) = [] := by
  rw [handleRequest, utters]
  cases found : server.caller? connection with
  | none => exact ⟨rfl, rfl⟩
  | some caller => exact ⟨if_pos (dropped caller found), if_pos (dropped caller found)⟩

theorem outboxes_startSession (connection : ConnectionId) (version : UInt32) (username : String) :
    (server.startSession connection version username).2.lobby.outboxes =
      server.lobby.outboxes.offerAll
        (server.utters (.startSession connection version username)) := by
  rw [startSession, utters, greeting?]
  by_cases other : version ≠ protocolVersion
  · rw [if_pos other, if_pos other]
    rfl
  · rw [if_neg other, if_neg other]
    cases server.lobby.table? with
    | none => rfl
    | some table =>
      dsimp only
      rcases table.add username connection with ⟨refusal | oid, sessions⟩
      · rfl
      · dsimp only
        cases table.exhausted <;> rfl

/-- A command does to the outboxes what posting its messages does, and changes no handler. -/
theorem outboxes_perform [Inhabited τ] (chat : server.registry = Chat.registry)
    (consistent : server.lobby.sessions.Consistent) (command : Command) :
    (server.perform command).2.registry = Chat.registry ∧
      (server.perform command).2.lobby.outboxes =
        server.lobby.outboxes.offerAll (server.utters command) := by
  cases command with
  | startSession connection version username =>
    refine ⟨?_, outboxes_startSession connection version username⟩
    rw [← chat, perform, startSession]
    split
    · rfl
    · split
      · rfl
      · split
        · rfl
        · split <;> rfl
  | handleRequest connection request =>
    by_cases handled : ∃ caller, server.caller? connection = some caller ∧
        isForged caller request.args = false
    · obtain ⟨caller, found, honest⟩ := handled
      rw [perform, handleRequest_eq chat consistent found honest]
      exact ⟨rfl, rfl⟩
    · obtain ⟨same, silent⟩ := handleRequest_eq_of_dropped fun caller found => by
        by_contra honest
        exact handled ⟨caller, found, by simpa using honest⟩
      rw [perform, same, silent]
      exact ⟨chat, rfl⟩
  | endSession connection =>
    rw [perform, endSession, utters]
    split
    · exact ⟨chat, rfl⟩
    · exact ⟨chat, rfl⟩

end Server

end Parley
