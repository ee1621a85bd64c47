import Parley.Chat.Relay
import Parley.Proofs.Chat.Calls
import Parley.Proofs.Dispatch.Report
import Parley.Proofs.Dispatch.Running

/-! What the caller of the chat service hears.
Each of the calls is run from any lobby whatever: the session table may be lost, connections may be
gone and lines too long. A call with a listener ends with one answer to the first of its listeners,
and the answer tells whether the call succeeded. -/

namespace Parley.Chat

open Dispatch Server

section

variable {sink : Response → Lobby α → Lobby α} {args : Arguments} {x : Exchange (Lobby α)}
  {listener : Nat} {token : Token}

theorem run_sessions :
    sessions.run sink args x =
      match x.state.table? with
      | none => (.failed (.failed internalError), x)
      | some table => (.returned table, x) := by
  rw [sessions, Program.run_get_bind]
  cases x.state.table? <;> rfl

theorem run_deliver (connection : ConnectionId) (message : Message) :
    (deliver connection message).run sink args x =
      match x.state.post connection message with
      | (.ok (), lobby) => (.returned (), { x with state := lobby })
      | (.error error, _) => (.failed (relayFailure error), x) := by
  rw [deliver, Program.run_get_bind]
  rcases x.state.post connection message with ⟨_ | _, lobby⟩ <;> rfl

def delivered (token : Token) (clock : Nat) : Option Away → Response
  | none => ⟨token, tellSucceeded, []⟩
  | some away => ⟨token, tellSucceededIdle, [.long (.ofNat (clock - away.since))]⟩

theorem run_relayTell (caller : Caller) (target message : String)
    (found : args.listenerAt? listener = some token)
    (unanswered : x.ledger.hasResponded listener = false) :
    (relayTell caller target message listener).run sink args x =
      match x.state.table? with
      | none => (.failed (.failed internalError), x)
      | some table =>
        match table.findByUsername? target with
        | none => (.failed (.failed userNotOnline), x)
        | some session =>
          match x.state.post session.connection (line session.oid caller.username message) with
          | (.error error, _) => (.failed (relayFailure error), x)
          | (.ok (), lobby) =>
            (.returned (), { x with state := lobby }.answer sink listener
              (delivered token lobby.clock session.away)) := by
  rw [relayTell, Program.run_bind, run_sessions]
  cases x.state.table? with
  | none => rfl
  | some table =>
    dsimp only
    cases table.findByUsername? target with
    | none => rfl
    | some session =>
      dsimp only
      rw [Program.run_bind, run_deliver]
      rcases x.state.post session.connection (line session.oid caller.username message) with
        ⟨_ | _, lobby⟩
      · rfl
      · dsimp only
        cases session.away with
        | none => exact Program.run_answer_bind found unanswered
        | some away => exact Program.run_answer_bind found unanswered

theorem run_relayBroadcast (caller : Caller) (message : String)
    (found : args.listenerAt? listener = some token)
    (unanswered : x.ledger.hasResponded listener = false) :
    (relayBroadcast caller message listener).run sink args x =
      match x.state.table? with
      | none => (.failed (.failed internalError), x)
      | some table =>
        match announce caller.username message x.state table.sessions with
        | (some error, lobby) => (.failed error, { x with state := lobby })
        | (none, lobby) =>
          (.returned (), { x with state := lobby }.answer sink listener (.processed token)) := by
  rw [relayBroadcast, Program.run_bind, run_sessions]
  cases x.state.table? with
  | none => rfl
  | some table =>
    dsimp only
    rw [Program.run_get_bind]
    rcases announce caller.username message x.state table.sessions with ⟨_ | error, lobby⟩
    · exact Program.run_answer_bind (x := { x with state := lobby }) found unanswered
    · rfl

theorem run_relayAway (caller : Caller) (message : String) :
    (relayAway caller message).run sink args x =
      match x.state.table? with
      | none => (.failed (.failed internalError), x)
      | some table =>
        match table.find? caller.oid with
        | none => (.returned (), x)
        | some session =>
          let away : Lobby α := { x.state with
            sessions := x.state.sessions.setAway caller.oid message x.state.clock }
          match away.post session.connection (awayChange caller.oid message) with
          | (.ok (), lobby) => (.returned (), { x with state := lobby })
          | (.error error, _) => (.failed (relayFailure error), { x with state := away }) := by
  rw [relayAway, Program.run_bind, run_sessions]
  cases x.state.table? with
  | none => rfl
  | some table =>
    dsimp only
    cases table.find? caller.oid with
    | none => rfl
    | some session =>
      dsimp only
      rw [Program.run_bind]
      exact run_deliver (x := { x with state := _ }) session.connection _

/-- The answer that goes with the end of a call: a success of the method that was called, if the
call returned, and the text of the error, if it failed. -/
inductive Reply (method : UInt8) (token : Token) : Outcome Unit → Response → Prop where
  | told : method = tell → Reply method token (.returned ()) ⟨token, tellSucceeded, []⟩
  | toldIdle (idle : Int64) : method = tell →
      Reply method token (.returned ()) ⟨token, tellSucceededIdle, [.long idle]⟩
  | confirmed : method = broadcast → Reply method token (.returned ()) (.processed token)
  | failed (error : InvocationError) :
      Reply method token (.failed error) (.failed token error.text)

theorem reply_delivered (token : Token) (clock : Nat) (away : Option Away) :
    Reply tell token (.returned ()) (delivered token clock away) := by
  cases away with
  | none => exact .told rfl
  | some away => exact .toldIdle _ rfl

/-- How a handler of the service ends: it answers the first of the listeners, as the last thing that
it does, if it returns, and nobody if it fails. The state without the answer is `quiet`. -/
inductive Settled (sink : Response → Lobby α → Lobby α) (quiet : Lobby α) (method : UInt8)
    (args : Arguments) : Outcome Unit → Exchange (Lobby α) → Prop where
  | failed (error : InvocationError) :
    Settled sink quiet method args (.failed error) { state := quiet }
  | unheard : args.firstListener? = none →
    Settled sink quiet method args (.returned ()) { state := quiet }
  | heard {position : Nat} {token : Token} {response : Response} :
    args.firstListener? = some (position, token) → Reply method token (.returned ()) response →
    Settled sink quiet method args (.returned ())
      ⟨sink response quiet, ⟨[position], [response]⟩⟩

variable (caller : Caller) (lobby : Lobby α)

theorem settled_onTell (args : Arguments) : ∃ quiet, ∀ sink, Settled sink quiet tell args
    ((relay.onTell caller args).run sink args { state := lobby }).1
    ((relay.onTell caller args).run sink args { state := lobby }).2 := by
  obtain ⟨error, same⟩ | ⟨target, message, token, rfl, same⟩ := relay.onTell_cases caller args
  · rw [same]
    exact ⟨lobby, fun sink => .failed error⟩
  · -- the arguments are as they should be, so this listener is the only one and the first
    have here : Arguments.listenerAt? [.str target, .str message, .listener token] 2 =
        some token := rfl
    have ran (sink : Response → Lobby α → Lobby α) :
        (relay.tell caller target message 2).run sink _ _ = _ :=
      run_relayTell (x := { state := lobby }) caller target message here rfl
    simp only [same, ran]
    cases lobby.table? with
    | none => exact ⟨lobby, fun sink => .failed _⟩
    | some table =>
      dsimp only
      cases table.findByUsername? target with
      | none => exact ⟨lobby, fun sink => .failed _⟩
      | some session =>
        dsimp only
        rcases lobby.post session.connection (line session.oid caller.username message) with
          ⟨error | _, after⟩
        · exact ⟨lobby, fun sink => .failed _⟩
        · exact ⟨after, fun sink => .heard rfl (reply_delivered token _ _)⟩

theorem settled_onBroadcast (args : Arguments) : ∃ quiet, ∀ sink, Settled sink quiet broadcast args
    ((relay.onBroadcast caller args).run sink args { state := lobby }).1
    ((relay.onBroadcast caller args).run sink args { state := lobby }).2 := by
  obtain ⟨error, same⟩ | ⟨message, token, rfl, same⟩ := relay.onBroadcast_cases caller args
  · rw [same]
    exact ⟨lobby, fun sink => .failed error⟩
  · have here : Arguments.listenerAt? [.str message, .listener token] 1 = some token := rfl
    have ran (sink : Response → Lobby α → Lobby α) :
        (relay.broadcast caller message 1).run sink _ _ = _ :=
      run_relayBroadcast (x := { state := lobby }) caller message here rfl
    simp only [same, ran]
    cases lobby.table? with
    | none => exact ⟨lobby, fun sink => .failed _⟩
    | some table =>
      dsimp only
      rcases announce caller.username message lobby table.sessions with ⟨_ | error, after⟩
      · exact ⟨after, fun sink => .heard rfl (.confirmed rfl)⟩
      · exact ⟨after, fun sink => .failed error⟩

theorem settled_onAway (args : Arguments) : ∃ quiet, ∀ sink, Settled sink quiet away args
    ((relay.onAway caller args).run sink args { state := lobby }).1
    ((relay.onAway caller args).run sink args { state := lobby }).2 := by
  obtain ⟨error, same⟩ | ⟨message, rfl, same⟩ := relay.onAway_cases caller args
  · rw [same]
    exact ⟨lobby, fun sink => .failed error⟩
  · have ran (sink : Response → Lobby α → Lobby α) :
        (relay.away caller message).run sink [.str message] { state := lobby } = _ :=
      run_relayAway caller message
    simp only [same, ran]
    cases lobby.table? with
    | none => exact ⟨lobby, fun sink => .failed _⟩
    | some table =>
      dsimp only
      cases table.find? caller.oid with
      | none => exact ⟨lobby, fun sink => .unheard rfl⟩
      | some session =>
        dsimp only
        split
        · exact ⟨_, fun sink => .unheard rfl⟩
        · exact ⟨_, fun sink => .failed _⟩

theorem settled_handle [Inhabited τ] (request : Request) {entry : Entry τ (Lobby α)}
    (found : DispatchTable.entry? relay.table request.method = some entry) :
    ∃ quiet, ∀ sink,
      Settled sink quiet request.method request.args
        (entry.handle sink caller request { state := lobby }).1
        (entry.handle sink caller request { state := lobby }).2.2 ∧
      (entry.handle sink caller request { state := lobby }).2.1 = entry := by
  have method := DispatchTable.method_of_entry? found
  have mem : entry ∈ (relay.table : DispatchTable τ (Lobby α)).entries :=
    List.mem_of_find?_eq_some found
  simp only [Provider.table, List.mem_cons, List.not_mem_nil, or_false] at mem
  rw [← method]
  -- one case for each method of the service
  obtain rfl | rfl | rfl := mem
  · obtain ⟨quiet, settled⟩ := settled_onTell caller lobby request.args
    refine ⟨quiet, fun sink => ?_⟩
    rw [Entry.handle, Program.run_onShared]
    exact ⟨settled sink, rfl⟩
  · obtain ⟨quiet, settled⟩ := settled_onBroadcast caller lobby request.args
    refine ⟨quiet, fun sink => ?_⟩
    rw [Entry.handle, Program.run_onShared]
    exact ⟨settled sink, rfl⟩
  · obtain ⟨quiet, settled⟩ := settled_onAway caller lobby request.args
    refine ⟨quiet, fun sink => ?_⟩
    rw [Entry.handle, Program.run_onShared]
    exact ⟨settled sink, rfl⟩

end

section

variable {registry : Registry τ (Lobby α)} {caller : Caller} {request : Request} {lobby : Lobby α}

variable (caller lobby) in
/-- A call that reaches no handler but those of the service is settled, and every later call
reaches the same handlers in the same states. -/
theorem settled_call [Inhabited τ]
    (chat : ∀ chain, registry.find? request.target = some chain → chain = ⟨relay.table, []⟩) :
    ∃ quiet, ∀ sink,
      Settled sink quiet request.method request.args
        (registry.handle sink caller request { state := lobby }).1
        (registry.handle sink caller request { state := lobby }).2.2 ∧
      ∀ oid method,
        (registry.handle sink caller request { state := lobby }).2.1.taker? oid method =
          registry.taker? oid method := by
  cases found : registry.taker? request.target request.method with
  | none =>
    refine ⟨lobby, fun sink => ?_⟩
    obtain ⟨registry', handled, same⟩ :=
      Registry.handle_of_none sink caller { state := lobby } found
    rw [handled]
    refine ⟨.failed _, fun oid method => ?_⟩
    rw [Registry.taker?, same, Registry.taker?]
  | some entry =>
    obtain ⟨chain, here, taker⟩ := Option.bind_eq_some_iff.1 found
    obtain rfl := chat chain here
    rw [Chain.taker?, Chain.tables, takerAmong?_cons, takerAmong?, List.findSome?_nil,
      Option.or_none] at taker
    obtain ⟨quiet, settled⟩ := settled_handle caller lobby request taker
    refine ⟨quiet, fun sink => ?_⟩
    obtain ⟨registry', handled, others⟩ :=
      Registry.handle_of_entry sink caller { state := lobby } found
    obtain ⟨settled, kept⟩ := settled sink
    rw [handled]
    refine ⟨settled, fun oid method => ?_⟩
    rw [others, kept]
    split
    · rename_i same
      rw [same.1, same.2, found]
    · rfl

/-- Who has heard what of a call when it has been settled and its failure, if any, reported. The
sink has been given just what was posted. -/
theorem reply_of_settled {sink : Response → Lobby α → Lobby α} {quiet : Lobby α} {method : UInt8}
    {outcome : Outcome Unit} {x : Exchange (Lobby α)} {registry' : Registry τ (Lobby α)}
    (settled : Settled sink quiet method request.args outcome x)
    (handled : registry.handle sink caller request { state := lobby } = (outcome, registry', x)) :
    let after := registry.dispatch sink caller request lobby
    (match request.args.firstListener? with
      | none => after.2.2.ledger.posted = []
      | some (_, token) => ∃ response, after.2.2.ledger.posted = [response] ∧
          Reply method token after.1 response) ∧
    after.2.2.state =
      after.2.2.ledger.posted.foldl (fun lobby response => sink response lobby) quiet := by
  dsimp only
  rw [Registry.dispatch_eq, handled]
  cases settled with
  | failed error =>
    cases first : request.args.firstListener? with
    | none =>
      dsimp only
      rw [Registry.report_of_none first]
      exact ⟨rfl, rfl⟩
    | some listener =>
      dsimp only
      rw [Registry.report_eq_answer first rfl]
      exact ⟨⟨_, rfl, .failed error⟩, rfl⟩
  | unheard none =>
    rw [none]
    exact ⟨rfl, rfl⟩
  | heard first reply =>
    rw [first]
    exact ⟨⟨_, rfl, reply⟩, rfl⟩

/-- A call of the chat service with a listener is answered once, to the first of its listeners; a
call without listeners is not answered. -/
theorem reply_of_dispatch [Inhabited τ] (registry : Registry τ (Lobby α)) (caller : Caller)
    (request : Request) (lobby : Lobby α)
    (chat : ∀ chain, registry.find? request.target = some chain → chain = ⟨relay.table, []⟩) :
    ∃ quiet : Lobby α, ∀ sink,
      let after := registry.dispatch sink caller request lobby
      (match request.args.firstListener? with
        | none => after.2.2.ledger.posted = []
        | some (_, token) =>
          ∃ response, after.2.2.ledger.posted = [response] ∧
            Reply request.method token after.1 response) ∧
      after.2.2.state =
        after.2.2.ledger.posted.foldl (fun lobby response => sink response lobby) quiet ∧
      (∀ text, after.1 ≠ .panicked text) ∧
      ∀ oid method, after.2.1.taker? oid method = registry.taker? oid method := by
  obtain ⟨quiet, settled⟩ := settled_call caller lobby chat
  refine ⟨quiet, fun sink => ?_⟩
  intro after
  obtain ⟨settled, same⟩ := settled sink
  rcases handled : registry.handle sink caller request { state := lobby } with
    ⟨outcome, registry', x⟩
  rw [handled] at settled same
  have whole : after = _ := Registry.dispatch_eq sink registry caller request lobby
  rw [handled] at whole
  obtain ⟨heard, state⟩ := reply_of_settled settled handled
  refine ⟨heard, state, fun text => ?_, fun oid method => ?_⟩
  · rw [whole]
    cases settled <;> simp
  · rw [whole]
    exact same oid method

/-- A listener where the name of a client belongs: the call fails, and it is that listener which
hears of it. The sink here keeps the answers. -/
theorem reply_of_dispatch_misplaced :
    let registry : Registry Unit (Lobby (List Response)) :=
      (Registry.register {} ⟨relay.table, []⟩).2
    let request : Request := ⟨1, tell, [.listener ⟨1000, 7⟩, .str "hi", .listener ⟨1000, 8⟩]⟩
    let lobby : Lobby (List Response) := { sessions := { limit := 4 }, app := [] }
    let after := registry.dispatch
      (fun response lobby => { lobby with app := lobby.app ++ [response] }) ⟨1000, "alice"⟩ request
      lobby
    (∀ chain, registry.find? request.target = some chain → chain = ⟨relay.table, []⟩) ∧
      ∃ response, after.2.2.ledger.posted = [response] ∧
        Reply request.method ⟨1000, 7⟩ after.1 response ∧
        after.2.2.state.app = [response] := by
  intro registry request lobby after
  have chat : ∀ chain, registry.find? request.target = some chain → chain = ⟨relay.table, []⟩ :=
    fun chain found => (Option.some.inj found).symm
  obtain ⟨quiet, told⟩ := reply_of_dispatch registry ⟨1000, "alice"⟩ request lobby chat
  obtain ⟨⟨response, posted, reply⟩, -, -⟩ :=
    told fun response lobby => { lobby with app := lobby.app ++ [response] }
  have kept : after.2.2.state.app = after.2.2.ledger.posted := by decide +kernel
  exact ⟨chat, response, posted, reply, kept.trans posted⟩

end

end Parley.Chat
