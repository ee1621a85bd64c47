import Parley.Proofs.Chat.Calls
import Parley.Proofs.Chat.Listener
import Parley.Proofs.Client.Parking
import Parley.Proofs.Dispatch.Attempts
import Parley.Proofs.Wire.Stream

/-! Calls of the chat service from end to end.
A call is parked, sent, and taken apart; the provider of the service says what it likes; and what it
says first, or the error with which it fails, is sent back and told to the listener. Both ways the
words of the one side are those of the other. -/

namespace Parley

namespace Wire

def conveyed (limit : Nat) (message : Message) : List Message :=
  ((FrameReader.mk limit []).extend message.toFrame).drainMessages.1

theorem conveyed_of_framable {limit : Nat} {message : Message} (small : message.Framable)
    (le : message.encode.length ≤ limit) : conveyed limit message = [message] := by
  rw [conveyed, FrameReader.drainMessages_of_toFrame small le (List.nil_append _)]

end Wire

namespace Chat

open Client Dispatch
open Wire (conveyed conveyed_of_framable)

/-! The words of the server. -/

def TellOutcome.attempt (listener : Nat) : TellOutcome → Attempt
  | .succeeded => ⟨listener, tellSucceeded, []⟩
  | .succeededIdle milliseconds => ⟨listener, tellSucceededIdle, [.long milliseconds]⟩
  | .failed cause => ⟨listener, requestFailed, [.str cause]⟩

def ConfirmOutcome.attempt (listener : Nat) : ConfirmOutcome → Attempt
  | .processed => ⟨listener, requestProcessed, []⟩
  | .failed cause => ⟨listener, requestFailed, [.str cause]⟩

def TellOutcome.say (listener : Nat) : TellOutcome → Program σ Unit
  | .succeeded => succeed listener
  | .succeededIdle milliseconds => succeedIdle listener milliseconds
  | .failed cause => do let _ ← Program.answer listener requestFailed [.str cause]

def ConfirmOutcome.say (listener : Nat) : ConfirmOutcome → Program σ Unit
  | .processed => confirm listener
  | .failed cause => do let _ ← Program.answer listener requestFailed [.str cause]

section

variable (sink : Response → σ → σ) (args : Arguments) (x : Exchange σ) (listener : Nat)
  (rest : Unit → Program σ Unit)

theorem head?_attempts_tell (outcome : TellOutcome) :
    ((outcome.say listener >>= rest).attempts sink args x).head? =
      some (outcome.attempt listener) := by
  cases outcome <;> rfl

theorem head?_attempts_confirm (outcome : ConfirmOutcome) :
    ((outcome.say listener >>= rest).attempts sink args x).head? =
      some (outcome.attempt listener) := by
  cases outcome <;> rfl

end

/-! The words of the client. -/

section

variable {listen : κ → Dispatcher κ ω} {name : κ} {token : Token} {desk : Client.Desk κ ω}

/-- Nobody but its kind refuses an answer: what the listener does with it does not fail. -/
def Sure (listen : κ → Dispatcher κ ω) (hear : ο → Callback κ ω) : Prop :=
  ∀ outcome desk error desk', (hear outcome).run listen desk ≠ (.failed error, desk')

theorem dispatch_of_parked (parked : desk.director.pending.lookup token = some name)
    (method : UInt8) (values : Arguments) :
    desk.dispatch listen ⟨token, method, values⟩ =
      Desk.deliver listen (listen name) ⟨token, method, values⟩
        { desk with director := desk.director.withdraw [token] } := by
  rw [Desk.dispatch, Director.take, parked]

/-- An answer that the kind knows, and that nobody refuses, is what the listener responds to. -/
theorem deliver_of_sure {dispatcher : Dispatcher κ ω} {method : UInt8} {values : Arguments}
    (known : (dispatcher.kind.methodName method).isNone = false) (proper : method ≠ requestFailed)
    (sure : ∀ desk error desk',
      (dispatcher.respond method values).run listen desk ≠ (.failed error, desk'))
    (desk : Client.Desk κ ω) :
    Desk.deliver listen dispatcher ⟨token, method, values⟩ desk =
      (dispatcher.respond method values).run listen desk := by
  rw [Desk.deliver, known, if_neg Bool.false_ne_true, if_neg proper]
  rcases ran : (dispatcher.respond method values).run listen desk with ⟨_ | error | _, desk'⟩
  · rfl
  · exact (sure desk error desk' ran).elim
  · rfl

theorem dispatch_onTell {hear : TellOutcome → Callback κ ω} (kind : listen name = onTell hear)
    (sure : Sure listen hear) (parked : desk.director.pending.lookup token = some name)
    (listener : Nat) (outcome : TellOutcome) :
    desk.dispatch listen ((outcome.attempt listener).response token) =
      (hear outcome).run listen { desk with director := desk.director.withdraw [token] } := by
  rw [Attempt.response, dispatch_of_parked parked, kind]
  cases outcome with
  | succeeded => exact deliver_of_sure rfl (by decide : tellSucceeded ≠ _) (sure .succeeded) _
  | succeededIdle milliseconds =>
    exact deliver_of_sure rfl (by decide : tellSucceededIdle ≠ _)
      (sure (.succeededIdle milliseconds)) _
  | failed cause => rfl

theorem dispatch_onConfirm {hear : ConfirmOutcome → Callback κ ω}
    (kind : listen name = onConfirm hear) (sure : Sure listen hear)
    (parked : desk.director.pending.lookup token = some name) (listener : Nat)
    (outcome : ConfirmOutcome) :
    desk.dispatch listen ((outcome.attempt listener).response token) =
      (hear outcome).run listen { desk with director := desk.director.withdraw [token] } := by
  rw [Attempt.response, dispatch_of_parked parked, kind]
  cases outcome with
  | processed => exact deliver_of_sure rfl (by decide : requestProcessed ≠ _) (sure .processed) _
  | failed cause => rfl

end

/-- A call becomes a request, the listeners of the call wait under the tokens of the request, and
the server does with the request what the program does. -/
structure Arrives (director : Director κ) (call : Call κ) (request : Request)
    (tokens : List Token) (registry : Registry τ σ) (sink : Response → σ → σ) (caller : Caller)
    (state : σ) (program : Program σ Unit) : Prop where
  begun : ∃ director', director.begin call = (.ok (request, tokens), director') ∧
    ∀ token name, (token, name) ∈ tokens.zip call.listeners →
      director'.pending.lookup token = some name
  conveyed : ∀ limit, (Message.invocation request).Framable →
    (Message.invocation request).encode.length ≤ limit →
      conveyed limit (.invocation request) = [.invocation request]
  handled : ∃ registry', registry.handle sink caller request { state } =
    ((program.run sink request.args { state }).1, registry',
      (program.run sink request.args { state }).2)

/-- The listener of a call, which waits under a token, hears the first outcome that the server says,
or the error with which the server has failed without saying one. -/
structure Told (kind : (ο → Callback κ ω) → Dispatcher κ ω) (say : ο → Program σ Unit)
    (word : ο → Attempt) (failed : String → ο) (listen : κ → Dispatcher κ ω) (name : κ)
    (token : Token) (request : Request) (registry : Registry τ σ) (sink : Response → σ → σ)
    (caller : Caller) (state : σ) (program : Program σ Unit) : Prop where
  said : ∀ outcome (rest : Unit → Program σ Unit) x,
    ((say outcome >>= rest).attempts sink request.args x).head? = some (word outcome)
  answered : ∀ outcome,
    (program.attempts sink request.args { state }).head? = some (word outcome) →
      (registry.dispatch sink caller request state).2.2.ledger.posted =
        [(word outcome).response token]
  unanswered : program.attempts sink request.args { state } = [] →
    (registry.dispatch sink caller request state).2.2.ledger.posted =
      match (program.run sink request.args { state }).1 with
      | .failed error => [(word (failed error.text)).response token]
      | _ => []
  conveyed : ∀ outcome limit, (Message.response ((word outcome).response token)).Framable →
    (Message.response ((word outcome).response token)).encode.length ≤ limit →
      conveyed limit (.response ((word outcome).response token)) =
        [.response ((word outcome).response token)]
  heard : ∀ hear, listen name = kind hear → Sure listen hear → ∀ desk : Client.Desk κ ω,
    desk.director.pending.lookup token = some name → ∀ outcome,
      desk.dispatch listen ((word outcome).response token) =
        (hear outcome).run listen { desk with director := desk.director.withdraw [token] }

section

variable {director : Director κ} {registry : Registry τ σ} {chain : Chain τ σ} {chat : Oid}

theorem lookup_parkAll {call : Call κ} {values : Arguments} {tokens : List Token}
    {director' : Director κ} (parking : director.parkAll call.args = (values, tokens, director'))
    (few : director.pending.length + 1 < 2 ^ 32)
    (one : call.listeners.length ≤ 1) {token : Token} {name : κ}
    (mem : (token, name) ∈ tokens.zip call.listeners) :
    director'.pending.lookup token = some name := by
  obtain ⟨pending, fresh⟩ := Director.parkAll_spec parking (by omega)
  have unused : director.pending.lookup token = none := by
    refine List.lookup_eq_none_iff.2 fun entry known => ?_
    have apart := fresh token (List.of_mem_zip mem).1
    exact bne_iff_ne.2 fun same => apart (List.mem_map.2 ⟨entry, known, same.symm⟩)
  have alone : tokens.zip call.listeners = [(token, name)] := by
    have short : (tokens.zip call.listeners).length ≤ 1 := by
      rw [List.length_zip]
      omega
    obtain ⟨first, only⟩ := List.length_eq_one_iff.1
      (Nat.le_antisymm short (List.length_pos_of_mem mem))
    rw [only, List.mem_singleton] at mem
    rw [only, mem]
  rw [pending, alone, List.lookup_append, unused, Option.none_or, List.lookup_cons_self]

theorem arrives {call : Call κ} {request : Request} {tokens : List Token} {director' : Director κ}
    {entry : Entry τ σ} {program : Program σ Unit} (opened : director.closed = false)
    (few : director.pending.length + 1 < 2 ^ 32) (one : call.listeners.length ≤ 1)
    (parking : director.parkAll call.args = (request.args, tokens, director'))
    (target : request.target = call.target) (method : request.method = call.method)
    (found : registry.taker? request.target request.method = some entry) (caller : Caller)
    (shared : entry.handler caller request.args = program.onShared) (sink : Response → σ → σ)
    (state : σ) : Arrives director call request tokens registry sink caller state program := by
  refine ⟨⟨director', ?_, fun token name mem => lookup_parkAll parking few one mem⟩,
    fun limit small le => conveyed_of_framable small le, Registry.handle_of_onShared found shared⟩
  rw [Director.begin, opened, if_neg Bool.false_ne_true, parking]
  dsimp only
  rw [← target, ← method]

theorem taker?_of_primary {table : DispatchTable τ σ} (here : registry.find? chat = some chain)
    (primary : chain.primary = table) {method : UInt8} {entry : Entry τ σ}
    (known : table.entry? method = some entry) : registry.taker? chat method = some entry := by
  rw [Registry.taker?, here, Option.bind_some, Chain.taker?, Chain.tables, takerAmong?_cons,
    primary, known, Option.some_or]

theorem told {kind : (ο → Callback κ ω) → Dispatcher κ ω} {say : ο → Program σ Unit}
    {word : ο → Attempt} {failed : String → ο} {listen : κ → Dispatcher κ ω} {name : κ}
    {request : Request} {position : Nat} {token : Token} {tokens : List Token} {call : Call κ}
    {sink : Response → σ → σ} {caller : Caller} {state : σ} {program : Program σ Unit}
    (arrived : Arrives director call request tokens registry sink caller state program)
    (first : request.args.firstListener? = some (position, token))
    (only : ∀ other t, request.args.listenerAt? other = some t → other = position)
    (place : ∀ outcome, (word outcome).position = position)
    (fault : ∀ cause, (word (failed cause)).response token = .failed token cause)
    (said : ∀ outcome (rest : Unit → Program σ Unit) x,
      ((say outcome >>= rest).attempts sink request.args x).head? = some (word outcome))
    (heard : ∀ hear, listen name = kind hear → Sure listen hear → ∀ desk : Client.Desk κ ω,
      desk.director.pending.lookup token = some name → ∀ outcome,
        desk.dispatch listen ((word outcome).response token) =
          (hear outcome).run listen { desk with director := desk.director.withdraw [token] }) :
    Told kind say word failed listen name token request registry sink caller state program := by
  obtain ⟨registry', handled⟩ := arrived.handled
  obtain ⟨answered, silent⟩ := Registry.posted_dispatch_of_attempts first only handled
  refine ⟨said, fun outcome head => answered _ head (place outcome), fun none => ?_,
    fun outcome limit small le => conveyed_of_framable small le, heard⟩
  rw [silent none]
  cases (program.run sink request.args { state }).1 with
  | failed error => exact congrArg ([·]) (fault error.text).symm
  | returned u => rfl
  | panicked text => rfl

theorem posted_of_tokens {request : Request} (none : request.args.tokens = [])
    (sink : Response → σ → σ) (caller : Caller) (state : σ) :
    (registry.dispatch sink caller request state).2.2.ledger.posted = [] := by
  have fair := Registry.fair_dispatch sink registry caller request state
  refine List.eq_nil_iff_forall_not_mem.2 fun response mem => ?_
  have heard : response.token ∈
      (registry.dispatch sink caller request state).2.2.ledger.posted.map (·.token) :=
    List.mem_map_of_mem mem
  rw [fair.tokens] at heard
  obtain ⟨position, -, found⟩ := List.mem_filterMap.1 heard
  have known := Arguments.mem_tokens_of_listenerAt? found
  rw [none] at known
  cases known

/-- The two sides of the chat service understand each other: what a line says arrives as it was
said, and the first outcome that the provider says is the one that the listener hears. -/
theorem conversation_of_call [Inhabited τ] (provider : Provider σ)
    (here : registry.find? chat = some chain) (primary : chain.primary = provider.table)
    (opened : director.closed = false) (few : director.pending.length + 1 < 2 ^ 32)
    (listen : κ → Dispatcher κ ω) (sink : Response → σ → σ) (caller : Caller) (state : σ) :
    (∀ (target message : String) (name : κ), ∃ token,
      let request : Request := ⟨chat, tell, [.str target, .str message, .listener token]⟩
      let program := provider.tell caller target message 2
      Arrives director (tellCall chat target message name) request [token] registry sink caller
        state program ∧
      Told onTell (TellOutcome.say 2) (TellOutcome.attempt 2) .failed listen name token request
        registry sink
        caller state program) ∧
    (∀ (message : String) (name : κ), ∃ token,
      let request : Request := ⟨chat, broadcast, [.str message, .listener token]⟩
      let program := provider.broadcast caller message 1
      Arrives director (broadcastCall chat message name) request [token] registry sink caller
        state program ∧
      Told onConfirm (ConfirmOutcome.say 1) (ConfirmOutcome.attempt 1) .failed listen name token
        request registry sink caller state program) ∧
    ∀ message : String,
      let request : Request := ⟨chat, away, [.str message]⟩
      Arrives director (awayCall chat message) request [] registry sink caller state
        (provider.away caller message) ∧
      (registry.dispatch sink caller request state).2.2.ledger.posted = [] := by
  refine ⟨fun target message name => ⟨(director.park name).1, ?_⟩,
    fun message name => ⟨(director.park name).1, ?_⟩, fun message => ?_⟩
  · intro request program
    have known : registry.taker? chat tell = some _ := taker?_of_primary here primary rfl
    have one : (tellCall chat target message name).listeners.length ≤ 1 := Nat.le_refl 1
    have arrived : Arrives director _ request _ registry sink caller state program :=
      arrives opened few one rfl rfl rfl known caller rfl sink state
    refine ⟨arrived, told arrived rfl (fun other t found => ?_) (fun outcome => ?_)
      (fun cause => rfl) ?_ ?_⟩
    · match other with
      | 0 => cases found
      | 1 => cases found
      | 2 => rfl
      | n + 3 => cases found
    · cases outcome <;> rfl
    · exact fun outcome rest x => head?_attempts_tell sink _ x 2 rest outcome
    · exact fun hear kind sure desk parked => dispatch_onTell kind sure parked 2
  · intro request program
    have known : registry.taker? chat broadcast = some _ := taker?_of_primary here primary rfl
    have one : (broadcastCall chat message name).listeners.length ≤ 1 := Nat.le_refl 1
    have arrived : Arrives director _ request _ registry sink caller state program :=
      arrives opened few one rfl rfl rfl known caller rfl sink state
    refine ⟨arrived, told arrived rfl (fun other t found => ?_) (fun outcome => ?_)
      (fun cause => rfl) ?_ ?_⟩
    · match other with
      | 0 => cases found
      | 1 => rfl
      | n + 2 => cases found
    · cases outcome <;> rfl
    · exact fun outcome rest x => head?_attempts_confirm sink _ x 1 rest outcome
    · exact fun hear kind sure desk parked => dispatch_onConfirm kind sure parked 1
  · intro request
    have known : registry.taker? chat away = some _ := taker?_of_primary here primary rfl
    have none : (awayCall chat message : Call κ).listeners.length ≤ 1 := Nat.zero_le 1
    exact ⟨arrives opened few none rfl rfl rfl known caller rfl sink state,
      posted_of_tokens rfl sink caller state⟩

/-- Everybody has been away for a while, and nothing can be said to all of them. -/
def dozing : Provider Unit where
  tell _ _ _ listener := succeedIdle listener (-5)
  broadcast _ _ _ := .fail (.failed "m.not_now")
  away _ _ := .done ()

def keeper (_ : Unit) : Dispatcher Unit (Option TellOutcome) :=
  onTell fun outcome => .modify (keepFirst · outcome)

theorem conversation_of_call_dozing :
    let registry : Registry Unit Unit := (Registry.register {} ⟨dozing.table, []⟩).2
    ∃ token director',
      let request : Request := ⟨1, tell, [.str "bob", .str "hi", .listener token]⟩
      ({ oid := 1000 } : Director Unit).begin (tellCall 1 "bob" "hi" ()) =
        (.ok (request, [token]), director') ∧
      ∃ response, (registry.dispatch (fun _ state => state) ⟨1000, "alice"⟩ request
          ()).2.2.ledger.posted = [response] ∧
        (Desk.dispatch keeper { director := director', state := none } response).2.state =
          some (.succeededIdle (-5)) := by
  intro registry
  have here : registry.find? 1 = some ⟨dozing.table, []⟩ := rfl
  obtain ⟨telling, -, -⟩ := conversation_of_call dozing here rfl
    (rfl : ({ oid := 1000 } : Director Unit).closed = false) (by decide) keeper
    (fun _ state => state) ⟨1000, "alice"⟩ ()
  obtain ⟨token, arrived, told⟩ := telling "bob" "hi" ()
  obtain ⟨director', begun, parked⟩ := arrived.begun
  have sure : Sure keeper fun outcome => .modify (keepFirst · outcome) := by
    intro outcome desk error desk' ran
    cases ran
  have waiting := parked token () List.mem_cons_self
  refine ⟨token, director', begun, _, told.answered (.succeededIdle (-5)) rfl, ?_⟩
  rw [told.heard _ rfl sure { director := director', state := none } waiting]
  rfl

end

end Chat

end Parley
