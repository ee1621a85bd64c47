import Parley.Proofs.Client.Account

/-! What running the code of a client comes to.
Whatever a callback does, the book of the director stays right, and the only messages it posts are
requests of calls that it has begun. -/

namespace Parley.Client

def Command.answer? : Command ν → Option Response
  | .respond response => some response
  | _ => none

def Call.Plain (call : Call κ) : Prop := ∀ v, .value v ∈ call.args → v.token? = none

theorem Call.plain_iff {call : Call κ} :
    (call.args.all fun | .value v => v.token?.isNone | .listener _ => true) = true ↔
      call.Plain := by
  rw [List.all_eq_true]
  refine ⟨fun all v mem => by simpa using all _ mem, fun plain arg mem => ?_⟩
  cases arg with
  | value v => simpa using plain v mem
  | listener name => rfl

instance (call : Call κ) : Decidable call.Plain := decidable_of_iff _ Call.plain_iff

/-- Every listener of the call has a token, and these are the tokens of its request if the call is
plain. -/
structure Call.Tokens (call : Call κ) (request : Request) (tokens : List Token) : Prop where
  count : tokens.length = call.listeners.length
  plain : call.Plain → request.args.tokens = tokens

/-- Between two states of a desk the deeds were done. Listeners have heard of nothing but the
given answer, if there is one, and the end of the session. -/
structure Acted (answer : Option Response) (deeds : List (Deed κ)) (before after : Desk κ ω) :
    Prop where
  accounts : ∀ oid given told, before.director.Accounts oid given told →
    (given ++ parked deeds).length < 2 ^ 32 →
    after.director.Accounts oid (given ++ parked deeds) (told ++ informed deeds)
  posted : ∃ posted, after.outgoing.messages = before.outgoing.messages ++ posted ∧
    ∀ message ∈ posted, ∃ call request tokens,
      message = .invocation request ∧ .begun call request tokens ∈ deeds
  causes : ∀ token name response, .heard token name (some response) ∈ deeds →
    answer = some response ∧ response.token = token
  tokens : ∀ call request tokens, .begun call request tokens ∈ deeds →
    call.Tokens request tokens

namespace Acted

variable {answer : Option Response} {deeds more : List (Deed κ)} {before after : Desk κ ω}

theorem refl (desk : Desk κ ω) : Acted answer [] desk desk :=
  ⟨fun oid given told accounts few => by simpa using accounts, ⟨[], by simp⟩, by simp, by simp⟩

theorem trans {first second third : Desk κ ω} (early : Acted answer deeds first second)
    (late : Acted answer more second third) : Acted answer (deeds ++ more) first third := by
  refine ⟨fun oid given told accounts few => ?_, ?_, ?_, ?_⟩
  · rw [parked_append, ← List.append_assoc] at few ⊢
    rw [informed_append, ← List.append_assoc]
    have less : (given ++ parked deeds).length < 2 ^ 32 := by
      rw [List.length_append] at few
      omega
    exact late.accounts _ _ _ (early.accounts _ _ _ accounts less) few
  · obtain ⟨some, posted, good⟩ := early.posted
    obtain ⟨rest, posted', good'⟩ := late.posted
    refine ⟨some ++ rest, by rw [posted', posted, List.append_assoc], fun message mem => ?_⟩
    obtain mem | mem := List.mem_append.1 mem
    · obtain ⟨call, request, tokens, same, begun⟩ := good message mem
      exact ⟨call, request, tokens, same, List.mem_append_left more begun⟩
    · obtain ⟨call, request, tokens, same, begun⟩ := good' message mem
      exact ⟨call, request, tokens, same, List.mem_append_right deeds begun⟩
  · intro token name response mem
    exact (List.mem_append.1 mem).elim (early.causes token name response)
      (late.causes token name response)
  · intro call request tokens mem
    exact (List.mem_append.1 mem).elim (early.tokens call request tokens)
      (late.tokens call request tokens)

theorem replies_eq_nil (acted : Acted none deeds before after) : replies deeds = [] := by
  rw [replies, List.filterMap_eq_nil_iff]
  intro deed mem
  cases deed with
  | begun call request tokens => rfl
  | heard token name cause =>
    cases cause with
    | none => rfl
    | some response => cases (acted.causes token name response mem).1

theorem setState (desk : Desk κ ω) (state : ω) : Acted answer [] desk { desk with state } := by
  have same : Acted answer [] desk desk := refl desk
  exact ⟨same.accounts, same.posted, same.causes, same.tokens⟩

end Acted

/-- Between two states of a desk requests were posted behind what was there, and nothing else. -/
def Desk.Asked (before after : Desk κ ω) : Prop :=
  ∃ posted, after.outgoing.messages = before.outgoing.messages ++ posted ∧
    ∀ message ∈ posted, ∃ request, message = .invocation request

namespace Desk.Asked

theorem refl (desk : Desk κ ω) : Asked desk desk := ⟨[], by simp⟩

theorem trans {first second third : Desk κ ω} (early : Asked first second)
    (late : Asked second third) : Asked first third := by
  obtain ⟨some, posted, good⟩ := early
  obtain ⟨rest, posted', good'⟩ := late
  exact ⟨some ++ rest, by rw [posted', posted, List.append_assoc], fun message mem =>
    (List.mem_append.1 mem).elim (good message) (good' message)⟩

theorem kept_posted {before after : Desk κ ω} (asked : Asked before after) :
    before.outgoing.messages <+: after.outgoing.messages := by
  obtain ⟨posted, messages, -⟩ := asked
  exact ⟨posted, messages.symm⟩

end Desk.Asked

theorem Acted.asked {answer : Option Response} {deeds : List (Deed κ)} {before after : Desk κ ω}
    (acted : Acted answer deeds before after) : before.Asked after := by
  obtain ⟨posted, messages, good⟩ := acted.posted
  refine ⟨posted, messages, fun message mem => ?_⟩
  obtain ⟨-, request, -, same, -⟩ := good message mem
  exact ⟨request, same⟩

theorem Director.tokens_parkAll {director director' : Director κ} {call : Call κ}
    {values : Arguments} {tokens : List Token}
    (h : director.parkAll call.args = (values, tokens, director')) :
    tokens.length = call.listeners.length ∧ (call.Plain → values.tokens = tokens) := by
  unfold Call.listeners Call.Plain
  generalize call.args = args at h ⊢
  induction args generalizing director values tokens with
  | nil =>
    cases h
    exact ⟨rfl, fun _ => rfl⟩
  | cons arg rest ih =>
    cases arg with
    | value v =>
      unfold parkAll at h
      rcases others : director.parkAll rest with ⟨values', tokens', last⟩
      rw [others] at h
      cases h
      obtain ⟨count, same⟩ := ih others
      refine ⟨count, fun plain => ?_⟩
      rw [Arguments.tokens, List.filterMap_cons, plain v List.mem_cons_self]
      exact same fun v mem => plain v (List.mem_cons_of_mem _ mem)
    | listener name =>
      unfold parkAll at h
      rcases first : director.park name with ⟨token, middle⟩
      rcases others : middle.parkAll rest with ⟨values', tokens', last⟩
      simp only [first, others] at h
      cases h
      obtain ⟨count, same⟩ := ih others
      refine ⟨congrArg (· + 1) count, fun plain => ?_⟩
      exact congrArg (token :: ·) (same fun v mem => plain v (List.mem_cons_of_mem _ mem))

theorem Outgoing.messages_post (outgoing : Outgoing) (message : Message) :
    ∃ posted, (outgoing.post message).2.messages = outgoing.messages ++ posted ∧
      ∀ m ∈ posted, m = message := by
  unfold Outgoing.post
  split
  · exact ⟨[], by simp⟩
  · exact ⟨[message], by simp⟩

namespace Desk

variable (listen : κ → Dispatcher κ ω)

theorem acted_begin (desk : Desk κ ω) (call : Call κ) :
    Acted none (desk.callDeeds call) desk
      { desk with director := (desk.director.begin call).2 } := by
  unfold callDeeds
  rcases begun : desk.director.begin call with ⟨result, director⟩
  unfold Director.begin at begun
  split at begun
  · cases begun
    exact .refl desk
  · rcases parking : desk.director.parkAll call.args with ⟨values, tokens, parked⟩
    rw [parking] at begun
    cases begun
    refine ⟨fun oid given told accounts few => ?_, ⟨[], by simp⟩, by simp, ?_⟩
    · rw [parked_begun] at few ⊢
      rw [informed_begun, List.append_nil]
      exact accounts.parkAll call parking few
    · intro call' request tokens' mem
      obtain ⟨rfl, rfl, rfl⟩ := Deed.begun.inj (List.mem_singleton.1 mem)
      obtain ⟨count, same⟩ := Director.tokens_parkAll parking
      exact ⟨count, same⟩

theorem conclude_spec (desk : Desk κ ω) (request : Request) (tokens : List Token) :
    let after := (desk.conclude request tokens).2
    (∀ oid given told, desk.director.Accounts oid given told →
      after.director.Accounts oid given told) ∧
    ∃ posted, after.outgoing.messages = desk.outgoing.messages ++ posted ∧
      ∀ message ∈ posted, message = .invocation request := by
  have messages := desk.outgoing.messages_post (.invocation request)
  unfold conclude
  rcases posted : desk.outgoing.post (.invocation request) with ⟨error | done, outgoing⟩
  all_goals rw [posted] at messages
  · exact ⟨fun oid given told accounts => accounts.withdraw tokens, messages⟩
  · exact ⟨fun oid given told accounts => accounts, messages⟩

theorem acted_invoke (desk : Desk κ ω) (call : Call κ) :
    Acted none (desk.callDeeds call) desk (desk.invoke call).2 := by
  have first := desk.acted_begin call
  unfold invoke
  unfold callDeeds at first ⊢
  rcases begun : desk.director.begin call with ⟨error | ⟨request, tokens⟩, director⟩
  all_goals rw [begun] at first
  · exact first
  · obtain ⟨accounts, posted, messages, good⟩ :=
      conclude_spec { desk with director } request tokens
    refine ⟨fun oid given told known few => accounts _ _ _ (first.accounts _ _ _ known few),
      ⟨posted, messages, fun message mem => ?_⟩, first.causes, first.tokens⟩
    exact ⟨call, request, tokens, good message mem, List.mem_singleton_self _⟩

theorem informed_dismissDeeds (state : ω) (pending : List (Token × κ)) :
    informed (dismissDeeds listen state pending) <+: pending ∧
      parked (dismissDeeds listen state pending) = [] ∧
      ∀ deed ∈ dismissDeeds listen state pending, ∃ token name, deed = .heard token name none := by
  induction pending generalizing state with
  | nil => simp [dismissDeeds]
  | cons entry rest ih =>
    unfold dismissDeeds
    split
    · simp
    · rename_i ending state' _ _
      obtain ⟨told, none, all⟩ := ih state'
      refine ⟨?_, none, List.forall_mem_cons.2 ⟨⟨entry.1, entry.2, rfl⟩, all⟩⟩
      exact List.prefix_cons_inj entry |>.2 told

theorem acted_endSession (desk : Desk κ ω) :
    Acted none (desk.endDeeds listen) desk (desk.endSession listen).2 := by
  obtain ⟨told, none, all⟩ := informed_dismissDeeds listen desk.state
    desk.director.pending
  refine ⟨fun oid given told' accounts few => ?_, ⟨[], by simp [endSession]⟩, ?_, ?_⟩
  · rw [endDeeds, none, List.append_nil]
    exact accounts.close told
  · intro token name response mem
    obtain ⟨_, _, same⟩ := all _ mem
    cases same
  · intro call request tokens mem
    obtain ⟨_, _, same⟩ := all _ mem
    cases same

end Desk

namespace Callback

variable (listen : κ → Dispatcher κ ω)

theorem acted_run (callback : Callback κ ω) (desk : Desk κ ω) :
    Acted none (callback.deeds listen desk) desk (callback.run listen desk).2 := by
  induction callback generalizing desk with
  | done => exact .refl desk
  | fail error => exact .refl desk
  | panic text => exact .refl desk
  | read next ih => exact ih desk.state desk
  | write state next ih => exact (Acted.setState desk state).trans (ih { desk with state })
  | invoke call next ih =>
    exact (desk.acted_invoke call).trans (ih (desk.invoke call).1 (desk.invoke call).2)
  | endSession next ih =>
    have ended := desk.acted_endSession listen
    unfold run deeds
    rcases stopped : desk.endSession listen with ⟨ending, last⟩
    rw [stopped] at ended
    cases ending with
    | panicked text => rwa [List.append_nil]
    | returned => exact ended.trans (ih last)
    | failed error => exact ended.trans (ih last)

/-- A callback that refuses leaves everything as it was. -/
theorem run_of_refuses {callback : Callback κ ω} {desk : Desk κ ω}
    (refuses : callback.refuses desk.state) :
    (∃ error, callback.run listen desk = (.failed error, desk)) ∧
      callback.deeds listen desk = [] := by
  induction callback with
  | fail error => exact ⟨⟨error, rfl⟩, rfl⟩
  | read next ih => exact ih desk.state refuses
  | _ => cases refuses

end Callback

namespace Desk

variable {code : Code κ ν ω}

/-- An answer that is delivered is heard first, and then some callback of the listener runs. -/
theorem deliver_cases (lawful : code.Lawful) (name : κ) (response : Response)
    (desk : Desk κ ω) : ∃ callback : Callback κ ω,
      deliverDeeds code.listen name response desk =
        .heard response.token name (some response) :: callback.deeds code.listen desk ∧
      (deliver code.listen (code.listen name) response desk).2 =
        (callback.run code.listen desk).2 := by
  unfold deliverDeeds deliver
  dsimp only
  by_cases unknown : ((code.listen name).kind.methodName response.method).isNone
  · exact ⟨_, by rw [if_pos unknown], by rw [if_pos unknown]⟩
  rw [if_neg unknown, if_neg unknown]
  by_cases failure : response.method = requestFailed
  · exact ⟨_, by rw [if_pos failure], by rw [if_pos failure]⟩
  rw [if_neg failure, if_neg failure]
  have law := lawful name response.method response.args desk
  generalize (code.listen name).respond response.method response.args = callback at law ⊢
  by_cases refuses : callback.refuses desk.state
  · obtain ⟨⟨error, ran⟩, silent⟩ := Callback.run_of_refuses code.listen refuses
    refine ⟨(code.listen name).fail error.text, ?_, ?_⟩
    · rw [if_pos refuses, ran, silent]
      rfl
    · rw [ran]
  · refine ⟨callback, ?_, ?_⟩
    · rw [if_neg refuses]
      split
      · rename_i error desk' ran
        exact absurd (law error desk' ran) refuses
      · rw [List.append_nil, List.singleton_append]
    · split
      · rename_i error desk' ran
        exact absurd (law error desk' ran) refuses
      · rfl

theorem acted_dispatch (lawful : code.Lawful) (desk : Desk κ ω) (response : Response) :
    Acted (some response) (desk.dispatchDeeds code.listen response) desk
      (desk.dispatch code.listen response).2 := by
  unfold dispatchDeeds dispatch Director.take
  cases found : desk.director.pending.lookup response.token with
  | none => exact .refl desk
  | some name =>
    have ran := deliver_cases lawful name response
      { desk with director := desk.director.withdraw [response.token] }
    obtain ⟨callback, deeds, after⟩ := ran
    have acted := callback.acted_run code.listen
      { desk with director := desk.director.withdraw [response.token] }
    dsimp only
    rw [deeds, after]
    refine ⟨fun oid given told accounts few => ?_, ?_, ?_, ?_⟩
    · rw [parked_heard] at few ⊢
      rw [informed_heard, List.append_cons]
      exact acted.accounts _ _ _ (accounts.take found) few
    · obtain ⟨posted, messages, good⟩ := acted.posted
      refine ⟨posted, messages, fun message mem => ?_⟩
      obtain ⟨call, request, tokens, same, begun⟩ := good message mem
      exact ⟨call, request, tokens, same, List.mem_cons_of_mem _ begun⟩
    · intro token name' response' mem
      obtain same | mem := List.mem_cons.1 mem
      · obtain ⟨rfl, -, cause⟩ := Deed.heard.inj same
        obtain rfl := Option.some.inj cause
        exact ⟨rfl, rfl⟩
      · cases (acted.causes token name' response' mem).1
    · intro call request tokens mem
      obtain same | mem := List.mem_cons.1 mem
      · cases same
      · exact acted.tokens call request tokens mem

theorem replies_dispatch (lawful : code.Lawful) (desk : Desk κ ω) (response : Response) :
    (replies (desk.dispatchDeeds code.listen response)).Sublist [response] := by
  unfold dispatchDeeds
  rcases desk.director.take response.token with ⟨_ | name, director⟩
  · exact List.nil_sublist _
  · obtain ⟨callback, deeds, -⟩ := deliver_cases lawful name response { desk with director }
    have silent := (callback.acted_run code.listen { desk with director }).replies_eq_nil
    have only : replies (.heard response.token name (some response) ::
        callback.deeds code.listen { desk with director }) = [response] :=
      congrArg (response :: ·) silent
    dsimp only
    rw [deeds, only]

/-- Lawful or not, a listener hears no other answer than the one that has come. -/
theorem replies_dispatch_subset (listen : κ → Dispatcher κ ω) (desk : Desk κ ω)
    (response : Response) : replies (desk.dispatchDeeds listen response) ⊆ [response] := by
  have silent (callback : Callback κ ω) (desk : Desk κ ω) :
      replies (callback.deeds listen desk) = [] := (callback.acted_run listen desk).replies_eq_nil
  have heard (name : κ) (callback : Callback κ ω) (desk : Desk κ ω) :
      replies (.heard response.token name (some response) :: callback.deeds listen desk) =
        [response] := congrArg (response :: ·) (silent callback desk)
  unfold dispatchDeeds
  rcases desk.director.take response.token with ⟨_ | name, director⟩
  · exact List.nil_subset _
  · dsimp only
    unfold deliverDeeds
    dsimp only
    split
    · rw [heard]
      exact List.Subset.refl _
    · split
      · rw [heard]
        exact List.Subset.refl _
      · rw [replies_append, replies_append, silent, List.append_nil]
        refine List.append_subset.2 ⟨?_, ?_⟩
        · split
          · exact List.nil_subset _
          · exact List.Subset.refl _
        · split
          · rw [heard]
            exact List.Subset.refl _
          · exact List.nil_subset _

theorem asked_deliver (listen : κ → Dispatcher κ ω) (dispatcher : Dispatcher κ ω)
    (response : Response) (desk : Desk κ ω) :
    desk.Asked (deliver listen dispatcher response desk).2 := by
  have ran (callback : Callback κ ω) (desk : Desk κ ω) :
      desk.Asked (callback.run listen desk).2 := (callback.acted_run listen desk).asked
  unfold deliver
  split
  · exact ran _ desk
  · split
    · exact ran _ desk
    · have first := ran (dispatcher.respond response.method response.args) desk
      split
      · rename_i error desk' failed
        rw [failed] at first
        exact first.trans (ran (dispatcher.fail error.text) desk')
      · exact first

theorem asked_dispatch (listen : κ → Dispatcher κ ω) (desk : Desk κ ω) (response : Response) :
    desk.Asked (desk.dispatch listen response).2 := by
  unfold dispatch Director.take
  cases desk.director.pending.lookup response.token with
  | none => exact .refl desk
  | some name =>
    exact asked_deliver listen (listen name) response
      { desk with director := desk.director.withdraw [response.token] }

end Desk

namespace Context

variable {code : Code κ ν ω}

theorem acted_present (target : Oid) (name : String) (args : Arguments) (desk : Desk κ ω)
    (observers : List ν) :
    Acted none (presentDeeds code target name args desk observers) desk
      (present code target name args desk observers).2 := by
  induction observers generalizing desk with
  | nil => exact .refl desk
  | cons observer rest ih =>
    have acted := (code.observe observer target name args).acted_run code.listen desk
    unfold presentDeeds present
    dsimp only
    rcases ran : (code.observe observer target name args).run code.listen desk with
      ⟨ending, last⟩
    rw [ran] at acted
    cases ending with
    | panicked text => rwa [List.append_nil]
    | returned => exact acted.trans (ih last)
    | failed error => exact acted.trans (ih last)

/-- Whatever is queued at a client, running it keeps the book right. -/
theorem acted_perform (lawful : code.Lawful) (context : Context κ ν ω) (command : Command ν) :
    Acted command.answer? (context.deeds code command) context.desk
      (context.perform code command).2.desk := by
  cases command with
  | respond response => exact context.desk.acted_dispatch lawful response
  | apply event =>
    cases event with
    | attributeChanged target name value => exact .refl context.desk
    | message target name args =>
      exact acted_present target name args context.desk context.observers
  | endSession => exact context.desk.acted_endSession code.listen
  | addObserver name => exact .refl context.desk

theorem replies_deeds (lawful : code.Lawful) (context : Context κ ν ω) (command : Command ν) :
    (replies (context.deeds code command)).Sublist command.answer?.toList := by
  have acted := context.acted_perform lawful command
  cases command with
  | respond response => exact context.desk.replies_dispatch lawful response
  | _ =>
    rw [acted.replies_eq_nil]
    exact List.nil_sublist _

theorem replies_deeds_subset (code : Code κ ν ω) (context : Context κ ν ω)
    (command : Command ν) : replies (context.deeds code command) ⊆ command.answer?.toList := by
  have silent {deeds : List (Deed κ)} {before after : Desk κ ω}
      (acted : Acted none deeds before after) : replies deeds ⊆ [] := by
    rw [acted.replies_eq_nil]
    exact List.Subset.refl _
  cases command with
  | respond response => exact context.desk.replies_dispatch_subset code.listen response
  | apply event =>
    cases event with
    | attributeChanged target name value => exact List.nil_subset _
    | message target name args =>
      exact silent (acted_present target name args context.desk context.observers)
  | endSession => exact silent (context.desk.acted_endSession code.listen)
  | addObserver name => exact List.nil_subset _

theorem asked_perform (code : Code κ ν ω) (context : Context κ ν ω) (command : Command ν) :
    context.desk.Asked (context.perform code command).2.desk := by
  cases command with
  | respond response => exact context.desk.asked_dispatch code.listen response
  | apply event =>
    cases event with
    | attributeChanged target name value => exact .refl _
    | message target name args =>
      exact (acted_present target name args context.desk context.observers).asked
  | endSession => exact (context.desk.acted_endSession code.listen).asked
  | addObserver name => exact .refl _

/-- A command that panics has done its work as any other, and the next one follows. -/
theorem step?_behave (code : Code κ ν ω) {queue : ActionQueue (Command ν) (Context κ ν ω)}
    {command : Command ν} {rest : List (Command ν)} (next : queue.pending = command :: rest) :
    queue.step? (behave code) = some { queue with
      context := (queue.context.perform code command).2
      pending := rest
      executed := queue.executed + 1 } := by
  unfold ActionQueue.step?
  rw [next]
  dsimp only [behave, Activity.run]
  rcases queue.context.perform code command with ⟨ending, after⟩
  cases ending <;> rfl

end Context

end Parley.Client
