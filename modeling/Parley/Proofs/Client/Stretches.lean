import Parley.Proofs.Client.Outcomes

/-! A stretch of what happens at the desk of a client.
What one command does there can be told without what came before: whatever the book of the director
says by then, each listener of a call that succeeds is parked or has one outcome when the command is
done. Other calls may be under way meanwhile, parked and not posted yet. -/

namespace Parley.Client

variable (listen : κ → Dispatcher κ ω) {desk : Desk κ ω} {oid : Oid}
  {given told : List (Token × κ)}

def Desk.withMessages (desk : Desk κ ω) (messages : List Message) : Desk κ ω :=
  { desk with outgoing := { desk.outgoing with messages } }

theorem Desk.callIncidents_withMessages (desk : Desk κ ω) (call : Call κ)
    (messages : List Message) :
    (desk.withMessages messages).callIncidents call = desk.callIncidents call := by
  unfold callIncidents beginIncident concludeIncident conclude withMessages Outgoing.post
  dsimp only
  rcases desk.director.begin call with ⟨error | ⟨request, tokens⟩, director⟩
  · rfl
  · dsimp only
    cases desk.outgoing.answers.headD desk.outgoing.refusal <;> rfl

theorem Desk.invoke_withMessages (desk : Desk κ ω) (call : Call κ) (messages : List Message) :
    ∃ messages', (desk.withMessages messages).invoke call =
      ((desk.invoke call).1, (desk.invoke call).2.withMessages messages') := by
  unfold invoke conclude withMessages Outgoing.post
  dsimp only
  rcases desk.director.begin call with ⟨error | ⟨request, tokens⟩, director⟩
  · exact ⟨messages, rfl⟩
  · dsimp only
    cases desk.outgoing.answers.headD desk.outgoing.refusal with
    | some error => exact ⟨messages, rfl⟩
    | none => exact ⟨messages ++ [.invocation request], rfl⟩

theorem Callback.run_withMessages (callback : Callback κ ω) (desk : Desk κ ω)
    (messages : List Message) :
    callback.incidents listen (desk.withMessages messages) = callback.incidents listen desk ∧
      ∃ messages', callback.run listen (desk.withMessages messages) =
        ((callback.run listen desk).1, (callback.run listen desk).2.withMessages messages') := by
  induction callback generalizing desk messages with
  | done => exact ⟨rfl, messages, rfl⟩
  | fail error => exact ⟨rfl, messages, rfl⟩
  | panic text => exact ⟨rfl, messages, rfl⟩
  | read next ih => exact ih desk.state desk messages
  | write state next ih => exact ih { desk with state } messages
  | invoke call next ih =>
    obtain ⟨messages', invoked⟩ := desk.invoke_withMessages call messages
    unfold incidents run
    rw [desk.callIncidents_withMessages, invoked]
    dsimp only
    obtain ⟨same, ran⟩ := ih (desk.invoke call).1 (desk.invoke call).2 messages'
    exact ⟨by rw [same], ran⟩
  | endSession next ih =>
    have told : (desk.withMessages messages).endIncidents listen = desk.endIncidents listen := rfl
    have ended : (desk.withMessages messages).endSession listen =
        ((desk.endSession listen).1, (desk.endSession listen).2.withMessages messages) := rfl
    unfold incidents run
    rw [told, ended]
    rcases desk.endSession listen with ⟨ending, last⟩
    cases ending with
    | panicked text => exact ⟨rfl, messages, rfl⟩
    | returned =>
      obtain ⟨same, ran⟩ := ih last messages
      exact ⟨congrArg _ same, ran⟩
    | failed error =>
      obtain ⟨same, ran⟩ := ih last messages
      exact ⟨congrArg _ same, ran⟩

namespace Desk

theorem dispatch_withMessages (desk : Desk κ ω) (response : Response) (messages : List Message) :
    (desk.withMessages messages).dispatchIncidents listen response =
        desk.dispatchIncidents listen response ∧
      ∃ messages', (desk.withMessages messages).dispatch listen response =
        ((desk.dispatch listen response).1,
          (desk.dispatch listen response).2.withMessages messages') := by
  have director : (desk.withMessages messages).director = desk.director := rfl
  unfold dispatchIncidents dispatch
  rw [director]
  rcases desk.director.take response.token with ⟨_ | name, rest⟩
  · exact ⟨rfl, messages, rfl⟩
  dsimp only
  change deliverIncidents listen name response
    ({ desk with director := rest }.withMessages messages)
      = _ ∧ ∃ messages', deliver listen (listen name) response
        ({ desk with director := rest }.withMessages messages) = _
  generalize { desk with director := rest } = desk
  unfold deliverIncidents deliver
  dsimp only
  have ran (callback : Callback κ ω) := callback.run_withMessages listen desk messages
  split
  · obtain ⟨same, ran⟩ := ran ((listen name).fail (unknownResponse response.method))
    exact ⟨congrArg _ same, ran⟩
  split
  · obtain ⟨same, ran⟩ := ran
      ((listen name).fail ((response.args.string 0).toOption.getD unknownCause))
    exact ⟨congrArg _ same, ran⟩
  obtain ⟨same, messages', answered⟩ := ran ((listen name).respond response.method response.args)
  rw [same, answered]
  rcases ((listen name).respond response.method response.args).run listen desk with ⟨ending, last⟩
  cases ending with
  | failed error =>
    obtain ⟨same, failed⟩ := ((listen name).fail error.text).run_withMessages listen
      last messages'
    dsimp only
    rw [same]
    exact ⟨rfl, failed⟩
  | returned => exact ⟨rfl, messages', rfl⟩
  | panicked text => exact ⟨rfl, messages', rfl⟩

end Desk

namespace Context

variable (code : Code κ ν ω)

def presentIncidents (target : Oid) (name : String) (args : Arguments) (desk : Desk κ ω) :
    List ν → List (Incident κ)
  | [] => []
  | observer :: rest =>
    let callback := code.observe observer target name args
    callback.incidents code.listen desk ++
      match callback.run code.listen desk with
      | (.panicked _, _) => []
      | (_, desk) => presentIncidents target name args desk rest

def incidents (context : Context κ ν ω) : Command ν → List (Incident κ)
  | .respond response => context.desk.dispatchIncidents code.listen response
  | .apply (.attributeChanged _ _ _) => []
  | .apply (.message target name args) =>
    presentIncidents code target name args context.desk context.observers
  | .endSession => context.desk.endIncidents code.listen
  | .addObserver _ => []

theorem present_withMessages (target : Oid) (name : String) (args : Arguments)
    (desk : Desk κ ω) (messages : List Message) (observers : List ν) :
    presentIncidents code target name args (desk.withMessages messages) observers =
        presentIncidents code target name args desk observers ∧
      ∃ messages', present code target name args (desk.withMessages messages) observers =
        ((present code target name args desk observers).1,
          (present code target name args desk observers).2.withMessages messages') := by
  induction observers generalizing desk messages with
  | nil => exact ⟨rfl, messages, rfl⟩
  | cons observer rest ih =>
    obtain ⟨same, messages', ran⟩ := (code.observe observer target name args).run_withMessages
      code.listen desk messages
    unfold presentIncidents present
    dsimp only
    rw [same, ran]
    rcases (code.observe observer target name args).run code.listen desk with ⟨ending, last⟩
    cases ending with
    | panicked text => exact ⟨rfl, messages', rfl⟩
    | returned =>
      obtain ⟨later, shown⟩ := ih last messages'
      exact ⟨congrArg _ later, shown⟩
    | failed error =>
      obtain ⟨later, shown⟩ := ih last messages'
      exact ⟨congrArg _ later, shown⟩

theorem perform_withMessages (context : Context κ ν ω) (command : Command ν)
    (messages : List Message) :
    let other := { context with desk := context.desk.withMessages messages }
    other.incidents code command = context.incidents code command ∧
      ∃ messages', (other.perform code command).2.desk =
        (context.perform code command).2.desk.withMessages messages' := by
  cases command with
  | respond response =>
    obtain ⟨same, messages', answered⟩ := context.desk.dispatch_withMessages
      code.listen response messages
    exact ⟨same, messages', congrArg Prod.snd answered⟩
  | apply event =>
    cases event with
    | attributeChanged target name value => exact ⟨rfl, messages, rfl⟩
    | message target name args =>
      obtain ⟨same, messages', shown⟩ := present_withMessages code target name args context.desk
        messages context.observers
      exact ⟨same, messages', congrArg Prod.snd shown⟩
  | endSession => exact ⟨rfl, messages, rfl⟩
  | addObserver name => exact ⟨rfl, messages, rfl⟩

end Context

namespace Recorded

variable {sent : List Message} {history : List (Incident κ)} (code : Code κ ν ω)

theorem present (recorded : Recorded oid sent [] history desk) (target : Oid) (name : String)
    (args : Arguments) (observers : List ν) :
    Recorded oid sent []
      (history ++ Context.presentIncidents code target name args desk observers)
      (Context.present code target name args desk observers).2 := by
  induction observers generalizing history desk with
  | nil => rwa [Context.presentIncidents, List.append_nil]
  | cons observer rest ih =>
    have shown := recorded.run code.listen (code.observe observer target name args)
    unfold Context.presentIncidents Context.present
    dsimp only
    rcases ran : (code.observe observer target name args).run code.listen desk with ⟨ending, last⟩
    rw [ran] at shown
    rw [← List.append_assoc]
    cases ending with
    | panicked text => rwa [List.append_nil]
    | returned => exact ih shown
    | failed error => exact ih shown

theorem command {context : Context κ ν ω} (recorded : Recorded oid sent [] history context.desk)
    (command : Command ν) :
    Recorded oid sent [] (history ++ context.incidents code command)
      (context.perform code command).2.desk := by
  cases command with
  | respond response => exact recorded.dispatch code.listen response
  | apply event =>
    cases event with
    | attributeChanged target name value => exact (List.append_nil history).symm ▸ recorded
    | message target name args => exact recorded.present code target name args context.observers
  | endSession => exact recorded.endSession code.listen
  | addObserver name => exact (List.append_nil history).symm ▸ recorded

end Recorded

section Explanation

def soleCall (entry : Token × κ) : Call κ := ⟨0, 0, [.listener entry.2]⟩

/-- A history, of calls with one listener each, in which a book can have come about. -/
def explanation (given told : List (Token × κ)) (director : Director κ) : List (Incident κ) :=
  given.map (fun entry => .began (soleCall entry) [entry.1]) ++
    (told.map (fun entry => .refused (soleCall entry) [entry.1] .sessionClosed) ++
      (director.pending.map (fun entry => .posted (soleCall entry) [entry.1] ⟨0, 0, []⟩) ++
        if director.closed then [.ended] else []))

variable (given told) (director : Director κ)

theorem zip_soleCall (entry : Token × κ) : [entry.1].zip (soleCall entry).listeners = [entry] := rfl

theorem flatMap_none (entries : List (Token × κ)) :
    entries.flatMap (fun _ => ([] : List (Token × κ))) = [] := by simp

theorem registered_explanation : registered (explanation given told director) = given := by
  unfold explanation
  split <;> simp [registered, List.flatMap_map, zip_soleCall, flatMap_none]

theorem withdrawn_explanation : withdrawn (explanation given told director) = told := by
  unfold explanation
  split <;> simp [withdrawn, List.flatMap_map, zip_soleCall, flatMap_none]

theorem entrusted_explanation :
    entrusted (explanation given told director) = director.pending := by
  unfold explanation
  split <;> simp [entrusted, List.flatMap_map, zip_soleCall, flatMap_none]

theorem settled_explanation : settled (explanation given told director) = [] := by
  unfold explanation
  split <;> simp [settled, Incident.outcome?]

theorem quiet_explanation : Quiet (explanation given told director) := by
  intro text
  unfold explanation
  split <;> simp

theorem ends_explanation : (explanation given told director).any (·.ends) = director.closed := by
  unfold explanation
  split <;> simp_all [Incident.ends, Function.comp_def]

theorem heeds_explanation :
    Heeds Incident.ends Incident.Fits false (explanation given told director) := by
  have early (history : List (Incident κ)) (none : history.any (·.ends) = false)
      (fits : ∀ incident ∈ history, incident.Fits false) :
      Heeds Incident.ends Incident.Fits false history := by
    induction history with
    | nil => trivial
    | cons incident rest ih =>
      rw [List.any_cons, Bool.or_eq_false_iff] at none
      refine ⟨fits incident List.mem_cons_self, ?_⟩
      rw [none.1]
      exact ih none.2 fun later mem => fits later (List.mem_cons_of_mem _ mem)
  unfold explanation
  rw [← List.append_assoc, ← List.append_assoc, heeds_append]
  refine ⟨early _ ?_ fun incident mem => ?_, ?_⟩
  · simp [Incident.ends, Function.comp_def]
  · simp only [List.mem_append, List.mem_map] at mem
    obtain (⟨entry, -, rfl⟩ | ⟨entry, -, rfl⟩) | ⟨entry, -, rfl⟩ := mem
    · exact ⟨rfl, rfl⟩
    · exact nofun
    · exact ⟨rfl, rfl⟩
  · split
    · exact ⟨trivial, trivial⟩
    · trivial

variable {given told director}

/-- Any book can have come about in calls with one listener each. -/
theorem recorded_explanation (accounts : desk.director.Accounts oid given told)
    (empty : desk.director.closed = true → desk.director.pending = []) :
    let history := explanation given told desk.director
    Recorded oid [] [] history (desk.withMessages ((requests history).map .invocation)) := by
  intro history
  refine ⟨fun _ => ?_, fun _ _ => ?_, rfl, (ends_explanation ..).symm, empty, heeds_explanation ..⟩
  · rw [registered_explanation, withdrawn_explanation, settled_explanation, List.append_nil,
      List.append_nil]
    exact accounts
  · rw [entrusted_explanation, settled_explanation, List.append_nil, List.append_nil]
    exact .refl _

end Explanation

/-- What the incidents of a stretch mean for the listeners of a client whose book was right when the
stretch began. -/
structure Handled (oid : Oid) (given told : List (Token × κ)) (incidents : List (Incident κ))
    (before after : Desk κ ω) : Prop where
  accounts : after.director.Accounts oid (given ++ registered incidents)
    (told ++ withdrawn incidents ++ settled incidents)
  balance : Quiet incidents → (before.director.pending ++ entrusted incidents).Perm
    (after.director.pending ++ settled incidents)
  closed : after.director.closed = (before.director.closed || incidents.any (·.ends))
  empty : after.director.closed = true → after.director.pending = []
  lengths : ∀ call tokens request, .posted call tokens request ∈ incidents →
    tokens.length = call.listeners.length

theorem Context.handled_perform (code : Code κ ν ω) {context : Context κ ν ω} {command : Command ν}
    (accounts : context.desk.director.Accounts oid given told)
    (empty : context.desk.director.closed = true → context.desk.director.pending = [])
    (few : (given ++ registered (context.incidents code command)).length < 2 ^ 32) :
    Handled oid given told (context.incidents code command) context.desk
      (context.perform code command).2.desk := by
  let history := explanation given told context.desk.director
  let explained : Context κ ν ω := { context with
    desk := context.desk.withMessages ((requests history).map .invocation) }
  have recorded : Recorded oid [] [] history explained.desk := recorded_explanation accounts empty
  have carried := recorded.command code command
  obtain ⟨same, messages, after⟩ :=
    context.perform_withMessages code command ((requests history).map .invocation)
  rw [same, after] at carried
  have given' : registered (history ++ context.incidents code command) =
      given ++ registered (context.incidents code command) := by
    rw [registered_append, registered_explanation]
  have few' := given' ▸ few
  refine ⟨?_, fun quiet => ?_, ?_, carried.empty,
    fun _ _ _ mem => carried.length_of_posted (List.mem_append_right history mem)⟩
  · have book := carried.accounts few'
    rwa [given', withdrawn_append, withdrawn_explanation, settled_append, settled_explanation,
      List.nil_append, List.append_nil] at book
  · have explained : Quiet history := quiet_explanation given told _
    have book := carried.balance few' ((quiet_append _ _).2 ⟨explained, quiet⟩)
    rwa [entrusted_append, entrusted_explanation, settled_append, settled_explanation,
      List.nil_append, List.append_nil] at book
  · have closed := carried.closed
    rwa [List.any_append, ends_explanation] at closed

end Parley.Client
