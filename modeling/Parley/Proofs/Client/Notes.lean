import Parley.Proofs.Client.Conduct
import Parley.Proofs.Client.Incidents

/-! Clients that take notes.
Any client can be given listeners that write down, in its own state, what they are told, and then do
what they did before. The state of such a client is that of the client without notes, with the notes
beside it; so the notes are what the listeners of that client are told, call by call. -/

namespace Parley.Client

/-- What a listener can be told. -/
inductive Word where
  | answer (method : UInt8) (args : Arguments)
  | failure (cause : String)
  deriving DecidableEq, Repr

def Outcome.word : Outcome → Word
  | .answer response => .answer response.method response.args
  | .failure cause => .failure cause

/-- The state of a client's code, with what its listeners were told, the oldest first. -/
structure Noted (κ ω : Type) where
  state : ω
  notes : List (κ × Word) := []
  deriving DecidableEq, Repr

/-- What the listeners are told, each by its name. -/
def words (history : List (Incident κ)) : List (κ × Word) :=
  history.filterMap fun incident =>
    incident.outcome?.map fun (_, name, outcome) => (name, outcome.word)

def Callback.lift : Callback κ ω → Callback κ (Noted κ ω)
  | .done => .done
  | .fail error => .fail error
  | .panic text => .panic text
  | .read next => .read fun noted => (next noted.state).lift
  | .write state next => .read fun noted => .write { noted with state } next.lift
  | .invoke call next => .invoke call fun result => (next result).lift
  | .endSession next => .endSession next.lift

def Callback.withNote (note : κ × Word) (callback : Callback κ ω) : Callback κ (Noted κ ω) :=
  .read fun noted => .write { noted with notes := noted.notes ++ [note] } callback.lift

/-- The same listeners, for a client that takes notes. An answer that a listener refuses at once has
not reached it. -/
def noting (listen : κ → Dispatcher κ ω) (name : κ) : Dispatcher κ (Noted κ ω) where
  kind := (listen name).kind
  respond method args :=
    let callback := (listen name).respond method args
    .read fun noted =>
      if callback.refuses noted.state then callback.lift
      else callback.withNote (name, .answer method args)
  fail cause := ((listen name).fail cause).withNote (name, .failure cause)

def Code.noting (code : Code κ ν ω) : Code κ ν (Noted κ ω) where
  listen := Client.noting code.listen
  observe name target method args := (code.observe name target method args).lift

@[simp] theorem words_nil : words ([] : List (Incident κ)) = [] := rfl

@[simp] theorem words_append (history more : List (Incident κ)) :
    words (history ++ more) = words history ++ words more := List.filterMap_append

def Desk.noted (desk : Desk κ ω) (notes : List (κ × Word)) : Desk κ (Noted κ ω) :=
  { desk with state := ⟨desk.state, notes⟩ }

variable (listen : κ → Dispatcher κ ω)

namespace Callback

theorem runEnded_lift (callback : Callback κ ω) (state : ω) (notes : List (κ × Word)) :
    callback.lift.runEnded ⟨state, notes⟩ =
        ((callback.runEnded state).1, ⟨(callback.runEnded state).2, notes⟩) ∧
      callback.lift.incidentsEnded ⟨state, notes⟩ = callback.incidentsEnded state := by
  induction callback generalizing state with
  | done => exact ⟨rfl, rfl⟩
  | fail error => exact ⟨rfl, rfl⟩
  | panic text => exact ⟨rfl, rfl⟩
  | read next ih => exact ih state state
  | write after next ih => exact ih after
  | invoke call next ih =>
    obtain ⟨ran, same⟩ := ih (.error .sessionClosed) state
    exact ⟨ran, congrArg _ same⟩
  | endSession next ih =>
    obtain ⟨ran, same⟩ := ih state
    exact ⟨ran, congrArg _ same⟩

theorem runEnded_withNote (note : κ × Word) (callback : Callback κ ω) (state : ω)
    (notes : List (κ × Word)) :
    (callback.withNote note).runEnded ⟨state, notes⟩ =
        ((callback.runEnded state).1, ⟨(callback.runEnded state).2, notes ++ [note]⟩) ∧
      (callback.withNote note).incidentsEnded ⟨state, notes⟩ = callback.incidentsEnded state :=
  callback.runEnded_lift state (notes ++ [note])

theorem words_incidentsEnded (callback : Callback κ ω) (state : ω) :
    words (callback.incidentsEnded state) = [] :=
  List.filterMap_eq_nil_iff.2 fun incident mem => by rw [outcome?_incidentsEnded mem]; rfl

theorem refuses_lift (callback : Callback κ ω) (state : ω) (notes : List (κ × Word)) :
    callback.lift.refuses ⟨state, notes⟩ = callback.refuses state := by
  induction callback with
  | read next ih => exact ih state
  | _ => rfl

end Callback

namespace Desk

theorem callIncidents_noted (desk : Desk κ ω) (call : Call κ) (notes : List (κ × Word)) :
    (desk.noted notes).callIncidents call = desk.callIncidents call := by
  unfold callIncidents beginIncident concludeIncident conclude noted
  dsimp only
  rcases desk.director.begin call with ⟨error | ⟨request, tokens⟩, director⟩
  · rfl
  · dsimp only
    rcases desk.outgoing.post (.invocation request) with ⟨error | done, outgoing⟩ <;> rfl

theorem conclude_noted (desk : Desk κ ω) (request : Request) (tokens : List Token)
    (notes : List (κ × Word)) :
    (desk.noted notes).conclude request tokens =
      ((desk.conclude request tokens).1, (desk.conclude request tokens).2.noted notes) := by
  unfold conclude noted
  dsimp only
  rcases desk.outgoing.post (.invocation request) with ⟨error | done, outgoing⟩ <;> rfl

theorem invoke_noted (desk : Desk κ ω) (call : Call κ) (notes : List (κ × Word)) :
    (desk.noted notes).invoke call =
      ((desk.invoke call).1, (desk.invoke call).2.noted notes) := by
  have director : (desk.noted notes).director = desk.director := rfl
  unfold invoke
  rw [director]
  rcases desk.director.begin call with ⟨error | ⟨request, tokens⟩, director⟩
  · rfl
  · exact conclude_noted { desk with director } request tokens notes

theorem words_callIncidents (desk : Desk κ ω) (call : Call κ) :
    words (desk.callIncidents call) = [] := by
  unfold callIncidents beginIncident concludeIncident
  rcases desk.director.begin call with ⟨error | ⟨request, tokens⟩, director⟩
  · rfl
  · dsimp only
    cases ({ desk with director }.conclude request tokens).1 <;> rfl

theorem words_dismissIncidents_cons (state : ω) (entry : Token × κ) (rest : List (Token × κ)) :
    words (dismissIncidents listen state (entry :: rest)) =
      (entry.2, .failure InvocationError.sessionClosed.text) ::
        match ((listen entry.2).fail InvocationError.sessionClosed.text).runEnded state with
        | (.panicked _, _) => []
        | (_, state) => words (dismissIncidents listen state rest) := by
  have silent :=
    ((listen entry.2).fail InvocationError.sessionClosed.text).words_incidentsEnded state
  rw [dismissIncidents, List.cons_append, ← List.singleton_append, words_append, words_append,
    silent]
  rcases ((listen entry.2).fail InvocationError.sessionClosed.text).runEnded state with
    ⟨ending, after⟩
  cases ending <;> rfl

theorem dismiss_noting (state : ω) (notes : List (κ × Word)) (pending : List (Token × κ)) :
    dismiss (noting listen) ⟨state, notes⟩ (pending.map (·.2)) =
        ((dismiss listen state (pending.map (·.2))).1,
          ⟨(dismiss listen state (pending.map (·.2))).2,
            notes ++ words (dismissIncidents listen state pending)⟩) ∧
      dismissIncidents (noting listen) ⟨state, notes⟩ pending =
        dismissIncidents listen state pending := by
  induction pending generalizing state notes with
  | nil => exact ⟨by simp [dismiss, dismissIncidents], rfl⟩
  | cons entry rest ih =>
    obtain ⟨token, name⟩ := entry
    let cause := InvocationError.sessionClosed.text
    have noted : (noting listen name).fail cause =
        ((listen name).fail cause).withNote (name, .failure cause) := rfl
    obtain ⟨ran, same⟩ :=
      ((listen name).fail cause).runEnded_withNote (name, .failure cause) state notes
    rw [words_dismissIncidents_cons, List.map_cons, dismiss, dismiss, dismissIncidents,
      dismissIncidents]
    dsimp only
    rw [noted, ran, same]
    rcases ((listen name).fail cause).runEnded state with ⟨ending, after⟩
    obtain ⟨others, incidents⟩ := ih after (notes ++ [(name, .failure cause)])
    cases ending with
    | panicked text => exact ⟨rfl, rfl⟩
    | returned =>
      dsimp only
      rw [others, incidents, List.append_assoc]
      exact ⟨rfl, rfl⟩
    | failed error =>
      dsimp only
      rw [others, incidents, List.append_assoc]
      exact ⟨rfl, rfl⟩

theorem endSession_noting (desk : Desk κ ω) (notes : List (κ × Word)) :
    (desk.noted notes).endSession (noting listen) =
        ((desk.endSession listen).1,
          (desk.endSession listen).2.noted (notes ++ words (desk.endIncidents listen))) ∧
      (desk.noted notes).endIncidents (noting listen) = desk.endIncidents listen := by
  obtain ⟨ran, same⟩ := dismiss_noting listen desk.state notes desk.director.pending
  refine ⟨?_, congrArg (_ :: ·) same⟩
  have all : dismiss (noting listen) (desk.noted notes).state
      (desk.noted notes).director.close.1 = _ := ran
  unfold endSession
  dsimp only
  rw [all]
  rfl

end Desk

theorem Callback.incidents_of_refuses {callback : Callback κ ω} {desk : Desk κ ω}
    (refuses : callback.refuses desk.state) : callback.incidents listen desk = [] := by
  induction callback with
  | fail error => rfl
  | read next ih => exact ih desk.state refuses
  | _ => cases refuses

/-- Code that runs at the desk of a client that takes notes does what it does without them, and adds
what listeners are told meanwhile. -/
theorem Callback.run_lift (callback : Callback κ ω) (desk : Desk κ ω) (notes : List (κ × Word)) :
    callback.lift.run (noting listen) (desk.noted notes) =
        ((callback.run listen desk).1,
          (callback.run listen desk).2.noted (notes ++ words (callback.incidents listen desk))) ∧
      callback.lift.incidents (noting listen) (desk.noted notes) =
        callback.incidents listen desk := by
  induction callback generalizing desk notes with
  | done => exact ⟨by simp [lift, run, incidents], rfl⟩
  | fail error => exact ⟨by simp [lift, run, incidents], rfl⟩
  | panic text => exact ⟨by simp [lift, run, incidents, words, Incident.outcome?], rfl⟩
  | read next ih => exact ih desk.state desk notes
  | write state next ih => exact ih { desk with state } notes
  | invoke call next ih =>
    obtain ⟨ran, same⟩ := ih (desk.invoke call).1 (desk.invoke call).2 notes
    rw [lift, run, run, incidents, incidents, desk.invoke_noted, desk.callIncidents_noted]
    dsimp only
    rw [ran, same, words_append, desk.words_callIncidents]
    exact ⟨rfl, rfl⟩
  | endSession next ih =>
    obtain ⟨ended, told⟩ := desk.endSession_noting listen notes
    rw [lift, run, run, incidents, incidents, ended, told]
    rcases desk.endSession listen with ⟨ending, after⟩
    obtain ⟨ran, same⟩ := ih after (notes ++ words (desk.endIncidents listen))
    cases ending with
    | panicked text => exact ⟨by rw [List.append_nil], rfl⟩
    | returned =>
      dsimp only
      rw [ran, same, words_append, List.append_assoc]
      exact ⟨rfl, rfl⟩
    | failed error =>
      dsimp only
      rw [ran, same, words_append, List.append_assoc]
      exact ⟨rfl, rfl⟩

theorem Callback.run_withNote (note : κ × Word) (callback : Callback κ ω) (desk : Desk κ ω)
    (notes : List (κ × Word)) :
    (callback.withNote note).run (noting listen) (desk.noted notes) =
        ((callback.run listen desk).1, (callback.run listen desk).2.noted
          (notes ++ note :: words (callback.incidents listen desk))) ∧
      (callback.withNote note).incidents (noting listen) (desk.noted notes) =
        callback.incidents listen desk := by
  obtain ⟨ran, same⟩ := callback.run_lift listen desk (notes ++ [note])
  rw [List.append_assoc] at ran
  exact ⟨ran, same⟩

namespace Desk

variable {listen}

theorem deliver_noting (lawful : ∀ name, (listen name).Lawful listen) (name : κ)
    (response : Response) (desk : Desk κ ω) (notes : List (κ × Word)) :
    deliver (noting listen) (noting listen name) response (desk.noted notes) =
        ((deliver listen (listen name) response desk).1,
          (deliver listen (listen name) response desk).2.noted
            (notes ++ words (deliverIncidents listen name response desk))) ∧
      deliverIncidents (noting listen) name response (desk.noted notes) =
        deliverIncidents listen name response desk := by
  have kind : (noting listen name).kind = (listen name).kind := rfl
  have failed (cause : String) :=
    ((listen name).fail cause).run_withNote listen (name, .failure cause)
  unfold deliver deliverIncidents
  dsimp only
  rw [kind]
  split
  · obtain ⟨ran, same⟩ := failed (unknownResponse response.method) desk notes
    exact ⟨ran, congrArg _ same⟩
  split
  · obtain ⟨ran, same⟩ := failed ((response.args.string 0).toOption.getD unknownCause) desk notes
    exact ⟨ran, congrArg _ same⟩
  have law := lawful name response.method response.args desk
  have respond : (noting listen name).respond response.method response.args = .read fun noted =>
      if ((listen name).respond response.method response.args).refuses noted.state then
        ((listen name).respond response.method response.args).lift
      else ((listen name).respond response.method response.args).withNote
        (name, .answer response.method response.args) := rfl
  have state : (desk.noted notes).state.state = desk.state := rfl
  rw [respond, Callback.run, Callback.incidents, state]
  generalize (listen name).respond response.method response.args = callback at law ⊢
  by_cases refuses : callback.refuses desk.state
  · obtain ⟨⟨error, ran⟩, -⟩ := Callback.run_of_refuses listen refuses
    have silent := Callback.incidents_of_refuses listen refuses
    obtain ⟨same, incidents⟩ := callback.run_lift listen desk notes
    obtain ⟨told, incidents'⟩ := failed error.text desk notes
    rw [silent, words_nil, List.append_nil, ran] at same
    rw [if_pos refuses, same, incidents, ran, silent]
    dsimp only
    exact ⟨told, congrArg ([_] ++ _ :: ·) incidents'⟩
  · obtain ⟨same, incidents⟩ := callback.run_withNote listen
      (name, .answer response.method response.args) desk notes
    rw [if_neg refuses, same, incidents]
    rcases ran : callback.run listen desk with ⟨ending, after⟩
    cases ending with
    | failed error => exact absurd (law error after ran) refuses
    | returned => exact ⟨rfl, rfl⟩
    | panicked text => exact ⟨rfl, rfl⟩

theorem dispatch_noting (lawful : ∀ name, (listen name).Lawful listen) (response : Response)
    (desk : Desk κ ω) (notes : List (κ × Word)) :
    (desk.noted notes).dispatch (noting listen) response =
        ((desk.dispatch listen response).1, (desk.dispatch listen response).2.noted
          (notes ++ words (desk.dispatchIncidents listen response))) ∧
      (desk.noted notes).dispatchIncidents (noting listen) response =
        desk.dispatchIncidents listen response := by
  have director : (desk.noted notes).director = desk.director := rfl
  unfold dispatch dispatchIncidents
  rw [director]
  rcases desk.director.take response.token with ⟨_ | name, director⟩
  · exact ⟨by simp, rfl⟩
  · exact deliver_noting lawful name response { desk with director } notes

/-- Whatever is done to a client that takes notes, it comes out as it does without them, and has
noted all that its listeners were told. -/
theorem run_noting (lawful : ∀ name, (listen name).Lawful listen) (uses : List (Use κ))
    (desk : Desk κ ω) (notes : List (κ × Word)) :
    (desk.noted notes).run (noting listen) uses = ((desk.run listen uses).1,
      (desk.run listen uses).2.noted (notes ++ words (desk.run listen uses).1)) := by
  induction uses generalizing desk notes with
  | nil => simp [run]
  | cons use rest ih =>
    have step : (desk.noted notes).perform (noting listen) use =
        ((desk.perform listen use).1, (desk.perform listen use).2.noted
          (notes ++ words (desk.perform listen use).1)) := by
      cases use with
      | invoke call =>
        rw [perform, perform, desk.callIncidents_noted, desk.invoke_noted,
          desk.words_callIncidents, List.append_nil]
      | respond response =>
        obtain ⟨ran, same⟩ := dispatch_noting lawful response desk notes
        rw [perform, perform, ran, same]
      | endSession =>
        obtain ⟨ran, same⟩ := desk.endSession_noting listen notes
        rw [perform, perform, ran, same]
    rw [run, run, step]
    dsimp only
    rw [ih, words_append, List.append_assoc]

end Desk

end Parley.Client
