import Parley.Proofs.Client.Notebooks

/-! What was heard, and what was noted.
The deeds of a client tell which listener has heard what; its notes, if it takes any, tell the same,
one note for each time that a listener has heard. -/

namespace Parley.Client

/-- Who has heard, and what: an answer, or the end of the session. -/
def hearings (deeds : List (Deed κ)) : List (κ × Option Response) :=
  deeds.filterMap fun | .begun _ _ _ => none | .heard _ name cause => some (name, cause)

/-- The note of a listener that has heard: of the answer, or of the failure that the answer has
become for it. -/
inductive Voiced : κ × Option Response → κ × Word → Prop where
  | ended (name : κ) : Voiced (name, none) (name, .failure InvocationError.sessionClosed.text)
  | answered (name : κ) (response : Response) :
    Voiced (name, some response) (name, .answer response.method response.args)
  | failed (name : κ) (response : Response) (cause : String) :
    Voiced (name, some response) (name, .failure cause)

@[simp] theorem hearings_append (deeds more : List (Deed κ)) :
    hearings (deeds ++ more) = hearings deeds ++ hearings more := List.filterMap_append

@[simp] theorem hearings_heard (token : Token) (name : κ) (cause : Option Response)
    (deeds : List (Deed κ)) :
    hearings (.heard token name cause :: deeds) = (name, cause) :: hearings deeds := rfl

theorem map_fst_hearings (deeds : List (Deed κ)) :
    (hearings deeds).map (·.1) = (informed deeds).map (·.2) := by
  induction deeds with
  | nil => rfl
  | cons deed rest ih =>
    cases deed with
    | begun call request tokens => exact ih
    | heard token name cause => exact congrArg (name :: ·) ih

theorem mem_replies_of_mem_hearings {deeds : List (Deed κ)} {name : κ} {response : Response}
    (mem : (name, some response) ∈ hearings deeds) : response ∈ replies deeds := by
  obtain ⟨deed, known, heard⟩ := List.mem_filterMap.1 mem
  refine List.mem_filterMap.2 ⟨deed, known, ?_⟩
  cases deed with
  | begun call request tokens => cases heard
  | heard token name' cause => exact congrArg (·.2) (Option.some.inj heard)

theorem map_fst_of_voiced {heard : List (κ × Option Response)} {notes : List (κ × Word)}
    (voiced : List.Forall₂ Voiced heard notes) : notes.map (·.1) = heard.map (·.1) := by
  induction voiced with
  | nil => rfl
  | cons one _ ih =>
    cases one
    all_goals exact congrArg (_ :: ·) ih

variable (listen : κ → Dispatcher κ ω)

namespace Desk

theorem callDeeds_noted (desk : Desk κ ω) (call : Call κ) (notes : List (κ × Word)) :
    (desk.noted notes).callDeeds call = desk.callDeeds call := rfl

theorem hearings_callDeeds (desk : Desk κ ω) (call : Call κ) :
    hearings (desk.callDeeds call) = [] := by
  unfold callDeeds
  rcases desk.director.begin call with ⟨_ | _, _⟩ <;> rfl

theorem dismissDeeds_noting (state : ω) (notes : List (κ × Word)) (pending : List (Token × κ)) :
    dismissDeeds (noting listen) ⟨state, notes⟩ pending = dismissDeeds listen state pending ∧
      List.Forall₂ Voiced (hearings (dismissDeeds listen state pending))
        (words (dismissIncidents listen state pending)) := by
  induction pending generalizing state notes with
  | nil => exact ⟨rfl, .nil⟩
  | cons entry rest ih =>
    obtain ⟨token, name⟩ := entry
    let cause := InvocationError.sessionClosed.text
    have noted : (noting listen name).fail cause =
        ((listen name).fail cause).withNote (name, .failure cause) := rfl
    obtain ⟨ran, -⟩ :=
      ((listen name).fail cause).runEnded_withNote (name, .failure cause) state notes
    rw [dismissDeeds, dismissDeeds, noted, ran, words_dismissIncidents_cons]
    rcases ((listen name).fail cause).runEnded state with ⟨ending, after⟩
    obtain ⟨same, voiced⟩ := ih after (notes ++ [(name, .failure cause)])
    cases ending with
    | panicked text => exact ⟨rfl, .cons (.ended name) .nil⟩
    | returned => exact ⟨congrArg _ same, .cons (.ended name) voiced⟩
    | failed error => exact ⟨congrArg _ same, .cons (.ended name) voiced⟩

theorem endDeeds_noting (desk : Desk κ ω) (notes : List (κ × Word)) :
    (desk.noted notes).endDeeds (noting listen) = desk.endDeeds listen ∧
      List.Forall₂ Voiced (hearings (desk.endDeeds listen)) (words (desk.endIncidents listen)) :=
  dismissDeeds_noting listen desk.state notes desk.director.pending

end Desk

theorem Callback.deeds_lift (callback : Callback κ ω) (desk : Desk κ ω)
    (notes : List (κ × Word)) :
    callback.lift.deeds (noting listen) (desk.noted notes) = callback.deeds listen desk ∧
      List.Forall₂ Voiced (hearings (callback.deeds listen desk))
        (words (callback.incidents listen desk)) := by
  induction callback generalizing desk notes with
  | done => exact ⟨rfl, .nil⟩
  | fail error => exact ⟨rfl, .nil⟩
  | panic text => exact ⟨rfl, .nil⟩
  | read next ih => exact ih desk.state desk notes
  | write state next ih => exact ih { desk with state } notes
  | invoke call next ih =>
    obtain ⟨same, voiced⟩ := ih (desk.invoke call).1 (desk.invoke call).2 notes
    rw [lift, deeds, deeds, incidents, desk.invoke_noted, desk.callDeeds_noted]
    dsimp only
    rw [same, hearings_append, desk.hearings_callDeeds, words_append, desk.words_callIncidents]
    exact ⟨rfl, voiced⟩
  | endSession next ih =>
    obtain ⟨ended, told⟩ := desk.endDeeds_noting listen notes
    rw [lift, deeds, deeds, incidents, (desk.endSession_noting listen notes).1, ended]
    rcases desk.endSession listen with ⟨ending, after⟩
    obtain ⟨same, voiced⟩ := ih after (notes ++ words (desk.endIncidents listen))
    cases ending with
    | panicked text => exact ⟨rfl, by simpa using told⟩
    | returned =>
      dsimp only
      rw [same, hearings_append, words_append]
      exact ⟨rfl, List.rel_append told voiced⟩
    | failed error =>
      dsimp only
      rw [same, hearings_append, words_append]
      exact ⟨rfl, List.rel_append told voiced⟩

theorem Callback.deeds_withNote (note : κ × Word) (callback : Callback κ ω) (desk : Desk κ ω)
    (notes : List (κ × Word)) :
    (callback.withNote note).deeds (noting listen) (desk.noted notes) =
      callback.deeds listen desk :=
  (callback.deeds_lift listen desk (notes ++ [note])).1

namespace Desk

theorem deliverDeeds_noting (name : κ) (response : Response) (desk : Desk κ ω)
    (notes : List (κ × Word)) :
    deliverDeeds (noting listen) name response (desk.noted notes) =
        deliverDeeds listen name response desk ∧
      ∃ new, deliver (noting listen) (noting listen name) response (desk.noted notes) =
          ((deliver listen (listen name) response desk).1,
            (deliver listen (listen name) response desk).2.noted (notes ++ new)) ∧
        List.Forall₂ Voiced (hearings (deliverDeeds listen name response desk)) new := by
  have kind : (noting listen name).kind = (listen name).kind := rfl
  have failed (cause : String) (desk : Desk κ ω) (notes : List (κ × Word)) :
      let callback := (listen name).fail cause
      let note : κ × Word := (name, .failure cause)
      (callback.withNote note).deeds (noting listen) (desk.noted notes) =
          callback.deeds listen desk ∧
        (callback.withNote note).run (noting listen) (desk.noted notes) =
          ((callback.run listen desk).1, (callback.run listen desk).2.noted
            (notes ++ note :: words (callback.incidents listen desk))) ∧
        List.Forall₂ Voiced
          ((name, some response) :: hearings (callback.deeds listen desk))
          (note :: words (callback.incidents listen desk)) :=
    ⟨Callback.deeds_withNote listen _ _ desk notes,
      (Callback.run_withNote listen _ _ desk notes).1,
      .cons (.failed name response cause) (Callback.deeds_lift listen _ desk notes).2⟩
  unfold deliver deliverDeeds
  dsimp only
  rw [kind]
  split
  · obtain ⟨same, ran, voiced⟩ := failed (unknownResponse response.method) desk notes
    exact ⟨congrArg _ same, _, ran, voiced⟩
  split
  · obtain ⟨same, ran, voiced⟩ :=
      failed ((response.args.string 0).toOption.getD unknownCause) desk notes
    exact ⟨congrArg _ same, _, ran, voiced⟩
  have respond : (noting listen name).respond response.method response.args = .read fun noted =>
      if ((listen name).respond response.method response.args).refuses noted.state then
        ((listen name).respond response.method response.args).lift
      else ((listen name).respond response.method response.args).withNote
        (name, .answer response.method response.args) := rfl
  have state : (desk.noted notes).state.state = desk.state := rfl
  rw [respond, Callback.run, Callback.deeds, Callback.refuses, state]
  generalize (listen name).respond response.method response.args = callback
  by_cases refuses : callback.refuses desk.state
  · obtain ⟨⟨error, ran⟩, silent⟩ := Callback.run_of_refuses listen refuses
    have unheard := Callback.incidents_of_refuses listen refuses
    have lifted := (callback.run_lift listen desk notes).1
    have silent' := (callback.deeds_lift listen desk notes).1
    have refuses' : callback.lift.refuses (desk.noted notes).state = true :=
      (callback.refuses_lift desk.state notes).trans refuses
    rw [ran, unheard, words_nil, List.append_nil] at lifted
    obtain ⟨same, told, voiced⟩ := failed error.text desk notes
    rw [if_pos refuses, if_pos refuses', if_pos refuses, silent', silent, lifted, ran]
    exact ⟨congrArg (_ :: ·) same, _, told, voiced⟩
  · have heeds : ¬ (callback.withNote (name, .answer response.method response.args)).refuses
        (desk.noted notes).state = true := Bool.false_ne_true
    obtain ⟨lifted, -⟩ := callback.run_withNote listen
      (name, .answer response.method response.args) desk notes
    have same := callback.deeds_withNote listen (name, .answer response.method response.args)
      desk notes
    have voiced := (callback.deeds_lift listen desk notes).2
    have first := List.Forall₂.cons (Voiced.answered name response) voiced
    rw [if_neg refuses, if_neg heeds, if_neg refuses, same, lifted]
    rcases callback.run listen desk with ⟨ending, after⟩
    cases ending with
    | failed error =>
      obtain ⟨same', told, later⟩ := failed error.text after
        (notes ++ (name, .answer response.method response.args) ::
          words (callback.incidents listen desk))
      dsimp only
      rw [List.append_assoc] at told
      refine ⟨congrArg (_ ++ _ :: ·) same', _, told, ?_⟩
      rw [hearings_append, hearings_append]
      exact List.rel_append first later
    | returned => exact ⟨rfl, _, rfl, by simpa using first⟩
    | panicked text => exact ⟨rfl, _, rfl, by simpa using first⟩

theorem dispatchDeeds_noting (response : Response) (desk : Desk κ ω) (notes : List (κ × Word)) :
    (desk.noted notes).dispatchDeeds (noting listen) response =
        desk.dispatchDeeds listen response ∧
      ∃ new, (desk.noted notes).dispatch (noting listen) response =
          ((desk.dispatch listen response).1,
            (desk.dispatch listen response).2.noted (notes ++ new)) ∧
        List.Forall₂ Voiced (hearings (desk.dispatchDeeds listen response)) new := by
  have director : (desk.noted notes).director = desk.director := rfl
  unfold dispatch dispatchDeeds
  rw [director]
  rcases desk.director.take response.token with ⟨_ | name, director⟩
  · exact ⟨rfl, [], by rw [List.append_nil], .nil⟩
  · exact deliverDeeds_noting listen name response { desk with director } notes

end Desk

namespace Context

variable (code : Code κ ν ω)

theorem presentDeeds_noting (target : Oid) (name : String) (args : Arguments) (desk : Desk κ ω)
    (notes : List (κ × Word)) (observers : List ν) :
    presentDeeds code.noting target name args (desk.noted notes) observers =
        presentDeeds code target name args desk observers ∧
      List.Forall₂ Voiced (hearings (presentDeeds code target name args desk observers))
        (words (presentIncidents code target name args desk observers)) := by
  induction observers generalizing desk notes with
  | nil => exact ⟨rfl, .nil⟩
  | cons observer rest ih =>
    let callback := code.observe observer target name args
    have observe : code.noting.observe observer target name args = callback.lift := rfl
    have listen : code.noting.listen = noting code.listen := rfl
    obtain ⟨same, voiced⟩ := callback.deeds_lift code.listen desk notes
    have ran := (callback.run_lift code.listen desk notes).1
    unfold presentDeeds presentIncidents
    dsimp only
    rw [observe, listen, same, ran]
    change _ ∧ List.Forall₂ Voiced (hearings (callback.deeds code.listen desk ++ _))
      (words (callback.incidents code.listen desk ++ _))
    rw [hearings_append, words_append]
    rcases callback.run code.listen desk with ⟨ending, last⟩
    obtain ⟨later, voiced'⟩ := ih last (notes ++ words (callback.incidents code.listen desk))
    cases ending with
    | panicked text => exact ⟨rfl, List.rel_append voiced .nil⟩
    | returned => exact ⟨congrArg _ later, List.rel_append voiced voiced'⟩
    | failed error => exact ⟨congrArg _ later, List.rel_append voiced voiced'⟩

/-- What the listeners of a client that takes notes are told while it runs a command, they note, and
that is all that they note. -/
theorem deeds_noting (context : Context κ ν ω) (notes : List (κ × Word)) (command : Command ν) :
    (context.noted notes).deeds code.noting command = context.deeds code command ∧
      ∃ new, (context.noted notes).perform code.noting command =
          ((context.perform code command).1,
            (context.perform code command).2.noted (notes ++ new)) ∧
        List.Forall₂ Voiced (hearings (context.deeds code command)) new := by
  cases command with
  | respond response =>
    have desk : (context.noted notes).desk = context.desk.noted notes := rfl
    have listen : code.noting.listen = noting code.listen := rfl
    obtain ⟨same, new, ran, voiced⟩ := context.desk.dispatchDeeds_noting code.listen response notes
    refine ⟨same, new, ?_, voiced⟩
    rw [perform_respond, perform_respond, listen, desk, ran]
    rfl
  | apply event =>
    have ran := (context.perform_noting_of_ne code notes (.apply event) nofun).1
    cases event with
    | attributeChanged target name value => exact ⟨rfl, _, ran, .nil⟩
    | message target name args =>
      obtain ⟨same, voiced⟩ := presentDeeds_noting code target name args context.desk notes
        context.observers
      exact ⟨same, _, ran, voiced⟩
  | endSession =>
    obtain ⟨same, voiced⟩ := context.desk.endDeeds_noting code.listen notes
    have ran := (context.perform_noting_of_ne code notes .endSession nofun).1
    exact ⟨same, _, ran, voiced⟩
  | addObserver name =>
    have ran := (context.perform_noting_of_ne code notes (.addObserver name) nofun).1
    exact ⟨rfl, _, ran, .nil⟩

end Context

end Parley.Client
