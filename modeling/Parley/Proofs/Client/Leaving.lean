import Parley.Proofs.Client.Notebooks

/-! How a client ends.
The end of the session is one more command in the client's queue, put there by the reader when its
stream is at an end. It gets there, and is carried out before the client has taken leave, if the
queue is still open by then; if the client's own code has closed the queue before, the session does
not end, and whoever is parked stays so. -/

namespace Parley.Client

open Connection (ReadAnswer)

/-- No code of the client ends the session. -/
def Code.Patient (code : Code κ ν ω) : Prop :=
  ∀ (context : Context κ ν ω) command, command ≠ .endSession →
    ∀ incident ∈ context.incidents code command, incident.ends = false

namespace Stay

variable {code : Code κ ν ω} {stay : Stay κ ν ω} {oid : Oid} {history : List (Incident κ)}

theorem run_append (steps more : List (Step κ ν)) :
    stay.run code (steps ++ more) =
      ((stay.run code steps).1 ++ ((stay.run code steps).2.run code more).1,
        ((stay.run code steps).2.run code more).2) := by
  induction steps generalizing stay with
  | nil => rfl
  | cons step rest ih =>
    rw [List.cons_append, run, run]
    dsimp only
    rw [ih, List.append_assoc]

theorem queue_run_runOne (stay : Stay κ ν ω) (count : Nat) :
    (stay.run code (.replicate count .runOne)).2.client.queue =
      stay.client.queue.runPending (Context.behave code) count := by
  induction count generalizing stay with
  | zero => rfl
  | succ count ih =>
    rw [List.replicate_succ, run]
    dsimp only
    rw [ih, perform]
    cases next : stay.client.queue.pending with
    | nil =>
      have idle := ActionQueue.runPending_of_idle (Context.behave code) next
      rw [runOne_of_idle code next, (idle count).1, (idle (count + 1)).1]
    | cons command rest =>
      rw [runOne_of_pending code next, ActionQueue.runPending, Context.step?_behave code next]

theorem queue_leaving (stay : Stay κ ν ω) :
    (stay.run code (leaving stay.client)).2.client.queue = (stay.client.finish code).queue :=
  queue_run_runOne _ _

theorem pending_finish (client : Client κ ν ω) : (client.finish code).queue.pending = [] := by
  have shut : client.queue.shutdown.isClosed = true := rfl
  exact ActionQueue.pending_runPending_of_closed shut

theorem ends_beginIncident (desk : Desk κ ω) (call : Call κ) :
    (desk.beginIncident call).ends = false := by
  unfold Desk.beginIncident
  split <;> rfl

theorem ends_concludeIncident (desk : Desk κ ω) (call : Call κ) (request : Request)
    (tokens : List Token) : (desk.concludeIncident call request tokens).ends = false := by
  unfold Desk.concludeIncident
  split <;> rfl

theorem reading_perform (code : Code κ ν ω) (step : Step κ ν)
    (stopped : stay.client.reading = false) :
    (stay.perform code step).2.client.reading = false := by
  cases step with
  | read answers =>
    rw [perform]
    dsimp only
    rwa [read_of_stopped stopped]
  | write answers => exact (write_spec stay.client answers).2.2.trans stopped
  | runOne =>
    unfold perform
    cases next : stay.client.queue.pending with
    | nil => rwa [runOne_of_idle code next]
    | cons command rest => rwa [runOne_of_pending code next]
  | conclude index =>
    unfold perform conclude
    dsimp only
    split <;> exact stopped
  | _ => exact stopped

theorem reading_run (code : Code κ ν ω) (steps : List (Step κ ν))
    (stopped : stay.client.reading = false) :
    (stay.run code steps).2.client.reading = false := by
  induction steps generalizing stay with
  | nil => exact stopped
  | cons step rest ih => exact ih (reading_perform code step stopped)

/-- The end of the session is queued, or it has come. -/
def Doomed (history : List (Incident κ)) (stay : Stay κ ν ω) : Prop :=
  .endSession ∈ stay.client.queue.pending ∨ history.any (·.ends) = true

theorem Doomed.perform (doomed : stay.Doomed history) (code : Code κ ν ω) (step : Step κ ν) :
    (stay.perform code step).2.Doomed (history ++ (stay.perform code step).1) := by
  obtain queued | ended := doomed
  case inr =>
    refine .inr ?_
    rw [List.any_append, ended, Bool.true_or]
  cases step with
  | read answers => exact .inl ((Took.read stay.client answers).kept _ queued)
  | write answers => exact .inl ((write_spec stay.client answers).2.1 ▸ queued)
  | runOne =>
    unfold Stay.perform
    cases next : stay.client.queue.pending with
    | nil => rw [next] at queued; cases queued
    | cons command rest =>
      rw [runOne_of_pending code next]
      rw [next] at queued
      obtain rfl | later := List.mem_cons.1 queued
      · refine .inr ?_
        rw [List.any_append]
        exact Bool.or_true _
      · exact .inl later
  | conclude index =>
    unfold Stay.perform Stay.conclude
    dsimp only
    split <;> exact .inl queued
  | observe name => exact .inl (ActionQueue.mem_enqueue queued)
  | _ => exact .inl queued

theorem Doomed.run (doomed : stay.Doomed history) (code : Code κ ν ω) (steps : List (Step κ ν)) :
    (stay.run code steps).2.Doomed (history ++ (stay.run code steps).1) := by
  induction steps generalizing stay history with
  | nil => rwa [Stay.run, List.append_nil]
  | cons step rest ih =>
    have whole := ih (doomed.perform code step)
    rwa [List.append_assoc] at whole

/-- The end of the session is not queued, and has not come. -/
def Spared (history : List (Incident κ)) (stay : Stay κ ν ω) : Prop :=
  .endSession ∉ stay.client.queue.pending ∧ history.any (·.ends) = false

/-- Only a reader that stops ends the session of a client whose own code does not, and only if the
queue is open by then. -/
theorem Spared.perform (spared : stay.Spared history) (patient : code.Patient) (step : Step κ ν)
    (goes : ∀ answers, step = .read answers → stay.client.reading = false ∨
      (stay.client.read answers).reading = true ∨ stay.client.queue.isClosed = true) :
    (stay.perform code step).2.Spared (history ++ (stay.perform code step).1) := by
  obtain ⟨unqueued, none⟩ := spared
  have silent : (history ++ []).any (·.ends) = false := by rwa [List.append_nil]
  have noted {incident : Incident κ} (other : incident.ends = false) :
      (history ++ [incident]).any (·.ends) = false := by
    rw [List.any_append, none]
    simp [other]
  cases step with
  | read answers =>
    have took := Took.read stay.client answers
    unfold Stay.perform
    refine ⟨fun queued => unqueued ?_, silent⟩
    dsimp only at queued
    obtain stopped | reading | shut := goes answers rfl
    · rwa [read_of_stopped stopped] at queued
    · exact took.goes reading queued
    · rwa [took.shut shut] at queued
  | write answers => exact ⟨(write_spec stay.client answers).2.1 ▸ unqueued, silent⟩
  | runOne =>
    unfold Stay.perform
    cases next : stay.client.queue.pending with
    | nil =>
      rw [runOne_of_idle code next]
      exact ⟨unqueued, silent⟩
    | cons command rest =>
      rw [runOne_of_pending code next]
      rw [next, List.mem_cons, not_or] at unqueued
      refine ⟨unqueued.2, ?_⟩
      rw [List.any_append, none, Bool.false_or, List.any_eq_false]
      intro incident mem
      rw [patient _ command (Ne.symm unqueued.1) incident mem]
      exact Bool.false_ne_true
  | begin call => exact ⟨unqueued, noted (ends_beginIncident _ call)⟩
  | conclude index =>
    unfold Stay.perform Stay.conclude
    dsimp only
    split
    · exact ⟨unqueued, noted (ends_concludeIncident ..)⟩
    · exact ⟨unqueued, silent⟩
  | observe name =>
    refine ⟨fun queued => ?_, silent⟩
    obtain before | same := ActionQueue.of_mem_enqueue queued
    · exact unqueued before
    · cases same
  | _ => exact ⟨unqueued, silent⟩

theorem Spared.run (spared : stay.Spared history) (patient : code.Patient)
    (steps : List (Step κ ν)) (goes : stay.client.reading = false ∨
      (stay.run code steps).2.client.reading = true) :
    (stay.run code steps).2.Spared (history ++ (stay.run code steps).1) := by
  induction steps generalizing stay history with
  | nil => rwa [Stay.run, List.append_nil]
  | cons step rest ih =>
    have whole := ih (spared.perform patient step ?_) ?_
    · rwa [List.append_assoc] at whole
    · rintro answers rfl
      refine goes.imp_right fun reading => .inl ?_
      cases stopped : (stay.client.read answers).reading with
      | true => rfl
      | false =>
        have never : (stay.run code (.read answers :: rest)).2.client.reading = false :=
          reading_run code rest stopped
        cases reading.symm.trans never
    · exact goes.imp (reading_perform code step) id

/-- Each listener of a call that succeeded is parked and has heard nothing, or is parked no more and
has had one outcome. -/
def Accounted (history : List (Incident κ)) (director : Director κ) : Prop :=
  ∀ call tokens request, .posted call tokens request ∈ history →
    tokens.length = call.listeners.length ∧
    ∀ token name, (token, name) ∈ tokens.zip call.listeners →
      (token, name) ∈ director.pending ∧ outcomes token history = [] ∨
      token ∉ director.pending.map (·.1) ∧
        ∃ outcome, outcomes token history = [(name, outcome)]

theorem leave_noting {code : Code κ ν ω} (lawful : code.Lawful) (stay : Stay κ ν ω)
    (notes : List (κ × Word)) :
    ((stay.noted notes).leave code.noting).1 = (stay.leave code).1 ∧
      ((stay.noted notes).leave code.noting).2.desk =
        (stay.leave code).2.desk.noted (notes ++ words (stay.leave code).1) := by
  have ran := stay.run_noting lawful notes (leaving stay.client)
  have noted : ((stay.noted notes).run code.noting (leaving stay.client)).2.client.desk =
      ((stay.noted notes).leave code.noting).2.desk :=
    congrArg (·.context.desk) (queue_leaving (stay.noted notes))
  have plain : (stay.run code (leaving stay.client)).2.client.desk = (stay.leave code).2.desk :=
    congrArg (·.context.desk) (queue_leaving stay)
  refine ⟨congrArg Prod.fst ran, ?_⟩
  rw [← noted, ← plain, ran]
  rfl

/-- What becomes of a client whose stream has come to an end when it takes leave. If its queue was
closed before its reader stopped, the session does not end, and parked listeners stay parked. -/
theorem fate_of_leaving (code : Code κ ν ω) (oid : Oid) (services : List Binding)
    (reader : Wire.FrameReader) (state : ω) (before after : List (Step κ ν))
    (answers : List ReadAnswer) :
    let begun : Stay κ ν ω := start oid services reader state
    let reached := (begun.run code before).2.client
    let ran := begun.run code (before ++ .read answers :: after)
    let left := ran.2.leave code
    let history := ran.1 ++ left.1
    let director := left.2.desk.director
    (reached.reading = true → (reached.read answers).reading = false →
      (registered history).length < 2 ^ 32 →
        left.2.queue.pending = [] ∧
        (reached.queue.isClosed = false → director.closed = true ∧ director.pending = [] ∧
          (Quiet history → ∀ call tokens request, .posted call tokens request ∈ history →
            tokens.length = call.listeners.length ∧
            ∀ token name, (token, name) ∈ tokens.zip call.listeners →
              ∃ outcome, outcomes token history = [(name, outcome)])) ∧
        (reached.queue.isClosed = true → (code.Patient → director.closed = false) ∧
          (Quiet history → Accounted history director))) ∧
    (code.Lawful →
      let noting := (start oid services reader ⟨state, []⟩ : Stay κ ν (Noted κ ω)).run code.noting
        (before ++ .read answers :: after)
      let noted := noting.2.leave code.noting
      noting.1 ++ noted.1 = history ∧ noted.2.desk = left.2.desk.noted (words history)) := by
  intro begun reached ran left history director
  refine ⟨fun reading stopped few => ?_, fun lawful => ?_⟩
  case refine_2 =>
    have noting := begun.run_noting lawful [] (before ++ .read answers :: after)
    obtain ⟨same, desk⟩ := leave_noting lawful ran.2 (words ran.1)
    change (begun.noted []).run code.noting _ = (ran.1, ran.2.noted (words ran.1)) at noting
    change ((begun.noted []).run code.noting _).1 ++
      (((begun.noted []).run code.noting _).2.leave code.noting).1 = _ ∧
      (((begun.noted []).run code.noting _).2.leave code.noting).2.desk = _
    rw [noting, words_append]
    exact ⟨congrArg (ran.1 ++ ·) same, desk⟩
  let first := begun.run code before
  let halted := first.2.perform code (.read answers)
  let rest := halted.2.run code after
  let last := ran.2.run code (leaving ran.2.client)
  have split : ran = (first.1 ++ (halted.1 ++ rest.1), rest.2) :=
    run_append before (.read answers :: after)
  have whole : history = first.1 ++ halted.1 ++ rest.1 ++ last.1 := by
    rw [List.append_assoc first.1]
    exact congrArg (·.1 ++ last.1) split
  have same : last = rest.2.run code (leaving ran.2.client) :=
    congrArg (·.2.run code (leaving ran.2.client)) split
  have drained : last.2.client.queue.pending = [] :=
    (congrArg (·.pending) (queue_leaving ran.2)).trans (pending_finish ran.2.client)
  have desk : last.2.client.desk = left.2.desk := congrArg (·.context.desk) (queue_leaving ran.2)
  have tended : Tended oid history last.2 := by
    have early := (Tended.start oid services reader state).run code
      (before ++ .read answers :: after) (few_of_append few)
    exact early.run code (leaving ran.2.client) few
  have closed : director.closed = history.any (·.ends) :=
    (congrArg (·.director.closed) desk).symm.trans tended.closed
  have empty : director.closed = true → director.pending = [] := by
    have empty := tended.empty
    rwa [desk] at empty
  have accounted (quiet : Quiet history) : Accounted history director := by
    intro call tokens request posted
    refine ⟨tended.lengths call tokens request posted, fun token name mem => ?_⟩
    have fate := tended.parked_or_heard quiet posted mem
    rwa [desk] at fate
  refine ⟨pending_finish ran.2.client, fun isOpen => ?_, fun shut => ⟨fun patient => ?_, accounted⟩⟩
  · have doomed : halted.2.Doomed (first.1 ++ halted.1) :=
      .inl ((Took.read reached answers).stops isOpen reading stopped)
    have doomed := (doomed.run code after).run code (leaving ran.2.client)
    have ended : director.closed = true := by
      rw [closed, whole, same]
      refine doomed.resolve_left fun queued => ?_
      have drained' := same ▸ drained
      rw [drained'] at queued
      cases queued
    refine ⟨ended, empty ended, fun quiet call tokens request posted => ?_⟩
    obtain ⟨count, fate⟩ := accounted quiet call tokens request posted
    refine ⟨count, fun token name mem => ?_⟩
    obtain ⟨waits, -⟩ | ⟨-, heard⟩ := fate token name mem
    · rw [empty ended] at waits
      cases waits
    · exact heard
  · have spared : begun.Spared ([] : List (Incident κ)) := ⟨List.not_mem_nil, rfl⟩
    have spared := spared.run patient before (.inr reading)
    have spared := spared.perform patient (.read answers) fun other same => by
      cases same
      exact .inr (.inr shut)
    have spared := spared.run patient after (.inl stopped)
    have spared := spared.run patient (leaving ran.2.client) (.inl (reading_run code after stopped))
    rw [closed, whole, same]
    exact spared.2

def ears : Code Unit Unit Unit where
  listen _ := ⟨confirmListener, fun _ _ => .done, fun _ => .done⟩
  observe _ _ _ _ := .done

def question : Call Unit := ⟨1, 2, [.value (.str "well?"), .listener ()]⟩

/-- The question is asked; then other things may happen, and then the server is gone. -/
def unanswered (others : List (Step Unit Unit)) : List (Incident Unit) × Stay Unit Unit Unit :=
  (start 1000 [] { limit := 100 } ()).run ears
    (([.begin question, .conclude 0] ++ others) ++ [.read [.ended]])

def unansweredNoting (others : List (Step Unit Unit)) : Stay Unit Unit (Noted Unit Unit) :=
  ((start 1000 [] { limit := 100 } ⟨(), []⟩).run ears.noting
    (([.begin question, .conclude 0] ++ others) ++ [.read [.ended]])).2

def told (others : List (Step Unit Unit)) : List (Incident Unit) :=
  (unanswered others).1 ++ ((unanswered others).2.leave ears).1

theorem told_open : told [] =
    [.began question [⟨1000, 1⟩],
      .posted question [⟨1000, 1⟩] ⟨1, 2, [.str "well?", .listener ⟨1000, 1⟩]⟩,
      .ended, .failed ⟨1000, 1⟩ () "session closed"] := by
  decide +kernel

theorem told_shut : told [.stopQueue] =
    [.began question [⟨1000, 1⟩],
      .posted question [⟨1000, 1⟩] ⟨1, 2, [.str "well?", .listener ⟨1000, 1⟩]⟩] := by
  decide +kernel

theorem patient_ears : ears.Patient := by
  intro context command other incident mem
  cases command with
  | respond response =>
    rw [Context.incidents, Desk.dispatchIncidents] at mem
    split at mem
    · cases mem
    · unfold Desk.deliverIncidents at mem
      dsimp only [ears, Callback.incidents, Callback.run] at mem
      split at mem
      · obtain rfl := List.mem_singleton.1 mem
        rfl
      · split at mem
        all_goals
          obtain rfl := List.mem_singleton.1 mem
          rfl
  | apply event =>
    cases event with
    | attributeChanged target name value => cases mem
    | message target name args =>
      have silent (desk : Desk Unit Unit) (observers : List Unit) :
          Context.presentIncidents ears target name args desk observers = [] := by
        induction observers with
        | nil => rfl
        | cons observer rest ih => exact ih
      rw [Context.incidents, silent] at mem
      cases mem
  | endSession => exact (other rfl).elim
  | addObserver name => cases mem

/-- A question that is not answered has one outcome in the end, or none if the client has closed its
queue too early. -/
theorem fate_of_leaving_unanswered :
    (((unanswered []).2.leave ears).2.desk.director.closed = true ∧
      (∃ outcome, outcomes ⟨1000, 1⟩ (told []) = [((), outcome)]) ∧
      ((unansweredNoting []).leave ears.noting).2.desk.state.notes =
        [((), .failure "session closed")]) ∧
    ((unanswered [.stopQueue]).2.leave ears).2.desk.director.closed = false ∧
      (⟨1000, 1⟩, ()) ∈ ((unanswered [.stopQueue]).2.leave ears).2.desk.director.pending ∧
      outcomes ⟨1000, 1⟩ (told [.stopQueue]) = [] := by
  obtain ⟨fate, noted⟩ := fate_of_leaving ears 1000 [] { limit := 100 } ()
    ([.begin question, .conclude 0] ++ []) [] [.ended]
  obtain ⟨-, ended, -⟩ := fate rfl rfl (by decide +kernel)
  obtain ⟨fate', -⟩ := fate_of_leaving ears 1000 [] { limit := 100 } ()
    ([.begin question, .conclude 0] ++ [.stopQueue]) [] [.ended]
  obtain ⟨-, -, kept⟩ := fate' rfl rfl (by decide +kernel)
  obtain ⟨closed, -, heard⟩ := ended rfl
  obtain ⟨isOpen, accounted⟩ := kept rfl
  obtain ⟨-, noted⟩ := noted fun _ _ _ _ _ _ refused => by cases refused
  have notes : words (told []) = [((), .failure "session closed")] := congrArg words told_open
  have quiet : Quiet (told []) := by simp [Quiet, told_open]
  have quiet' : Quiet (told [.stopQueue]) := by simp [Quiet, told_shut]
  have posted : .posted question [⟨1000, 1⟩] _ ∈ told [] :=
    told_open ▸ List.mem_cons_of_mem _ List.mem_cons_self
  have posted' : .posted question [⟨1000, 1⟩] _ ∈ told [.stopQueue] :=
    told_shut ▸ List.mem_cons_of_mem _ List.mem_cons_self
  have silent : outcomes ⟨1000, 1⟩ (told [.stopQueue]) = [] := by
    rw [told_shut]
    rfl
  have mem : ((⟨1000, 1⟩ : Token), ()) ∈ [⟨1000, 1⟩].zip question.listeners :=
    List.mem_singleton_self _
  refine ⟨⟨closed, (heard quiet _ _ _ posted).2 ⟨1000, 1⟩ () mem, ?_⟩, isOpen patient_ears, ?_,
    silent⟩
  · exact (congrArg (·.state.notes) noted).trans notes
  · obtain ⟨waits, -⟩ | ⟨-, outcome, some⟩ := (accounted quiet' _ _ _ posted').2 ⟨1000, 1⟩ () mem
    · exact waits
    · cases some.symm.trans silent

end Stay

end Parley.Client
