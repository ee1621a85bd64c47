import Parley.Proofs.Client.Stays

/-! Clients that take notes, at work.
What the state of a client's own code is makes no difference to its reader, its writer and its
queue, so a client that takes notes goes through the same steps as it does without them. -/

namespace Parley

open Connection (ReadAnswer WriteAnswer)

namespace Client

variable (f : ω → ω') (code : Code κ ν ω)

def Desk.map (desk : Desk κ ω) : Desk κ ω' := { desk with state := f desk.state }

def Context.map (context : Context κ ν ω) : Context κ ν ω' :=
  { context with desk := context.desk.map f }

end Client

namespace Client

variable (f : ω → ω') (client : Client κ ν ω)

def map : Client κ ν ω' :=
  { client with queue := { client.queue with context := client.queue.context.map f } }

theorem enqueue_map (command : Command ν) :
    (client.map f).enqueue command =
      ((client.enqueue command).1, (client.enqueue command).2.map f) := by
  have isClosed : (client.map f).queue.isClosed = client.queue.isClosed := rfl
  unfold enqueue ActionQueue.enqueue
  rw [isClosed]
  cases client.queue.isClosed <;> rfl

theorem stopReading_map : (client.map f).stopReading = client.stopReading.map f := by
  unfold stopReading
  rw [enqueue_map]
  rfl

theorem readAtMost_map (answers : List ReadAnswer) (count : Nat) :
    (client.map f).readAtMost answers count = (client.readAtMost answers count).map f := by
  induction count generalizing client answers with
  | zero => rfl
  | succ count ih =>
    have reading : (client.map f).reading = client.reading := rfl
    have reader : (client.map f).reader = client.reader := rfl
    unfold readAtMost
    rw [reading, reader]
    split
    · rfl
    rcases nextMessage client.reader answers with ⟨next, reader, rest⟩
    have held : { client.map f with reader, reading := client.reading } =
        { client with reader }.map f := rfl
    cases next with
    | waiting => rfl
    | ended => exact stopReading_map f { client with reader }
    | failed error => exact stopReading_map f { client with reader }
    | message message =>
      dsimp only at held ⊢
      rw [held]
      generalize ({ client with reader } : Client κ ν ω) = client
      cases (command? message : Option (Command ν)) with
      | none => exact ih client rest
      | some command =>
        dsimp only
        rw [enqueue_map]
        rcases client.enqueue command with ⟨_ | _, last⟩
        · rfl
        · exact ih last rest

theorem read_map (answers : List ReadAnswer) :
    (client.map f).read answers = (client.read answers).map f :=
  client.readAtMost_map f answers _

theorem write_map (answers : List WriteAnswer) :
    (client.map f).write answers = ((client.write answers).1, (client.write answers).2.map f) := by
  have writing : (client.map f).writing = client.writing := rfl
  have outgoing : (client.map f).desk.outgoing = client.desk.outgoing := rfl
  have unsent : (client.map f).unsent = client.unsent := rfl
  unfold write
  rw [writing, outgoing, unsent]
  split
  · rfl
  dsimp only
  rcases Connection.writeOut [] _ (answers.map once) with ⟨error | done, written, rest⟩ <;> rfl

end Client

namespace Client

namespace Context

variable (code : Code κ ν ω)

def noted (context : Context κ ν ω) (notes : List (κ × Word)) : Context κ ν (Noted κ ω) :=
  context.map (⟨·, notes⟩)

theorem present_noting (target : Oid) (name : String) (args : Arguments) (desk : Desk κ ω)
    (notes : List (κ × Word)) (observers : List ν) :
    present code.noting target name args (desk.noted notes) observers =
        ((present code target name args desk observers).1,
          (present code target name args desk observers).2.noted
            (notes ++ words (presentIncidents code target name args desk observers))) ∧
      presentIncidents code.noting target name args (desk.noted notes) observers =
        presentIncidents code target name args desk observers := by
  induction observers generalizing desk notes with
  | nil => exact ⟨by simp [present, presentIncidents], rfl⟩
  | cons observer rest ih =>
    obtain ⟨ran, same⟩ :=
      (code.observe observer target name args).run_lift code.listen desk notes
    have observe : code.noting.observe observer target name args =
        (code.observe observer target name args).lift := rfl
    have listen : code.noting.listen = noting code.listen := rfl
    unfold present presentIncidents
    dsimp only
    rw [observe, listen, ran, same, words_append]
    rcases (code.observe observer target name args).run code.listen desk with ⟨ending, last⟩
    cases ending with
    | panicked text => exact ⟨by simp, rfl⟩
    | returned =>
      obtain ⟨shown, later⟩ := ih last
        (notes ++ words ((code.observe observer target name args).incidents code.listen desk))
      dsimp only
      rw [shown, later, List.append_assoc]
      exact ⟨rfl, rfl⟩
    | failed error =>
      obtain ⟨shown, later⟩ := ih last
        (notes ++ words ((code.observe observer target name args).incidents code.listen desk))
      dsimp only
      rw [shown, later, List.append_assoc]
      exact ⟨rfl, rfl⟩

theorem perform_noting_of_ne (context : Context κ ν ω) (notes : List (κ × Word))
    (command : Command ν) (other : ∀ response, command ≠ .respond response) :
    (context.noted notes).perform code.noting command =
        ((context.perform code command).1, (context.perform code command).2.noted
          (notes ++ words (context.incidents code command))) ∧
      (context.noted notes).incidents code.noting command = context.incidents code command := by
  have listen : code.noting.listen = noting code.listen := rfl
  have desk : (context.noted notes).desk = context.desk.noted notes := rfl
  cases command with
  | respond response => exact (other response rfl).elim
  | apply event =>
    cases event with
    | attributeChanged target name value =>
      refine ⟨?_, rfl⟩
      rw [incidents, words_nil, List.append_nil]
      rfl
    | message target name args =>
      obtain ⟨ran, same⟩ := present_noting code target name args context.desk notes
        context.observers
      have observers : (context.noted notes).observers = context.observers := rfl
      refine ⟨?_, same⟩
      unfold perform apply
      dsimp only
      rw [desk, observers, ran]
      rfl
  | endSession =>
    obtain ⟨ran, same⟩ := context.desk.endSession_noting code.listen notes
    unfold perform incidents
    dsimp only
    rw [listen, desk, ran, same]
    exact ⟨rfl, rfl⟩
  | addObserver name =>
    refine ⟨?_, rfl⟩
    rw [incidents, words_nil, List.append_nil]
    rfl

theorem perform_respond (context : Context κ ν ω) (response : Response) :
    context.perform code (.respond response) =
      ((context.desk.dispatch code.listen response).1,
        { context with desk := (context.desk.dispatch code.listen response).2 }) := rfl

theorem perform_noting {code : Code κ ν ω} (lawful : code.Lawful) (context : Context κ ν ω)
    (notes : List (κ × Word)) (command : Command ν) :
    (context.noted notes).perform code.noting command =
        ((context.perform code command).1, (context.perform code command).2.noted
          (notes ++ words (context.incidents code command))) ∧
      (context.noted notes).incidents code.noting command = context.incidents code command := by
  cases command with
  | respond response =>
    have desk : (context.noted notes).desk = context.desk.noted notes := rfl
    have listen : code.noting.listen = noting code.listen := rfl
    obtain ⟨ran, same⟩ := Desk.dispatch_noting lawful response context.desk notes
    rw [perform_respond, perform_respond, listen, desk, ran]
    exact ⟨rfl, same⟩
  | _ => exact context.perform_noting_of_ne code notes _ nofun

end Context

namespace Stay

variable {code : Code κ ν ω} (lawful : code.Lawful)

def noted (stay : Stay κ ν ω) (notes : List (κ × Word)) : Stay κ ν (Noted κ ω) :=
  { client := stay.client.map (⟨·, notes⟩), calls := stay.calls }

include lawful in
theorem runOne_noting (stay : Stay κ ν ω) (notes : List (κ × Word)) :
    (stay.noted notes).runOne code.noting = ((stay.runOne code).1,
      (stay.runOne code).2.noted (notes ++ words (stay.runOne code).1)) := by
  have pending : (stay.noted notes).client.queue.pending = stay.client.queue.pending := rfl
  have context : (stay.noted notes).client.queue.context =
      stay.client.queue.context.noted notes := rfl
  cases next : stay.client.queue.pending with
  | nil =>
    rw [runOne_of_idle code next, runOne_of_idle code.noting (pending.trans next)]
    exact congrArg (Prod.mk []) (congrArg stay.noted (List.append_nil notes).symm)
  | cons command rest =>
    obtain ⟨ran, same⟩ := stay.client.queue.context.perform_noting lawful notes command
    rw [runOne_of_pending code next, runOne_of_pending code.noting (pending.trans next), context,
      ran, same]
    rfl

include lawful in
/-- What a client does that takes notes is what it does without them. -/
theorem perform_noting (stay : Stay κ ν ω) (notes : List (κ × Word)) (step : Step κ ν) :
    (stay.noted notes).perform code.noting step = ((stay.perform code step).1,
      (stay.perform code step).2.noted (notes ++ words (stay.perform code step).1)) := by
  have still {client : Client κ ν ω} {client' : Client κ ν (Noted κ ω)}
      (same : client' = client.map (⟨·, notes⟩)) : ({ client := client', calls := stay.calls } :
        Stay κ ν (Noted κ ω)) = ({ stay with client } : Stay κ ν ω).noted (notes ++ words []) := by
    rw [same, words_nil, List.append_nil]
    rfl
  cases step with
  | read answers => exact congrArg (Prod.mk []) (still (stay.client.read_map _ answers))
  | write answers =>
    exact congrArg (Prod.mk []) (still (congrArg Prod.snd (stay.client.write_map _ answers)))
  | runOne => exact stay.runOne_noting lawful notes
  | begin call =>
    have silent : words [stay.client.desk.beginIncident call] = [] := by
      unfold Desk.beginIncident
      rcases stay.client.desk.director.begin call with ⟨_ | _, _⟩ <;> rfl
    refine congrArg (Prod.mk _) ?_
    dsimp only [perform, begin]
    rw [silent, List.append_nil]
    rfl
  | conclude index =>
    have calls : (stay.noted notes).calls = stay.calls := rfl
    have desk : (stay.noted notes).client.desk = stay.client.desk.noted notes := rfl
    dsimp only [perform, conclude]
    rw [calls]
    cases stay.calls[index]? with
    | none => exact congrArg (Prod.mk []) (congrArg stay.noted (List.append_nil notes).symm)
    | some entry =>
      obtain ⟨call, request, tokens⟩ := entry
      have silent : words [stay.client.desk.concludeIncident call request tokens] = [] := by
        unfold Desk.concludeIncident
        cases (stay.client.desk.conclude request tokens).1 <;> rfl
      dsimp only
      rw [silent, List.append_nil, desk, Desk.concludeIncident, Desk.conclude_noted]
      rfl
  | post message => exact congrArg (Prod.mk []) (still rfl)
  | observe name =>
    exact congrArg (Prod.mk []) (still (congrArg Prod.snd (stay.client.enqueue_map _ _)))
  | stopQueue => exact congrArg (Prod.mk []) (still rfl)

include lawful in
theorem run_noting (stay : Stay κ ν ω) (notes : List (κ × Word)) (steps : List (Step κ ν)) :
    (stay.noted notes).run code.noting steps = ((stay.run code steps).1,
      (stay.run code steps).2.noted (notes ++ words (stay.run code steps).1)) := by
  induction steps generalizing stay notes with
  | nil => exact congrArg (Prod.mk []) (congrArg stay.noted (List.append_nil notes).symm)
  | cons step rest ih =>
    rw [run, run, stay.perform_noting lawful]
    dsimp only
    rw [ih, words_append, List.append_assoc]

end Stay

end Client

end Parley
