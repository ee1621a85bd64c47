import Parley.Client.Client
import Parley.Proofs.ActionQueue.Order
import Parley.Proofs.Client.Stretches

/-! A client at work.
What its reader, its writer, its queue and its own code do may come in any order, and a call that
has been begun may be concluded much later. Whatever happens, the listeners of a call that succeeds
are looked after: each is parked, or has had one outcome, unless code of the client panics. -/

namespace Parley.Client

open Connection (ReadAnswer WriteAnswer)
open scoped List

/-- Between the two, the reader of a client took something from its stream, or came to its end. -/
structure Took (before after : Client κ ν ω) : Prop where
  desk : after.desk = before.desk
  shut : before.queue.isClosed = true → after.queue = before.queue
  accepts : before.queue.isClosed = false → after.queue.isClosed = false
  kept : ∀ command ∈ before.queue.pending, command ∈ after.queue.pending
  stays : before.reading = false → after.reading = false
  goes : after.reading = true → .endSession ∈ after.queue.pending →
    .endSession ∈ before.queue.pending
  stops : before.queue.isClosed = false → before.reading = true → after.reading = false →
    .endSession ∈ after.queue.pending

namespace Took

variable {first second third client : Client κ ν ω}

theorem refl (client : Client κ ν ω) (reader : Wire.FrameReader) :
    Took client { client with reader } :=
  ⟨rfl, fun _ => rfl, id, fun _ => id, id, fun _ => id, fun _ reading stopped => by
    cases reading.symm.trans stopped⟩

theorem trans (early : Took first second) (late : Took second third) : Took first third := by
  refine ⟨late.desk.trans early.desk, fun shut => ?_,
    fun open' => late.accepts (early.accepts open'),
    fun command mem => late.kept command (early.kept command mem),
    fun stopped => late.stays (early.stays stopped), fun reading mem => ?_,
    fun open' reading stopped => ?_⟩
  · have same := early.shut shut
    exact (late.shut (same ▸ shut)).trans same
  · have reading' : second.reading = true := by
      cases still : second.reading with
      | true => rfl
      | false => cases reading.symm.trans (late.stays still)
    exact early.goes reading' (late.goes reading mem)
  · cases still : second.reading with
    | true => exact late.stops (early.accepts open') still stopped
    | false => exact late.kept _ (early.stops open' reading still)

theorem enqueue (client : Client κ ν ω) {command : Command ν} (other : command ≠ .endSession) :
    Took client (client.enqueue command).2 := by
  refine ⟨congrArg Context.desk (client.queue.context_enqueue command), fun shut => ?_,
    fun open' => ?_, fun _ => ActionQueue.mem_enqueue, id, fun _ mem => ?_,
    fun _ reading stopped => by cases reading.symm.trans stopped⟩
  · exact congrArg Prod.snd (ActionQueue.enqueue_of_closed shut command)
  · exact (client.queue.isClosed_enqueue command).trans open'
  · exact (ActionQueue.of_mem_enqueue mem).resolve_right other.symm

theorem stopReading (client : Client κ ν ω) : Took client client.stopReading := by
  refine ⟨congrArg Context.desk (client.queue.context_enqueue .endSession), fun shut => ?_,
    fun open' => ?_, fun _ => ActionQueue.mem_enqueue, fun _ => rfl, nofun, fun open' _ _ => ?_⟩
  · exact congrArg Prod.snd (ActionQueue.enqueue_of_closed shut .endSession)
  · exact (client.queue.isClosed_enqueue .endSession).trans open'
  · have accepted := client.queue.enqueue_of_open open' .endSession
    have queue : client.stopReading.queue = (client.queue.enqueue .endSession).2 := rfl
    rw [queue, accepted]
    exact List.mem_append_right _ (List.mem_singleton_self _)

theorem turnedAway {client : Client κ ν ω} (shut : client.queue.isClosed = true) :
    Took client { client with reading := false } :=
  ⟨rfl, fun _ => rfl, id, fun _ => id, fun _ => rfl, nofun, fun open' => by
    cases shut.symm.trans open'⟩

theorem readAtMost (client : Client κ ν ω) (answers : List ReadAnswer) (count : Nat) :
    Took client (client.readAtMost answers count) := by
  induction count generalizing client answers with
  | zero => exact refl client client.reader
  | succ count ih =>
    unfold Client.readAtMost
    split
    · exact refl client client.reader
    rcases nextMessage client.reader answers with ⟨next, reader, rest⟩
    have held := refl client reader
    cases next with
    | waiting => exact held
    | ended => exact held.trans (stopReading _)
    | failed error => exact held.trans (stopReading _)
    | message message =>
      dsimp only
      generalize { client with reader } = client' at held ⊢
      cases asks : (Client.command? message : Option (Command ν)) with
      | none => exact held.trans (ih client' rest)
      | some command =>
        have other : command ≠ .endSession := by
          rintro rfl
          unfold Client.command? at asks
          split at asks <;> cases asks
        dsimp only
        cases shut : client'.queue.isClosed with
        | true =>
          have refused : client'.enqueue command = (false, client') := by
            rw [Client.enqueue, ActionQueue.enqueue_of_closed shut]
          rw [refused]
          exact held.trans (turnedAway shut)
        | false =>
          have queued := enqueue client' other
          have accepted : (client'.enqueue command).1 = true :=
            congrArg Prod.fst (ActionQueue.enqueue_of_open shut command)
          rcases put : client'.enqueue command with ⟨answer, last⟩
          rw [put] at accepted queued
          obtain rfl : answer = true := accepted
          exact held.trans (queued.trans (ih last rest))

theorem read (client : Client κ ν ω) (answers : List ReadAnswer) :
    Took client (client.read answers) := readAtMost client answers _

end Took

theorem write_spec (client : Client κ ν ω) (answers : List WriteAnswer) :
    let after := (client.write answers).2
    after.desk.director = client.desk.director ∧ after.queue.pending = client.queue.pending ∧
      after.reading = client.reading := by
  unfold Client.write
  split
  · exact ⟨rfl, rfl, rfl⟩
  · dsimp only
    split <;> exact ⟨rfl, rfl, rfl⟩

theorem read_of_stopped {client : Client κ ν ω} (stopped : client.reading = false)
    (answers : List ReadAnswer) : client.read answers = client := by
  rw [Client.read]
  cases Client.messageBound client.reader answers with
  | zero => rfl
  | succ count =>
    rw [Client.readAtMost, stopped]
    rfl

/-- A client at work, with the calls that were begun and are not concluded. -/
structure Stay (κ ν ω : Type) where
  client : Client κ ν ω
  calls : List (Call κ × Request × List Token) := []

namespace Stay

/-- What happens at a client that is logged on. -/
inductive Step (κ ν : Type) where
  | read (answers : List ReadAnswer)
  | write (answers : List WriteAnswer)
  /-- The oldest queued command runs. -/
  | runOne
  | begin (call : Call κ)
  | conclude (index : Nat)
  | post (message : Message)
  | observe (name : ν)
  /-- The client's own code closes the queue. -/
  | stopQueue
  deriving DecidableEq, Repr

def start (oid : Oid) (services : List Binding) (reader : Wire.FrameReader) (state : ω) :
    Stay κ ν ω := { client := .new oid services reader state }

variable (code : Code κ ν ω)

def runOne (stay : Stay κ ν ω) : List (Incident κ) × Stay κ ν ω :=
  match stay.client.queue.pending, stay.client.queue.step? (Context.behave code) with
  | command :: _, some queue =>
    (stay.client.queue.context.incidents code command,
      { stay with client := { stay.client with queue } })
  | _, _ => ([], stay)

def begin (stay : Stay κ ν ω) (call : Call κ) : List (Incident κ) × Stay κ ν ω :=
  let desk := stay.client.desk
  let (result, director) := desk.director.begin call
  ([desk.beginIncident call],
    { client := stay.client.setDesk { desk with director }
      calls := stay.calls ++ (result.toOption.map fun begun => (call, begun)).toList })

def conclude (stay : Stay κ ν ω) (index : Nat) : List (Incident κ) × Stay κ ν ω :=
  match stay.calls[index]? with
  | some (call, request, tokens) =>
    ([stay.client.desk.concludeIncident call request tokens],
      { client := stay.client.setDesk (stay.client.desk.conclude request tokens).2
        calls := stay.calls.eraseIdx index })
  | none => ([], stay)

def perform (stay : Stay κ ν ω) : Step κ ν → List (Incident κ) × Stay κ ν ω
  | .read answers => ([], { stay with client := stay.client.read answers })
  | .write answers => ([], { stay with client := (stay.client.write answers).2 })
  | .runOne => stay.runOne code
  | .begin call => stay.begin call
  | .conclude index => stay.conclude index
  | .post message => ([], { stay with client := (stay.client.post message).2 })
  | .observe name => ([], { stay with client := (stay.client.enqueue (.addObserver name)).2 })
  | .stopQueue =>
    ([], { stay with client := { stay.client with queue := stay.client.queue.shutdown } })

def run (stay : Stay κ ν ω) : List (Step κ ν) → List (Incident κ) × Stay κ ν ω
  | [] => ([], stay)
  | step :: rest =>
    let (incidents, stay) := stay.perform code step
    let (more, stay) := stay.run rest
    (incidents ++ more, stay)

theorem runOne_of_pending {stay : Stay κ ν ω} {command : Command ν} {rest : List (Command ν)}
    (next : stay.client.queue.pending = command :: rest) :
    stay.runOne code = (stay.client.queue.context.incidents code command,
      { stay with client := { stay.client with queue := { stay.client.queue with
          context := (stay.client.queue.context.perform code command).2
          pending := rest
          executed := stay.client.queue.executed + 1 } } }) := by
  unfold runOne
  rw [Context.step?_behave code next, next]

theorem runOne_of_idle {stay : Stay κ ν ω} (idle : stay.client.queue.pending = []) :
    stay.runOne code = ([], stay) := by
  unfold runOne
  rw [idle]

def leaving (client : Client κ ν ω) : List (Step κ ν) :=
  .stopQueue :: .replicate client.queue.pending.length .runOne

def leave (stay : Stay κ ν ω) : List (Incident κ) × Client κ ν ω :=
  ((stay.run code (leaving stay.client)).1, stay.client.finish code)

end Stay

section Book

variable {oid : Oid} {history : List (Incident κ)} {stay : Stay κ ν ω}

def opened (calls : List (Call κ × Request × List Token)) : List (Token × κ) :=
  calls.flatMap fun (call, _, tokens) => tokens.zip call.listeners

/-- New listeners join those who are looked after, and none of either gets lost. -/
theorem joined {minded fresh parked parked' heard heard' gone : List (Token × κ)}
    (apart : (minded.map (·.1)).Nodup) (known : minded ⊆ parked ++ heard)
    (moved : (parked ++ fresh).Perm (parked' ++ heard'))
    (once : ((parked' ++ (gone ++ (heard ++ heard'))).map (·.1)).Nodup) :
    ((minded ++ fresh).map (·.1)).Nodup ∧ minded ++ fresh ⊆ parked' ++ (heard ++ heard') := by
  have all : (parked' ++ (heard ++ heard')).Perm ((parked ++ heard) ++ fresh) := by
    calc parked' ++ (heard ++ heard')
      _ ~ parked' ++ (heard' ++ heard) := List.perm_append_comm.append_left _
      _ ~ (parked ++ fresh) ++ heard := by
        rw [← List.append_assoc]
        exact moved.symm.append_right _
      _ ~ parked ++ (heard ++ fresh) := by
        rw [List.append_assoc]
        exact List.perm_append_comm.append_left _
      _ = (parked ++ heard) ++ fresh := (List.append_assoc ..).symm
  have fewer : (parked' ++ (heard ++ heard')).Sublist (parked' ++ (gone ++ (heard ++ heard'))) :=
    (List.sublist_append_right gone _).append_left parked'
  have once := (all.map (·.1)).nodup_iff.1 (once.sublist (fewer.map _))
  rw [List.map_append, List.nodup_append] at once
  refine ⟨?_, fun entry mem => all.mem_iff.2 ?_⟩
  · rw [List.map_append, List.nodup_append]
    refine ⟨apart, once.2.1, fun token mem => once.2.2 token ?_⟩
    exact List.map_subset _ known mem
  · exact (List.mem_append.1 mem).elim (fun mem => List.mem_append_left _ (known mem))
      (List.mem_append_right _)

/-- The book of a client at work, by what has happened. The listeners that are looked after are
those of the calls that succeeded and of the calls that are not concluded. -/
structure Tended (oid : Oid) (history : List (Incident κ)) (stay : Stay κ ν ω) : Prop where
  accounts : ∃ gone, stay.client.desk.director.Accounts oid (registered history)
    (gone ++ settled history)
  closed : stay.client.desk.director.closed = history.any (·.ends)
  empty : stay.client.desk.director.closed = true → stay.client.desk.director.pending = []
  lengths : ∀ call tokens request, .posted call tokens request ∈ history →
    tokens.length = call.listeners.length
  counts : ∀ call request tokens, (call, request, tokens) ∈ stay.calls →
    tokens.length = call.listeners.length
  apart : Quiet history → ((entrusted history ++ opened stay.calls).map (·.1)).Nodup
  known : Quiet history → entrusted history ++ opened stay.calls ⊆
    stay.client.desk.director.pending ++ settled history

namespace Tended

theorem start (oid : Oid) (services : List Binding) (reader : Wire.FrameReader) (state : ω) :
    Tended oid ([] : List (Incident κ))
      (.start oid services reader state : Stay κ ν ω) :=
  ⟨⟨[], .start oid⟩, rfl, nofun, nofun, nofun, fun _ => .nil, fun _ => List.nil_subset _⟩

theorem still (tended : Tended oid history stay) {client : Client κ ν ω}
    (same : client.desk.director = stay.client.desk.director) :
    Tended oid (history ++ []) { stay with client } := by
  rw [List.append_nil]
  refine ⟨?_, ?_, ?_, tended.lengths, tended.counts, tended.apart, ?_⟩
  all_goals dsimp only
  all_goals rw [same]
  · exact tended.accounts
  · exact tended.closed
  · exact tended.empty
  · exact tended.known

theorem command (tended : Tended oid history stay) (code : Code κ ν ω) {client : Client κ ν ω}
    (command : Command ν)
    (after : client.desk = (stay.client.queue.context.perform code command).2.desk)
    (few : (registered (history ++ stay.client.queue.context.incidents code command)).length <
      2 ^ 32) :
    Tended oid (history ++ stay.client.queue.context.incidents code command)
      { stay with client } := by
  obtain ⟨gone, accounts⟩ := tended.accounts
  rw [registered_append] at few
  have handled := Context.handled_perform code accounts tended.empty few
  generalize stay.client.queue.context.incidents code command = incidents at handled few ⊢
  rw [← after] at handled
  have turned : (gone ++ withdrawn incidents ++ (settled history ++ settled incidents)).Perm
      (gone ++ settled history ++ withdrawn incidents ++ settled incidents) := by
    simp only [List.append_assoc]
    exact (List.perm_append_comm_assoc _ _ _).append_left gone
  have book : client.desk.director.Accounts oid (registered (history ++ incidents))
      (gone ++ withdrawn incidents ++ settled (history ++ incidents)) := by
    rw [registered_append, settled_append]
    exact handled.accounts.release rfl rfl (turned.append_left _).subperm
  have fate (quiet : Quiet (history ++ incidents)) :
      (((entrusted history ++ opened stay.calls) ++ entrusted incidents).map (·.1)).Nodup ∧
      (entrusted history ++ opened stay.calls) ++ entrusted incidents ⊆
        client.desk.director.pending ++ (settled history ++ settled incidents) := by
    obtain ⟨early, late⟩ := (quiet_append _ _).1 quiet
    have once := book.once
    rw [settled_append] at once
    exact joined (tended.apart early) (tended.known early) (handled.balance late) once
  have listed : (entrusted (history ++ incidents) ++ opened stay.calls).Perm
      ((entrusted history ++ opened stay.calls) ++ entrusted incidents) := by
    rw [entrusted_append, List.append_assoc, List.append_assoc]
    exact List.perm_append_comm.append_left _
  refine ⟨⟨_, book⟩, ?_, handled.empty, fun call tokens request mem => ?_, tended.counts,
    fun quiet => ?_, fun quiet => ?_⟩
  · rw [List.any_append, ← tended.closed]
    exact handled.closed
  · exact (List.mem_append.1 mem).elim (tended.lengths call tokens request)
      (handled.lengths call tokens request)
  · exact (listed.map (·.1)).nodup_iff.2 (fate quiet).1
  · rw [settled_append]
    exact fun entry mem => (fate quiet).2 (listed.mem_iff.1 mem)

theorem noted (tended : Tended oid history stay) {incident : Incident κ} {client : Client κ ν ω}
    {calls : List (Call κ × Request × List Token)}
    (parks : registered [incident] = []) (tells : settled [incident] = [])
    (goes : incident.ends = false)
    (length : ∀ call tokens request, incident = .posted call tokens request →
      tokens.length = call.listeners.length)
    (book : ∀ told, stay.client.desk.director.Accounts oid (registered history) told →
      client.desk.director.Accounts oid (registered history) told)
    (closed : client.desk.director.closed = stay.client.desk.director.closed)
    (fewer : client.desk.director.pending ⊆ stay.client.desk.director.pending)
    (calls_sub : calls ⊆ stay.calls)
    (listed : (entrusted [incident] ++ opened calls).Subperm (opened stay.calls))
    (kept : Quiet history → ∀ entry ∈ entrusted history ++ (entrusted [incident] ++ opened calls),
      entry ∈ stay.client.desk.director.pending → entry ∈ client.desk.director.pending) :
    Tended oid (history ++ [incident]) ⟨client, calls⟩ := by
  obtain ⟨gone, accounts⟩ := tended.accounts
  refine ⟨⟨gone, ?_⟩, ?_, fun ended => ?_, fun call tokens request mem => ?_,
    fun call request tokens mem => tended.counts call request tokens (calls_sub mem),
    fun quiet => ?_, fun quiet entry mem => ?_⟩
  · rw [registered_append, settled_append, parks, tells, List.append_nil, List.append_nil]
    exact book _ accounts
  · rw [List.any_append, ← tended.closed]
    simp [closed, goes]
  · have none := tended.empty (closed ▸ ended)
    rw [none] at fewer
    exact List.subset_nil.1 fewer
  · obtain mem | same := List.mem_append.1 mem
    · exact tended.lengths call tokens request mem
    · exact length call tokens request (List.mem_singleton.1 same).symm
  · have early := ((quiet_append _ _).1 quiet).1
    rw [entrusted_append, List.append_assoc]
    obtain ⟨rest, same, sub⟩ := (List.subperm_append_left (entrusted history)).2 listed
    exact (same.map (·.1)).nodup_iff.1 ((tended.apart early).sublist (sub.map _))
  · have early := ((quiet_append _ _).1 quiet).1
    rw [entrusted_append, List.append_assoc] at mem
    rw [settled_append, tells, List.append_nil]
    have listed := (List.subperm_append_left (entrusted history)).2 listed
    have before := tended.known early (listed.subset mem)
    exact (List.mem_append.1 before).elim
      (fun waits => List.mem_append_left _ (kept early entry mem waits)) (List.mem_append_right _)

theorem begin (tended : Tended oid history stay) (call : Call κ)
    (few : (registered (history ++ (stay.begin call).1)).length < 2 ^ 32) :
    Tended oid (history ++ (stay.begin call).1) (stay.begin call).2 := by
  unfold Stay.begin Desk.beginIncident at few ⊢
  rcases begun : stay.client.desk.director.begin call with ⟨result, director⟩
  dsimp only at few ⊢
  rw [begun] at few ⊢
  unfold Director.begin at begun
  split at begun
  · cases begun
    refine tended.noted rfl rfl rfl (fun _ _ _ same => by cases same) (fun _ => id) rfl
      (List.Subset.refl _) ?_ ?_ fun _ _ _ => id
    · exact (List.append_nil stay.calls).symm ▸ List.Subset.refl _
    · exact (List.append_nil stay.calls).symm ▸ List.Subperm.refl _
  · rename_i isOpen
    rw [Bool.not_eq_true] at isOpen
    rcases parking : stay.client.desk.director.parkAll call.args with ⟨values, tokens, parked⟩
    rw [parking] at begun
    cases begun
    obtain ⟨gone, accounts⟩ := tended.accounts
    dsimp only [Except.toOption] at few ⊢
    have count := (Director.tokens_parkAll parking).1
    have parks : registered [.began call tokens] = tokens.zip call.listeners := List.append_nil _
    have posts : entrusted [(.began call tokens : Incident κ)] = [] := rfl
    have tells : settled [(.began call tokens : Incident κ)] = [] := rfl
    have lists : opened (stay.calls ++ [(call, ⟨call.target, call.method, values⟩, tokens)]) =
        opened stay.calls ++ tokens.zip call.listeners := by
      simp [opened]
    rw [registered_append, parks] at few
    have book := accounts.parkAll call parking few
    have pending : director.pending =
        stay.client.desk.director.pending ++ tokens.zip call.listeners := by
      refine (Director.parkAll_spec parking ?_).1
      have bound := accounts.length_pending_le
      rw [List.length_append, List.length_zip, count, Nat.min_self] at few
      omega
    have still : director.closed = false := (Director.closed_parkAll parking).trans isOpen
    have fate (quiet : Quiet history) :
        (((entrusted history ++ opened stay.calls) ++ tokens.zip call.listeners).map (·.1)).Nodup ∧
        (entrusted history ++ opened stay.calls) ++ tokens.zip call.listeners ⊆
          director.pending ++ (settled history ++ []) := by
      have moved : (stay.client.desk.director.pending ++ tokens.zip call.listeners).Perm
          (director.pending ++ []) := by rw [pending, List.append_nil]
      have once := book.once
      rw [← List.append_nil (settled history)] at once
      exact joined (tended.apart quiet) (tended.known quiet) moved once
    refine ⟨⟨gone, ?_⟩, ?_, fun ended => ?_, fun call' tokens' request mem => ?_,
      fun call' request tokens' mem => ?_, fun quiet => ?_, fun quiet => ?_⟩
    · rw [registered_append, settled_append, parks, tells, List.append_nil]
      exact book
    · rw [List.any_append, ← tended.closed, isOpen]
      exact still
    · cases still.symm.trans ended
    · obtain mem | same := List.mem_append.1 mem
      · exact tended.lengths call' tokens' request mem
      · cases List.mem_singleton.1 same
    · obtain mem | same := List.mem_append.1 mem
      · exact tended.counts call' request tokens' mem
      · cases List.mem_singleton.1 same
        exact count
    · have early := ((quiet_append _ _).1 quiet).1
      rw [entrusted_append, posts, List.append_nil]
      dsimp only [Option.map_some, Option.toList_some]
      rw [lists, ← List.append_assoc]
      exact (fate early).1
    · have early := ((quiet_append _ _).1 quiet).1
      rw [entrusted_append, settled_append, posts, tells, List.append_nil (entrusted history)]
      dsimp only [Option.map_some, Option.toList_some]
      rw [lists, ← List.append_assoc]
      exact (fate early).2

theorem conclude (tended : Tended oid history stay) (index : Nat) :
    Tended oid (history ++ (stay.conclude index).1) (stay.conclude index).2 := by
  unfold Stay.conclude
  cases there : stay.calls[index]? with
  | none => exact tended.still rfl
  | some entry =>
    obtain ⟨call, request, tokens⟩ := entry
    dsimp only
    obtain ⟨within, same⟩ := List.getElem?_eq_some_iff.1 there
    have listed : (tokens.zip call.listeners ++ opened (stay.calls.eraseIdx index)).Perm
        (opened stay.calls) := by
      have turned := (List.getElem_cons_eraseIdx_perm within).flatMap_right
        fun (call, _, tokens) => tokens.zip call.listeners
      rwa [same] at turned
    have count := tended.counts call request tokens (same ▸ List.getElem_mem within)
    have rest : stay.calls.eraseIdx index ⊆ stay.calls := List.eraseIdx_subset
    unfold Desk.concludeIncident Desk.conclude
    rcases posted : stay.client.desk.outgoing.post (.invocation request) with
      ⟨error | done, outgoing⟩
    · refine tended.noted rfl rfl rfl (fun _ _ _ same => by cases same)
        (fun told accounts => accounts.withdraw tokens) rfl (List.filter_subset_self _) rest ?_ ?_
      · exact (List.sublist_append_right _ _).subperm.trans listed.subperm
      · -- no other listener has a token of this call
        intro quiet entry mem waits
        have whole : (tokens.zip call.listeners ++
            (entrusted history ++ opened (stay.calls.eraseIdx index))).Perm
            (entrusted history ++ opened stay.calls) :=
          (List.perm_append_comm_assoc _ _ _).trans (listed.append_left (entrusted history))
        have apart := (whole.map (·.1)).nodup_iff.2 (tended.apart quiet)
        rw [List.map_append, List.map_fst_zip (Nat.le_of_eq count), List.nodup_append] at apart
        refine List.mem_filter.2 ⟨waits, decide_eq_true fun own => ?_⟩
        exact apart.2.2 entry.1 own entry.1 (List.mem_map_of_mem mem) rfl
    · have posts : entrusted [.posted call tokens request] = tokens.zip call.listeners :=
        List.append_nil _
      refine tended.noted rfl rfl rfl (fun _ _ _ same => ?_) (fun _ => id) rfl
        (List.Subset.refl _) rest ?_ fun _ _ _ => id
      · cases same
        exact count
      · rw [posts]
        exact listed.subperm

theorem perform (tended : Tended oid history stay) (code : Code κ ν ω) (step : Stay.Step κ ν)
    (few : (registered (history ++ (stay.perform code step).1)).length < 2 ^ 32) :
    Tended oid (history ++ (stay.perform code step).1) (stay.perform code step).2 := by
  cases step with
  | read answers =>
    exact tended.still (congrArg Desk.director (Took.read stay.client answers).desk)
  | write answers => exact tended.still (write_spec stay.client answers).1
  | runOne =>
    unfold Stay.perform at few ⊢
    cases next : stay.client.queue.pending with
    | nil =>
      rw [Stay.runOne_of_idle code next]
      exact tended.still rfl
    | cons command rest =>
      rw [Stay.runOne_of_pending code next] at few ⊢
      exact tended.command code command rfl few
  | begin call => exact tended.begin call few
  | conclude index => exact tended.conclude index
  | post message => exact tended.still rfl
  | observe name =>
    have same := stay.client.queue.context_enqueue (.addObserver name)
    exact tended.still (congrArg (·.desk.director) same)
  | stopQueue => exact tended.still rfl

theorem run (tended : Tended oid history stay) (code : Code κ ν ω) (steps : List (Stay.Step κ ν))
    (few : (registered (history ++ (stay.run code steps).1)).length < 2 ^ 32) :
    Tended oid (history ++ (stay.run code steps).1) (stay.run code steps).2 := by
  induction steps generalizing stay history with
  | nil => rwa [Stay.run, List.append_nil]
  | cons step rest ih =>
    rw [Stay.run] at few ⊢
    dsimp only at few ⊢
    rw [← List.append_assoc] at few ⊢
    exact ih (tended.perform code step (few_of_append few)) few

/-- A listener of a call that succeeded is parked and has heard nothing, or has heard once. -/
theorem parked_or_heard (tended : Tended oid history stay) (quiet : Quiet history) {call : Call κ}
    {tokens : List Token} {request : Request} (posted : .posted call tokens request ∈ history)
    {token : Token} {name : κ} (mem : (token, name) ∈ tokens.zip call.listeners) :
    (token, name) ∈ stay.client.desk.director.pending ∧ outcomes token history = [] ∨
      token ∉ stay.client.desk.director.pending.map (·.1) ∧
        ∃ outcome, outcomes token history = [(name, outcome)] := by
  obtain ⟨gone, accounts⟩ := tended.accounts
  have once := accounts.once
  rw [List.map_append, List.map_append, List.nodup_append, List.nodup_append] at once
  obtain ⟨-, ⟨-, heardOnce, -⟩, apart⟩ := once
  have apart (waits : token ∈ stay.client.desk.director.pending.map (·.1))
      (heard : token ∈ (settled history).map (·.1)) : False :=
    apart token waits token (List.mem_append_right _ heard) rfl
  have made : (token, name) ∈ entrusted history := List.mem_flatMap.2 ⟨_, posted, mem⟩
  obtain waits | told := List.mem_append.1 (tended.known quiet (List.mem_append_left _ made))
  · have key := List.mem_map_of_mem (f := (·.1)) waits
    exact .inl ⟨waits, outcomes_eq_nil (apart key)⟩
  · have key := List.mem_map_of_mem (f := (·.1)) told
    exact .inr ⟨fun waits => apart waits key, exists_outcomes_eq heardOnce told⟩

end Tended

end Book

end Parley.Client
