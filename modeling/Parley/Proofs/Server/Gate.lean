import Parley.Server.Gate
import Parley.Proofs.Connection.Thread

/-! A gate does nothing that the thread does not do.
A round of the gate, and its last one, come about in steps of the thread, with the answers that the
gate's own links give. -/

namespace Parley.Connection

open Readiness (ReadyEvent)

namespace Thread

def Reaches (one other : Thread) : Prop := ∃ actions, one.run actions = other

theorem Reaches.refl (thread : Thread) : thread.Reaches thread := ⟨[], rfl⟩

theorem Reaches.trans {first second third : Thread} (early : first.Reaches second)
    (late : second.Reaches third) : first.Reaches third := by
  obtain ⟨actions, rfl⟩ := early
  obtain ⟨more, rfl⟩ := late
  exact ⟨actions ++ more, List.foldl_append⟩

theorem Reaches.sound {one other : Thread} (reaches : one.Reaches other) (sound : one.Sound) :
    other.Sound := by
  obtain ⟨actions, rfl⟩ := reaches
  exact sound.run actions

theorem reaches_work (thread : Thread) (outside : Outside) :
    thread.Reaches (thread.work outside) := ⟨[.work outside], rfl⟩

def between (desk : Desk) : Thread := { desk }

variable {desk : Desk} {jobs : List Job} {stage : Stage} {id : ConnectionId}

theorem reaches_close :
    (⟨desk, .closing id, jobs, stage⟩ : Thread).Reaches ⟨desk.close id, .idle, jobs, stage⟩ := by
  have first := reaches_work ⟨desk, .closing id, jobs, stage⟩ {}
  unfold work at first
  unfold Desk.close
  dsimp only at first
  cases found : desk.manager.find? id with
  | none => rwa [found] at first
  | some connection =>
    rw [found] at first
    exact first.trans (reaches_work _ {})

theorem receive_cons (desk : Desk) (id : ConnectionId) (message : Message) (rest : List Message) :
    desk.receive id (message :: rest) =
      if (desk.receive id [message]).1 then (true, (desk.receive id [message]).2)
      else (desk.receive id [message]).2.receive id rest := by
  cases message <;> rfl

theorem reaches_deal (messages : List Message) (ended : Bool) :
    (⟨desk, .dealing id messages ended, jobs, stage⟩ : Thread).Reaches
      ⟨if (desk.receive id messages).1 || ended then (desk.receive id messages).2.close id
        else (desk.receive id messages).2, .idle, jobs, stage⟩ := by
  induction messages generalizing desk with
  | nil =>
    have first := reaches_work ⟨desk, .dealing id [] ended, jobs, stage⟩ {}
    cases ended with
    | true => exact first.trans reaches_close
    | false => exact first
  | cons message rest ih =>
    have first := reaches_work ⟨desk, .dealing id (message :: rest) ended, jobs, stage⟩ {}
    unfold work at first
    dsimp only at first
    rw [receive_cons]
    rcases one : desk.receive id [message] with ⟨_ | _, next⟩
    all_goals rw [one] at first
    · exact first.trans ih
    · exact first.trans reaches_close

theorem reaches_read (answers : List ReadAnswer) :
    (⟨desk, .idle, .read id :: jobs, stage⟩ : Thread).Reaches
      ⟨desk.read id answers, .idle, jobs, stage⟩ := by
  have first := reaches_work ⟨desk, .idle, .read id :: jobs, stage⟩ { incoming := answers }
  unfold work proceed begin read at first
  unfold Desk.read
  dsimp only at first
  cases found : desk.manager.find? id with
  | none => rwa [found] at first
  | some connection =>
    rw [found] at first
    dsimp only at first ⊢
    simp only [Bool.or_assoc]
    exact first.trans (reaches_deal _ _)

theorem reaches_flush (answers : List WriteAnswer) :
    (⟨desk, .idle, .flush id :: jobs, stage⟩ : Thread).Reaches
      ⟨(desk.flush id answers).2, .idle, jobs, stage⟩ := by
  have first := reaches_work ⟨desk, .idle, .flush id :: jobs, stage⟩ { outgoing := answers }
  unfold work proceed begin at first
  unfold Desk.flush
  dsimp only at first
  rcases out : desk.write id answers with ⟨_ | _, written, next⟩
  all_goals rw [out] at first
  · exact first
  · exact first.trans reaches_close

theorem reaches_dismiss (answers : List WriteAnswer) :
    (⟨desk, .idle, .dismiss id :: jobs, stage⟩ : Thread).Reaches
      ⟨if (desk.manager.find? id).isSome then (desk.pour id answers).2.2.close id else desk,
        .idle, jobs, stage⟩ := by
  have first := reaches_work ⟨desk, .idle, .dismiss id :: jobs, stage⟩ { outgoing := answers }
  unfold work proceed begin dismiss at first
  dsimp only at first
  cases found : desk.manager.find? id with
  | none => rwa [found] at first
  | some connection =>
    rw [found] at first
    exact first.trans reaches_close

theorem reaches_comers (comers : List String) :
    (⟨desk, .admitting, jobs, stage⟩ : Thread).Reaches
      ⟨comers.foldl Desk.accept desk, .idle, jobs, stage⟩ := by
  induction comers generalizing desk with
  | nil => exact reaches_work ⟨desk, .admitting, jobs, stage⟩ {}
  | cons address rest ih =>
    exact (reaches_work ⟨desk, .admitting, jobs, stage⟩ { comer := some (address, true) }).trans ih

theorem reaches_attend (event : ReadyEvent) (other : event.token ≠ wakerToken) :
    (between desk).Reaches ((between desk).attend event) := by
  have polled := reaches_work (between desk) { ready := some [event] }
  have same : (between desk).work { ready := some [event] } =
      { between desk with jobs := [.attend event] } := by
    simp [work, proceed, poll, between, other]
  rw [same] at polled
  exact polled.trans (reaches_work _ {})

theorem reaches_readable (desk : Desk) (answers : List ReadAnswer) (other : firstConnection ≤ id) :
    (between desk).Reaches (between (desk.read id answers)) := by
  have apart : id ≠ listenerToken ∧ id ≠ wakerToken :=
    ⟨Nat.ne_of_gt (Nat.lt_of_lt_of_le (by decide) other), Nat.ne_of_gt other⟩
  have attended : (between desk).Reaches _ :=
    reaches_attend ⟨id, true, false, false⟩ apart.2
  simp only [attend, if_neg apart.1, if_neg apart.2] at attended
  exact attended.trans (reaches_read answers)

theorem reaches_writable (desk : Desk) (answers : List WriteAnswer) (other : firstConnection ≤ id) :
    (between desk).Reaches (between (desk.flush id answers).2) := by
  have apart : id ≠ listenerToken ∧ id ≠ wakerToken :=
    ⟨Nat.ne_of_gt (Nat.lt_of_lt_of_le (by decide) other), Nat.ne_of_gt other⟩
  have attended : (between desk).Reaches _ :=
    reaches_attend ⟨id, false, true, false⟩ apart.2
  simp only [attend, if_neg apart.1, if_neg apart.2] at attended
  exact attended.trans (reaches_flush answers)

end Thread

end Parley.Connection

namespace Parley.Server.Gate

open Connection
open Readiness (ReadyEvent)

variable {gate : Gate}

theorem desk_onLine (gate : Gate) (id : ConnectionId) (work : Desk → Link → Desk × Link) :
    (gate.onLine id work).desk =
      if (gate.desk.manager.find? id).isSome then (work gate.desk (gate.link id)).1
      else gate.desk := by
  unfold onLine
  cases gate.desk.manager.find? id <;> rfl

theorem desk_read (gate : Gate) (id : ConnectionId) :
    (gate.read id).desk = gate.desk.read id (gate.link id).readByServer.1 := by
  rw [read, desk_onLine]
  unfold Desk.read
  cases gate.desk.manager.find? id <;> rfl

theorem desk_flush (gate : Gate) (id : ConnectionId) : (gate.flush id).desk =
    (gate.desk.flush id ((gate.link id).toClient.writeAnswers gate.room)).2 := by
  rw [flush, desk_onLine]
  unfold Desk.flush Desk.write
  cases gate.desk.manager.find? id <;> rfl

theorem desk_sweep (gate : Gate) (id : ConnectionId) : (gate.sweep id).desk =
    if (gate.desk.manager.find? id).isSome then
      ((gate.desk.pour id ((gate.link id).toClient.writeAnswers gate.room)).2.2).close id
    else gate.desk := desk_onLine gate id _

theorem foldl_acceptLine (lines : List Line) (desk : Desk) (done : List Line) :
    ∃ comers : List String,
      (lines.foldl acceptLine (desk, done)).1 = comers.foldl Desk.accept desk := by
  induction lines generalizing desk done with
  | nil => exact ⟨[], rfl⟩
  | cons line rest ih =>
    rw [List.foldl_cons, acceptLine]
    cases line.connection with
    | some id => exact ih desk _
    | none =>
      obtain ⟨comers, same⟩ := ih (desk.accept line.address) _
      exact ⟨line.address :: comers, same⟩

theorem reaches_acceptAll (gate : Gate) :
    (Thread.between gate.desk).Reaches (Thread.between gate.acceptAll.desk) := by
  obtain ⟨comers, same⟩ := foldl_acceptLine gate.lines gate.desk []
  have same : gate.acceptAll.desk = comers.foldl Desk.accept gate.desk := same
  rw [same]
  exact (Thread.reaches_attend ⟨listenerToken, true, false, false⟩ (by decide)).trans
    (Thread.reaches_comers comers)

theorem reaches_flushes (gate : Gate) (ids : List ConnectionId) :
    (⟨gate.desk, .idle, ids.map .flush, .running⟩ : Thread).Reaches
      (Thread.between (ids.foldl flush gate).desk) := by
  induction ids generalizing gate with
  | nil => exact .refl _
  | cons id rest ih =>
    have later := ih (gate.flush id)
    rw [desk_flush] at later
    exact (Thread.reaches_flush _).trans later

theorem reaches_answerWake (gate : Gate) :
    (Thread.between gate.desk).Reaches (Thread.between gate.answerWake.desk) := by
  unfold answerWake
  split
  · let outboxes : Outboxes := { gate.desk.outboxes with requested := [], woken := false }
    let ready : Outside := { ready := some [⟨wakerToken, true, false, false⟩] }
    have attended : ((Thread.between gate.desk).work ready).work {} =
        ⟨{ gate.desk with outboxes }, .idle, gate.desk.takeRequests.1.map .flush, .running⟩ := by
      simp [Thread.work, Thread.proceed, Thread.poll, Thread.between, Thread.begin, Thread.attend,
        Desk.takeRequests, wakerToken, listenerToken, ready, outboxes]
    have first := (Thread.reaches_work (Thread.between gate.desk) ready).trans
      (Thread.reaches_work _ {})
    rw [attended] at first
    exact first.trans (reaches_flushes { gate with desk := { gate.desk with outboxes } } _)
  · exact .refl _

theorem reaches_reads (gate : Gate) {ids : List ConnectionId}
    (others : ∀ id ∈ ids, firstConnection ≤ id) :
    (Thread.between gate.desk).Reaches (Thread.between (ids.foldl read gate).desk) := by
  induction ids generalizing gate with
  | nil => exact .refl _
  | cons id rest ih =>
    have first := Thread.reaches_readable gate.desk (gate.link id).readByServer.1
      (others id List.mem_cons_self)
    rw [← desk_read] at first
    exact first.trans (ih _ fun other mem => others other (List.mem_cons_of_mem _ mem))

theorem reaches_writes (gate : Gate) {ids : List ConnectionId}
    (others : ∀ id ∈ ids, firstConnection ≤ id) :
    (Thread.between gate.desk).Reaches (Thread.between (ids.foldl flush gate).desk) := by
  induction ids generalizing gate with
  | nil => exact .refl _
  | cons id rest ih =>
    have first := Thread.reaches_writable gate.desk
      ((gate.link id).toClient.writeAnswers gate.room) (others id List.mem_cons_self)
    rw [← desk_flush] at first
    exact first.trans (ih _ fun other mem => others other (List.mem_cons_of_mem _ mem))

theorem first_le_of_mem_ids {desk : Desk} (sound : (Thread.between desk).Sound)
    {id : ConnectionId} (mem : id ∈ desk.manager.ids) : firstConnection ≤ id :=
  (sound.register.bounds id (sound.register.known id mem)).1

/-- A round of the gate is a run of the thread. -/
theorem reaches_tick (sound : (Thread.between gate.desk).Sound) :
    (Thread.between gate.desk).Reaches (Thread.between gate.tick.desk) := by
  have woken := gate.reaches_acceptAll.trans gate.acceptAll.reaches_answerWake
  have sound := woken.sound sound
  have reading := gate.acceptAll.answerWake.reaches_reads fun id mem =>
    first_le_of_mem_ids sound mem
  have sound := reading.sound sound
  refine woken.trans (reading.trans (reaches_writes _ fun id mem => ?_))
  obtain ⟨connection, listed, rfl⟩ := List.mem_map.1 mem
  exact first_le_of_mem_ids sound (List.mem_map_of_mem (List.mem_filter.1 listed).1)

theorem reaches_sweeps (gate : Gate) (ids : List ConnectionId) :
    (⟨gate.desk, .idle, ids.map .dismiss, .leaving⟩ : Thread).Reaches
      ⟨(ids.foldl sweep gate).desk, .idle, [], .leaving⟩ := by
  induction ids generalizing gate with
  | nil => exact .refl _
  | cons id rest ih =>
    have later := ih (gate.sweep id)
    rw [desk_sweep] at later
    exact (Thread.reaches_dismiss _).trans later

/-- The last round of the gate is how the thread leaves. -/
theorem reaches_shutdown (gate : Gate) : (Thread.between gate.desk).Reaches
    { Thread.between gate.shutdown.desk with stage := .gone } := by
  have told : (Thread.between gate.desk).work { order := gate.desk.manager.ids } =
      ⟨gate.desk, .idle, gate.desk.manager.ids.map .dismiss, .leaving⟩ := by
    simp [Thread.work, Thread.proceed, Thread.poll, Thread.between]
  have leaving := Thread.reaches_work (Thread.between gate.desk) { order := gate.desk.manager.ids }
  rw [told] at leaving
  exact leaving.trans ((gate.reaches_sweeps gate.desk.manager.ids).trans
    (Thread.reaches_work _ {}))

end Parley.Server.Gate
