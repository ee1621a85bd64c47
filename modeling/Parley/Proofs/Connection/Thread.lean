import Parley.Connection.Thread
import Parley.Proofs.Connection.Desk
import Parley.Proofs.Connection.Register

/-! The connections that a thread serves.
A step of the thread is one deed in the life of one connection, or in none; so whatever the thread
meets with, the lives of its connections are as they should be. -/

namespace Parley.Connection

namespace Task

def ending? : Task → Option ConnectionId
  | .closing id => some id
  | .shutting id => some id
  | _ => none

def Begins (ids : List ConnectionId) : Task → Prop
  | .dealing id _ _ => id ∈ ids
  | .shutting _ => False
  | _ => True

end Task

/-- Nothing has happened in the life of any connection. -/
structure Desk.Still (before after : Desk) : Prop where
  nextId : after.manager.nextId = before.manager.nextId
  ids : after.manager.ids = before.manager.ids
  admitted : after.outboxes.ids = before.outboxes.ids
  notices : after.notices = before.notices
  refuses : ∀ id, before.outboxes.Refuses id → after.outboxes.Refuses id

namespace Desk

theorem Still.refl (desk : Desk) : Still desk desk := ⟨rfl, rfl, rfl, rfl, fun _ h => h⟩

theorem Still.trans {first second third : Desk} (early : Still first second)
    (late : Still second third) : Still first third :=
  ⟨late.nextId.trans early.nextId, late.ids.trans early.ids, late.admitted.trans early.admitted,
    late.notices.trans early.notices, fun id refuses => late.refuses id (early.refuses id refuses)⟩

theorem still_post (desk : Desk) (id : ConnectionId) (message : Message) :
    desk.Still { desk with outboxes := (desk.outboxes.post id message).2 } :=
  ⟨rfl, rfl, desk.outboxes.ids_post id message, rfl, fun _ refuses => refuses.post id message⟩

theorem still_requested (desk : Desk) (requested : List ConnectionId) (woken : Bool) :
    desk.Still { desk with outboxes := { desk.outboxes with requested, woken } } :=
  ⟨rfl, rfl, rfl, rfl, fun id => (desk.outboxes.refuses_requested requested woken id).2⟩

theorem still_replace (desk : Desk) (connection : Connection) :
    desk.Still { desk with manager := desk.manager.replace connection } :=
  ⟨rfl, desk.manager.ids_replace connection, rfl, rfl, fun _ h => h⟩

theorem still_pour (desk : Desk) (id : ConnectionId) (answers : List WriteAnswer) :
    desk.Still (desk.pour id answers).2.2 := by
  unfold pour
  cases found : desk.outboxes.find? id with
  | none => exact .refl desk
  | some box =>
    refine ⟨rfl, rfl, desk.outboxes.ids_replace _, rfl, fun other refuses => ?_⟩
    have own : desk.outboxes.find? box.id = some box := by rwa [Outboxes.id_of_find? found]
    exact refuses.replace own rfl

theorem still_write (desk : Desk) (id : ConnectionId) (answers : List WriteAnswer) :
    desk.Still (desk.write id answers).2.2 := by
  have poured := desk.still_pour id answers
  unfold write
  cases desk.manager.find? id with
  | none => exact .refl desk
  | some connection =>
    dsimp only
    rcases out : desk.pour id answers with ⟨error | done, written, next⟩
    all_goals rw [out] at poured
    · exact poured
    · dsimp only at poured ⊢
      unfold watch
      split
      · exact poured.trans (next.still_replace _)
      · exact poured

section Refusal

variable {desk : Desk} {other : ConnectionId} (refuses : desk.outboxes.Refuses other)

include refuses

theorem refuses_close (id : ConnectionId) : (desk.close id).outboxes.Refuses other := by
  unfold close
  split
  · exact refuses
  · exact refuses.close id

theorem refuses_receive (id : ConnectionId) (messages : List Message) :
    (desk.receive id messages).2.outboxes.Refuses other := by
  induction messages generalizing desk with
  | nil => exact refuses
  | cons message rest ih =>
    cases message with
    | ping time => exact ih (refuses.post id (.pong time))
    | logoff => exact refuses
    | _ => exact ih refuses

/-- However a connection is read, none that takes nothing takes anything again. -/
theorem refuses_read (id : ConnectionId) (answers : List ReadAnswer) :
    (desk.read id answers).outboxes.Refuses other := by
  unfold read
  split
  · exact refuses
  · rename_i connection found
    rcases connection.readMessages answers with ⟨outcome, next⟩
    have noted : { desk with manager := desk.manager.replace next }.outboxes.Refuses other :=
      refuses
    have received := refuses_receive noted id outcome.messages
    dsimp only
    split
    · exact refuses_close received id
    · exact received

theorem refuses_flush (id : ConnectionId) (answers : List WriteAnswer) :
    (desk.flush id answers).2.outboxes.Refuses other := by
  have written := (desk.still_write id answers).refuses other refuses
  unfold flush
  dsimp only
  split
  · exact refuses_close written id
  · exact written

end Refusal

theorem receive_one_cases (desk : Desk) (id : ConnectionId) (message : Message) :
    desk.Still (desk.receive id [message]).2 ∨
      desk.receive id [message] =
        (false, { desk with notices := desk.notices ++ [.received id message] }) := by
  cases message with
  | ping time => exact .inl (desk.still_post id (.pong time))
  | logoff => exact .inl (.refl desk)
  | _ => exact .inr rfl

end Desk

namespace Thread

def shutting? (thread : Thread) : Option ConnectionId :=
  match thread.task with
  | .shutting id => some id
  | _ => none

theorem shutting?_of_begins {thread : Thread} {ids : List ConnectionId}
    (begins : thread.task.Begins ids) : thread.shutting? = none := by
  unfold shutting?
  split
  · rename_i id task
    rw [task] at begins
    exact begins.elim
  · rfl

def register (thread : Thread) : Register where
  nextId := thread.desk.manager.nextId
  ids := thread.desk.manager.ids
  admitted := thread.desk.outboxes.ids
  shutting := thread.shutting?
  notices := thread.desk.notices

/-- Between two states of a thread something has happened in the life of a connection. -/
structure Does (before after : Thread) (deed : Deed) : Prop where
  allowed : before.register.Allows deed
  register : after.register = before.register.apply deed
  refuses : ∀ id, (deed = .accept → id ≠ before.desk.manager.nextId) →
    before.desk.outboxes.Refuses id → after.desk.outboxes.Refuses id
  shut : ∀ id, deed = .shut id → after.desk.outboxes.Refuses id

theorem does_nothing {before after : Thread} (still : before.desk.Still after.desk)
    (shutting : after.shutting? = before.shutting?) : Does before after .nothing := by
  refine ⟨trivial, ?_, fun id _ => still.refuses id, nofun⟩
  rw [register, still.nextId, still.ids, still.admitted, still.notices, shutting]
  rfl

/-- A thread that leaves has nothing on its mind but the connections that are left: each of them has
its turn, or will have it. -/
structure Leaving (thread : Thread) : Prop where
  jobs : ∀ job ∈ thread.jobs, ∃ id, job = .dismiss id
  task : thread.task = .idle ∨ thread.task.ending?.isSome
  ids : ∀ id ∈ thread.desk.manager.ids,
    .dismiss id ∈ thread.jobs ∨ thread.task.ending? = some id

structure Orderly (thread : Thread) : Prop where
  dealing : ∀ id messages ended, thread.task = .dealing id messages ended →
    id ∈ thread.desk.manager.ids
  leaving : thread.stage ≠ .running → thread.Leaving
  gone : thread.stage = .gone → thread.jobs = [] ∧ thread.task = .idle

variable {thread : Thread}

theorem Orderly.of_running (running : thread.stage = .running)
    (dealing : ∀ id messages ended, thread.task = .dealing id messages ended →
      id ∈ thread.desk.manager.ids) : thread.Orderly :=
  ⟨dealing, fun leaving => (leaving running).elim, fun gone => by simp [running] at gone⟩

theorem Orderly.new (limit : Nat) : (Thread.new limit).Orderly := .of_running rfl nofun

theorem Orderly.keep {desk : Desk} (orderly : thread.Orderly)
    (same : desk.manager.ids = thread.desk.manager.ids) : { thread with desk }.Orderly := by
  refine ⟨fun id messages ended task => same ▸ orderly.dealing id messages ended task,
    fun leaving => ?_, orderly.gone⟩
  obtain ⟨jobs, task, ids⟩ := orderly.leaving leaving
  exact ⟨jobs, task, fun id mem => ids id (same ▸ mem)⟩

theorem ids_of_gone (orderly : thread.Orderly) (gone : thread.stage = .gone) :
    thread.desk.manager.ids = [] := by
  obtain ⟨jobs, task⟩ := orderly.gone gone
  refine List.eq_nil_iff_forall_not_mem.2 fun id mem => ?_
  obtain waiting | ending := (orderly.leaving (by simp [gone])).ids id mem
  · rw [jobs] at waiting
    cases waiting
  · rw [task] at ending
    cases ending

theorem begin_spec (thread : Thread) (idle : thread.task = .idle) (outside : Outside) (job : Job) :
    thread.desk.Still (thread.begin outside job).desk ∧
    (thread.begin outside job).task.Begins thread.desk.manager.ids ∧
    (thread.begin outside job).stage = thread.stage := by
  have free : thread.task.Begins thread.desk.manager.ids := by rw [idle]; trivial
  cases job with
  | attend event =>
    unfold begin attend
    dsimp only
    split
    · exact ⟨.refl _, trivial, rfl⟩
    · split
      · exact ⟨thread.desk.still_requested _ _, free, rfl⟩
      · exact ⟨.refl _, free, rfl⟩
  | read id =>
    unfold begin read
    dsimp only
    split
    · exact ⟨.refl _, free, rfl⟩
    · rename_i connection found
      exact ⟨thread.desk.still_replace _, Manager.mem_ids.2 ⟨connection, found⟩, rfl⟩
  | flush id =>
    refine ⟨thread.desk.still_write id outside.outgoing, ?_, rfl⟩
    unfold begin
    dsimp only
    split <;> trivial
  | dismiss id =>
    unfold begin dismiss
    dsimp only
    split
    · exact ⟨.refl _, free, rfl⟩
    · exact ⟨thread.desk.still_pour id outside.outgoing, trivial, rfl⟩

theorem proceed_spec (idle : thread.task = .idle) (outside : Outside) :
    thread.desk.Still (thread.proceed outside).desk ∧
    (thread.proceed outside).task.Begins thread.desk.manager.ids := by
  have free : thread.task.Begins thread.desk.manager.ids := by rw [idle]; trivial
  unfold proceed
  split
  · rename_i job jobs _
    obtain ⟨still, begins, -⟩ := begin_spec { thread with jobs } idle outside job
    exact ⟨still, begins⟩
  · split
    · unfold poll
      split
      · exact ⟨thread.desk.still_requested _ _, free⟩
      · exact ⟨.refl _, free⟩
    · exact ⟨.refl _, free⟩
    · exact ⟨.refl _, free⟩

theorem Leaving.dismiss {jobs : List Job} {id : ConnectionId} (leaving : thread.Leaving)
    (idle : thread.task = .idle) (next : thread.jobs = .dismiss id :: jobs)
    (answers : List WriteAnswer) : ({ thread with jobs }.dismiss id answers).Leaving := by
  have others : ∀ job ∈ jobs, ∃ id, job = .dismiss id := fun job mem =>
    leaving.jobs job (next ▸ List.mem_cons_of_mem _ mem)
  have left (other : ConnectionId) (mem : other ∈ thread.desk.manager.ids) :
      other = id ∨ .dismiss other ∈ jobs := by
    obtain waiting | ending := leaving.ids other mem
    · rw [next] at waiting
      exact (List.mem_cons.1 waiting).imp_left Job.dismiss.inj
    · rw [idle] at ending
      cases ending
  unfold Thread.dismiss
  dsimp only
  cases found : thread.desk.manager.find? id with
  | none =>
    refine ⟨others, .inl idle, fun other mem => .inl ((left other mem).resolve_left fun own => ?_)⟩
    obtain ⟨connection, known⟩ := Manager.mem_ids.1 mem
    rw [own, found] at known
    cases known
  | some connection =>
    refine ⟨others, .inr rfl, fun other mem => ?_⟩
    rw [(thread.desk.still_pour id answers).ids] at mem
    exact (left other mem).symm.imp_right fun own => congrArg some own.symm

theorem Orderly.proceed (orderly : thread.Orderly) (idle : thread.task = .idle)
    (outside : Outside) : (thread.proceed outside).Orderly := by
  have dealing (id : ConnectionId) (messages : List Message) (ended : Bool)
      (task : (thread.proceed outside).task = .dealing id messages ended) :
      id ∈ (thread.proceed outside).desk.manager.ids := by
    obtain ⟨still, begins⟩ := proceed_spec idle outside
    rw [task] at begins
    exact still.ids ▸ begins
  revert dealing
  unfold Thread.proceed
  cases next : thread.jobs with
  | cons job jobs =>
    intro dealing
    obtain ⟨-, -, stage⟩ := begin_spec { thread with jobs } idle outside job
    refine ⟨dealing, fun left => ?_, fun gone => ?_⟩
    · have leaving := orderly.leaving (stage ▸ left)
      obtain ⟨id, rfl⟩ := leaving.jobs job (next ▸ List.mem_cons_self)
      exact leaving.dismiss idle next outside.outgoing
    · have none := (orderly.gone (stage.symm.trans gone)).1
      rw [next] at none
      cases none
  | nil =>
    cases stage : thread.stage with
    | running =>
      dsimp only
      unfold poll
      cases outside.ready with
      | some events => exact fun dealing => .of_running stage dealing
      | none =>
        intro dealing
        refine ⟨dealing, fun _ => ⟨fun job mem => ?_, .inl idle, fun id mem => .inl ?_⟩, nofun⟩
        · obtain ⟨id, -, rfl⟩ := List.mem_map.1 mem
          exact ⟨id, rfl⟩
        · refine List.mem_map_of_mem ?_
          split
          · rename_i order
            exact order.mem_iff.2 mem
          · exact mem
    | leaving =>
      intro dealing
      obtain ⟨jobs, task, ids⟩ := orderly.leaving (by simp [stage])
      rw [next] at jobs ids
      exact ⟨dealing, fun _ => ⟨jobs, task, ids⟩, fun _ => ⟨rfl, idle⟩⟩
    | gone => exact fun _ => orderly

theorem ids_receive_one (desk : Desk) (id : ConnectionId) (message : Message) :
    (desk.receive id [message]).2.manager.ids = desk.manager.ids := by
  obtain still | passed := desk.receive_one_cases id message
  · exact still.ids
  · rw [passed]

theorem Orderly.work (orderly : thread.Orderly) (outside : Outside) :
    (thread.work outside).Orderly := by
  unfold Thread.work
  cases task : thread.task with
  | idle => exact orderly.proceed task outside
  | admitting =>
    have running : thread.stage = .running := Decidable.byContradiction fun leaving => by
      simpa [task, Task.ending?] using (orderly.leaving leaving).task
    dsimp only
    split
    · exact .of_running running nofun
    · exact .of_running running nofun
    · exact .of_running running nofun
  | dealing id messages ended =>
    have running : thread.stage = .running := Decidable.byContradiction fun leaving => by
      simpa [task, Task.ending?] using (orderly.leaving leaving).task
    have mem := orderly.dealing id messages ended task
    cases messages with
    | nil =>
      refine .of_running running fun other messages' ended' dealing => ?_
      dsimp only at dealing
      split at dealing <;> cases dealing
    | cons message rest =>
      refine .of_running running fun other messages' ended' dealing => ?_
      dsimp only at dealing ⊢
      split at dealing
      · cases dealing
      · obtain ⟨rfl, -, -⟩ := Task.dealing.inj dealing
        rwa [ids_receive_one]
  | closing id =>
    have busy : thread.stage ≠ .gone := fun gone => by simpa [task] using orderly.gone gone
    dsimp only
    cases found : thread.desk.manager.find? id with
    | none =>
      refine ⟨nofun, fun leaving => ?_, fun gone => (busy gone).elim⟩
      obtain ⟨jobs, -, ids⟩ := orderly.leaving leaving
      refine ⟨jobs, .inl rfl, fun other mem => (ids other mem).imp_right fun ending => ?_⟩
      rw [task] at ending
      obtain ⟨connection, known⟩ := Manager.mem_ids.1 mem
      rw [← Option.some.inj ending, found] at known
      cases known
    | some connection =>
      refine ⟨nofun, fun leaving => ?_, fun gone => (busy gone).elim⟩
      obtain ⟨jobs, -, ids⟩ := orderly.leaving leaving
      rw [task] at ids
      exact ⟨jobs, .inr rfl, ids⟩
  | shutting id =>
    have busy : thread.stage ≠ .gone := fun gone => by simpa [task] using orderly.gone gone
    refine ⟨nofun, fun leaving => ?_, fun gone => (busy gone).elim⟩
    obtain ⟨jobs, -, ids⟩ := orderly.leaving leaving
    refine ⟨jobs, .inl rfl, fun other mem => ?_⟩
    have mem : other ∈ (thread.desk.manager.erase id).ids := mem
    rw [Manager.ids_erase] at mem
    obtain ⟨known, apart⟩ := List.mem_filter.1 mem
    rw [task] at ids
    refine .inl ((ids other known).resolve_right fun ending => ?_)
    rw [← Option.some.inj ending] at apart
    simp at apart

/-- A step of the thread is a deed in the life of one connection, or in none. -/
theorem exists_does_work (orderly : thread.Orderly) (outside : Outside) :
    ∃ deed, Does thread (thread.work outside) deed := by
  unfold work
  cases task : thread.task with
  | idle =>
    obtain ⟨still, begins⟩ := proceed_spec task outside
    refine ⟨.nothing, does_nothing still ((shutting?_of_begins begins).trans ?_)⟩
    rw [shutting?, task]
  | admitting =>
    have free : thread.shutting? = none := by rw [shutting?, task]
    dsimp only
    split
    · exact ⟨.nothing, does_nothing (.refl _) free.symm⟩
    · rename_i address _
      refine ⟨.accept, free, ?_, fun id fresh refuses => refuses.add (fresh rfl),
        fun _ => Deed.noConfusion⟩
      simp only [register, Register.apply, Desk.accept, Outboxes.ids_add, Manager.ids,
        List.map_append, List.map_cons, List.map_nil, shutting?, task]
    · refine ⟨.turnAway, free, ?_, fun _ _ refuses => refuses, fun _ => Deed.noConfusion⟩
      simp only [register, Register.apply, Desk.turnAway, shutting?, task]
      rfl
  | dealing id messages ended =>
    have free : thread.shutting? = none := by rw [shutting?, task]
    cases messages with
    | nil =>
      refine ⟨.nothing, does_nothing (.refl _) ?_⟩
      rw [free, shutting?]
      cases ended <;> rfl
    | cons message rest =>
      have mem := orderly.dealing id _ ended task
      dsimp only
      obtain still | passed := thread.desk.receive_one_cases id message
      · refine ⟨.nothing, does_nothing still ?_⟩
        rw [free, shutting?]
        cases (thread.desk.receive id [message]).1 <;> rfl
      · rw [passed]
        refine ⟨.hear id message, ⟨free, mem⟩, ?_, fun _ _ refuses => refuses,
          fun _ => Deed.noConfusion⟩
        simp only [register, Register.apply, free]
        rfl
  | closing id =>
    have free : thread.shutting? = none := by rw [shutting?, task]
    dsimp only
    cases found : thread.desk.manager.find? id with
    | none => exact ⟨.nothing, does_nothing (.refl _) free.symm⟩
    | some connection =>
      refine ⟨.shut id, ⟨free, Manager.mem_ids.2 ⟨connection, found⟩⟩, ?_,
        fun _ _ refuses => refuses.close id, fun other same => ?_⟩
      · simp only [register, Register.apply, Desk.shut, Outboxes.ids_close]
        rfl
      · obtain rfl := Deed.shut.inj same
        exact thread.desk.outboxes.refuses_close id
  | shutting id =>
    have shut : thread.shutting? = some id := by rw [shutting?, task]
    refine ⟨.release id, shut, ?_, fun _ _ refuses => refuses, fun _ => Deed.noConfusion⟩
    simp only [register, Register.apply, Desk.release, Manager.ids_erase]
    rfl

/-- The lives of the connections are as they should be, and nothing can be posted to a connection
any more when its end is told. -/
structure Sound (thread : Thread) : Prop where
  orderly : thread.Orderly
  register : thread.register.Sound
  refuses : ∀ id, thread.register.Over id → thread.desk.outboxes.Refuses id

theorem Sound.new (limit : Nat) : (Thread.new limit).Sound := by
  refine ⟨.new limit, .start, fun id past => ?_⟩
  obtain ⟨mem, -⟩ | shut := past
  · cases mem
  · cases shut

theorem Sound.advance {after : Thread} {deed : Deed} (sound : thread.Sound)
    (orderly : after.Orderly) (does : Does thread after deed) : after.Sound := by
  obtain ⟨allowed, register, refuses, shut⟩ := does
  refine ⟨orderly, register ▸ sound.register.apply allowed, fun id past => ?_⟩
  rw [register] at past
  obtain past | shut' := Register.over_of_apply allowed past
  · have mem := sound.register.mem_of_over past
    exact refuses id (fun _ => Nat.ne_of_lt (sound.register.bounds id mem).2) (sound.refuses id past)
  · exact shut id shut'

theorem Sound.perform (sound : thread.Sound) (action : Action) : (thread.perform action).Sound := by
  cases action with
  | work outside =>
    obtain ⟨deed, does⟩ := exists_does_work sound.orderly outside
    exact sound.advance (sound.orderly.work outside) does
  | post id message =>
    exact sound.advance (sound.orderly.keep rfl)
      (does_nothing (thread.desk.still_post id message) rfl)

theorem Sound.run (sound : thread.Sound) (actions : List Action) : (thread.run actions).Sound := by
  induction actions generalizing thread with
  | nil => exact sound
  | cons action rest ih => exact ih (sound.perform action)

theorem notices_of_does {after : Thread} {deed : Deed} (does : Does thread after deed) :
    after.desk.notices = thread.desk.notices ++ deed.notices :=
  (congrArg Register.notices does.register).trans (thread.register.notices_apply deed)

theorem over_of_told {after : Thread} {deed : Deed} (does : Does thread after deed)
    {id : ConnectionId} (mem : .closed id ∈ deed.notices) : thread.register.Over id := by
  cases deed with
  | release other =>
    obtain rfl := Notice.closed.inj (List.mem_singleton.1 mem)
    exact .inr does.allowed
  | hear other message => simp [Deed.notices] at mem
  | _ => cases mem

/-- What is told of a connection is what it has said and then, once at most, that it has ended; by
then nothing can be posted to it. -/
theorem lives_of_run (limit : Nat) (actions : List Action) :
    let thread := (Thread.new limit).run actions
    thread.desk.outboxes.ids.Pairwise (· < ·) ∧
    (∀ notice ∈ thread.desk.notices, notice.connection ∈ thread.desk.outboxes.ids) ∧
    (∀ id, ∃ messages : List Message,
      thread.register.told id = messages.map (.received id) ∨
      thread.register.told id = messages.map (.received id) ++ [.closed id]) ∧
    (∀ outside more, (thread.work outside).desk.notices = thread.desk.notices ++ more →
      ∀ id, .closed id ∈ more → thread.desk.outboxes.Refuses id) ∧
    (thread.stage = .gone → ∀ id ∈ thread.desk.outboxes.ids,
      (thread.register.told id).count (.closed id) = 1) := by
  have sound := (Sound.new limit).run actions
  refine ⟨sound.register.ascending, sound.register.strangers, fun id => ?_,
    fun outside more notices id mem => ?_, fun gone id mem => ?_⟩
  · obtain ⟨messages, told⟩ := sound.register.lives id
    refine ⟨messages, ?_⟩
    split at told
    · exact .inr told
    · exact .inl (by simpa using told)
  · obtain ⟨deed, does⟩ := exists_does_work sound.orderly outside
    obtain rfl := List.append_cancel_left (notices.symm.trans (notices_of_does does))
    exact sound.refuses id (over_of_told does mem)
  · obtain ⟨messages, told⟩ := sound.register.lives id
    have ended : ((Thread.new limit).run actions).register.Ended id := by
      refine ⟨mem, ?_⟩
      change id ∉ ((Thread.new limit).run actions).desk.manager.ids
      rw [ids_of_gone sound.orderly gone]
      exact List.not_mem_nil
    rw [told, if_pos ended, List.count_append, List.count_singleton_self]
    have none : (messages.map (Notice.received id)).count (.closed id) = 0 :=
      List.count_eq_zero.2 (by simp)
    rw [none]

/-- A client comes, says something and goes, and the thread leaves. -/
def visit : List Action :=
  [.work { ready := some [⟨listenerToken, true, false, false⟩] }, .work {},
    .work { comer := some ("", true) }, .work {}, .work { ready := some [⟨2, true, true, false⟩] },
    .work {}, .work { incoming := [.data (Message.pong 7).toFrame, .ended] }, .work {},
    .post 2 (.ping 1), .work {}, .work {}, .work {}, .work {}, .work {}, .work {}]

theorem lives_of_run_visit :
    let thread := (Thread.new 100).run visit
    thread.stage = .gone ∧ thread.desk.notices = [.received 2 (.pong 7), .closed 2] ∧
      (thread.register.told 2).count (.closed 2) = 1 := by
  obtain ⟨-, -, -, -, once⟩ := lives_of_run 100 visit
  exact ⟨by decide, by decide, once (by decide) 2 (by decide)⟩

end Thread

end Parley.Connection
