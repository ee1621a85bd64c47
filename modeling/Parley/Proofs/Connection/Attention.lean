import Parley.Proofs.Connection.Thread

/-! Output that is on its way.
Bytes that a connection has not written yet are never forgotten: a flush was asked for, or the
thread is about to flush, or the multiplexer watches for room to write. And the thread is woken for
the flushes that were asked for. -/

namespace Parley.Connection

namespace Desk

/-- Every open connection has an outbox, and knows whether it is watched for room to write. If it
has anything to write, a flush was asked for, or it is watched, or it is excused. -/
structure Attended (excused : ConnectionId → Prop) (desk : Desk) : Prop where
  boxes : ∀ id connection, desk.manager.find? id = some connection →
    ∃ box, desk.outboxes.find? id = some box
  watched : ∀ id connection, desk.manager.find? id = some connection →
    connection.awaitingWritable = connection.writableInterest
  stirred : ∀ id connection box, desk.manager.find? id = some connection →
    desk.outboxes.find? id = some box → box.buffer ≠ [] →
      id ∈ desk.outboxes.requested ∨ connection.awaitingWritable = true ∨ excused id

variable {desk : Desk} {excused pardoned : ConnectionId → Prop} {id : ConnectionId}

theorem Attended.start (excused : ConnectionId → Prop) (limit : Nat) :
    Attended excused { manager := { limit }, outboxes := {} } := ⟨nofun, nofun, nofun⟩

/-- Only open connections need an excuse. -/
theorem Attended.mono (attended : desk.Attended excused)
    (more : ∀ id connection, desk.manager.find? id = some connection → excused id → pardoned id) :
    desk.Attended pardoned :=
  ⟨attended.boxes, attended.watched, fun id connection box known held some =>
    (attended.stirred id connection box known held some).imp_right fun reason =>
      reason.imp_right (more id connection known)⟩

theorem Attended.post (attended : desk.Attended excused) (id : ConnectionId) (message : Message) :
    Attended excused { desk with outboxes := (desk.outboxes.post id message).2 } := by
  obtain ⟨error, refused⟩ | ⟨box, found, -, accepted⟩ := desk.outboxes.post_cases id message
  · rw [refused]
    exact attended
  · rw [accepted]
    have own := Outboxes.id_of_find? found
    refine ⟨fun other connection known => ?_, attended.watched,
      fun other connection b known held some => ?_⟩
    · obtain ⟨old, held⟩ := attended.boxes other connection known
      exact ⟨_, by rw [Outboxes.find?_requested, Outboxes.find?_replace, held]; rfl⟩
    · by_cases here : other = id
      · exact .inl (List.mem_append_right _ (List.mem_singleton.2 here))
      · dsimp only at held
        rw [Outboxes.find?_requested, Outboxes.find?_replace] at held
        obtain ⟨old, before, rfl⟩ := Option.map_eq_some_iff.1 held
        simp only [own, here, if_false] at some
        exact (attended.stirred other connection old known before some).imp_left
          (List.mem_append_left _)

theorem Attended.takeRequests (attended : desk.Attended excused) :
    desk.takeRequests.2.Attended fun id => id ∈ desk.takeRequests.1 ∨ excused id := by
  refine ⟨attended.boxes, attended.watched, fun id connection box known held some => .inr ?_⟩
  obtain asked | watched | other := attended.stirred id connection box known held some
  · exact .inr (.inl (List.mem_mergeSort.2 (List.mem_eraseDups.2 asked)))
  · exact .inl watched
  · exact .inr (.inr other)

theorem Attended.replace {old next : Connection} (attended : desk.Attended excused)
    (found : desk.manager.find? id = some old) (same : next.id = id)
    (watched : next.awaitingWritable = next.writableInterest)
    (stirred : old.awaitingWritable = true → next.awaitingWritable = true ∨
      ∀ box, desk.outboxes.find? id = some box → box.buffer = []) :
    Attended excused { desk with manager := desk.manager.replace next } := by
  refine ⟨fun other connection known => ?_, fun other connection known => ?_,
    fun other connection box known held some => ?_⟩
  all_goals
    dsimp only at known
    rw [Manager.find?_replace, same] at known
    obtain ⟨former, before, rfl⟩ := Option.map_eq_some_iff.1 known
  · exact attended.boxes other former before
  · by_cases here : other = id
    · rwa [if_pos here]
    · rw [if_neg here]
      exact attended.watched other former before
  · obtain asked | waiting | reason := attended.stirred other former box before held some
    · exact .inl asked
    · by_cases here : other = id
      · subst here
        obtain rfl := Option.some.inj (found.symm.trans before)
        rw [if_pos rfl]
        exact .inr (.inl ((stirred waiting).resolve_right fun none => some (none box held)))
      · rw [if_neg here]
        exact .inr (.inl waiting)
    · exact .inr (.inr reason)

theorem Attended.pour (attended : desk.Attended fun other => other = id ∨ excused other)
    (answers : List WriteAnswer) :
    (desk.pour id answers).2.2.Attended fun other => other = id ∨ excused other := by
  have poured := desk.flushed_pour id answers
  have same := desk.manager_pour id answers
  refine ⟨fun other connection known => ?_, fun other connection known => ?_,
    fun other connection box known held some => ?_⟩
  all_goals rw [same] at known
  · obtain ⟨box, held⟩ := attended.boxes other connection known
    obtain ⟨box', held', -⟩ := poured.present other box held
    exact ⟨box', held'⟩
  · exact attended.watched other connection known
  · by_cases here : other = id
    · exact .inr (.inr (.inl here))
    · obtain ⟨old, before⟩ := attended.boxes other connection known
      obtain ⟨box', held', -, whole⟩ := poured.present other old before
      obtain rfl := Option.some.inj (held'.symm.trans held)
      rw [if_neg here, List.nil_append] at whole
      rw [whole] at some
      rw [(desk.signals_pour id answers).1]
      exact attended.stirred other connection old known before some

/-- A connection that has nothing to write, or is watched, needs no excuse. -/
theorem Attended.settle (attended : desk.Attended fun other => other = id ∨ excused other)
    (settled : ∀ connection box, desk.manager.find? id = some connection →
      desk.outboxes.find? id = some box →
        box.buffer = [] ∨ connection.awaitingWritable = true) : desk.Attended excused := by
  refine ⟨attended.boxes, attended.watched, fun other connection box known held some => ?_⟩
  obtain asked | waiting | rfl | reason := attended.stirred other connection box known held some
  · exact .inl asked
  · exact .inr (.inl waiting)
  · exact .inr (.inl ((settled connection box known held).resolve_left some))
  · exact .inr (.inr reason)

theorem Attended.watch {connection : Connection} {done : Bool}
    (attended : desk.Attended fun other => other = id ∨ excused other)
    (found : desk.manager.find? id = some connection)
    (empty : done = true → ∀ box, desk.outboxes.find? id = some box → box.buffer = []) :
    (desk.watch connection done).Attended excused := by
  have own := Manager.id_of_find? found
  unfold Desk.watch
  split
  · rename_i same
    have replaced : Attended _ { desk with
        manager := desk.manager.replace
          ({ connection with awaitingWritable := !done, writableInterest := !done }) } :=
      attended.replace found own rfl fun waiting => .inr (empty (same.trans waiting))
    refine replaced.settle fun last box known held => ?_
    dsimp only at known
    rw [Manager.find?_replace, found, Option.map_some, if_pos own.symm] at known
    obtain rfl := Option.some.inj known
    cases done with
    | false => exact .inr rfl
    | true => exact .inl (empty rfl box held)
  · rename_i apart
    refine attended.settle fun last box known held => ?_
    obtain rfl := Option.some.inj (found.symm.trans known)
    cases done with
    | false => exact .inr (by simpa using apart)
    | true => exact .inl (empty rfl box held)

theorem Attended.write (attended : desk.Attended fun other => other = id ∨ excused other)
    (answers : List WriteAnswer) :
    (desk.write id answers).2.2.Attended fun other =>
      (desk.write id answers).1 = true ∧ other = id ∨ excused other := by
  have poured := attended.pour answers
  have same := desk.manager_pour id answers
  unfold Desk.write
  cases found : desk.manager.find? id with
  | none =>
    refine attended.mono fun other connection known reason => .inr (reason.resolve_left ?_)
    rintro rfl
    cases found.symm.trans known
  | some connection =>
    dsimp only
    rcases out : desk.pour id answers with ⟨error | done, written, next⟩
    all_goals rw [out] at poured same
    · exact poured.mono fun other _ _ reason => reason.imp_left fun own => ⟨rfl, own⟩
    · dsimp only at same poured ⊢
      have found' : next.manager.find? id = some connection := by rwa [same]
      have empty (finished : done = true) (box : Outbox)
          (held : next.outboxes.find? id = some box) : box.buffer = [] := by
        have held : (desk.pour id answers).2.2.outboxes.find? id = some box := by rwa [out]
        exact empty_of_pour held (by rw [out, finished])
      exact (poured.watch found' empty).mono fun other _ _ reason => .inr reason

theorem Attended.shut (attended : desk.Attended excused) (id : ConnectionId) :
    (desk.shut id).Attended excused := by
  refine ⟨fun other connection known => ?_, attended.watched,
    fun other connection box known held some => ?_⟩
  · obtain ⟨box, held⟩ := attended.boxes other connection known
    exact ⟨_, by rw [Desk.shut, Outboxes.find?_close, held]; rfl⟩
  · rw [Desk.shut, Outboxes.find?_close] at held
    obtain ⟨old, before, rfl⟩ := Option.map_eq_some_iff.1 held
    have kept : old.buffer ≠ [] := by
      split at some
      · exact some
      · exact some
    exact attended.stirred other connection old known before kept

theorem Attended.release (attended : desk.Attended fun other => other = id ∨ excused other) :
    (desk.release id).Attended excused := by
  have open' {other : ConnectionId} {connection : Connection}
      (known : (desk.release id).manager.find? other = some connection) :
      other ≠ id ∧ desk.manager.find? other = some connection := by
    rw [Desk.release, Manager.find?_erase] at known
    split at known
    · cases known
    · exact ⟨‹_›, known⟩
  refine ⟨fun other connection known => attended.boxes other connection (open' known).2,
    fun other connection known => attended.watched other connection (open' known).2,
    fun other connection box known held some => ?_⟩
  obtain ⟨apart, known⟩ := open' known
  obtain asked | waiting | reason := attended.stirred other connection box known held some
  · exact .inl asked
  · exact .inr (.inl waiting)
  · exact .inr (.inr (reason.resolve_left apart))

theorem Attended.accept (attended : desk.Attended excused)
    (fresh : desk.outboxes.find? desk.manager.nextId = none) (address : String) :
    (desk.accept address).Attended excused := by
  have open' {other : ConnectionId} {connection : Connection}
      (known : (desk.accept address).manager.find? other = some connection) :
      desk.manager.find? other = some connection ∨ other = desk.manager.nextId ∧
        connection = { id := other, reader := { limit := desk.manager.limit } } := by
    rw [connection_accept, Option.or_eq_some_iff] at known
    obtain known | ⟨-, known⟩ := known
    · exact .inl known
    · split at known
      · rename_i own
        exact .inr ⟨own.symm, own ▸ (Option.some.inj known).symm⟩
      · cases known
  -- its outbox is empty, and the other connections have theirs
  have held' {other : ConnectionId} {box : Outbox}
      (held : (desk.accept address).outboxes.find? other = some box) :
      desk.outboxes.find? other = some box ∨ box.buffer = [] := by
    rw [outbox_accept, Option.or_eq_some_iff] at held
    obtain held | ⟨-, held⟩ := held
    · exact .inl held
    · split at held
      · exact .inr (by rw [← Option.some.inj held])
      · cases held
  refine ⟨fun other connection known => ?_, fun other connection known => ?_,
    fun other connection box known held some => ?_⟩
  · rw [outbox_accept]
    obtain known | ⟨rfl, -⟩ := open' known
    · obtain ⟨box, held⟩ := attended.boxes other connection known
      exact ⟨box, by rw [held, Option.some_or]⟩
    · exact ⟨_, by rw [fresh, if_pos rfl, Option.none_or]⟩
  · obtain known | ⟨-, rfl⟩ := open' known
    · exact attended.watched other connection known
    · rfl
  · have held := (held' held).resolve_right some
    obtain known | ⟨rfl, -⟩ := open' known
    · exact attended.stirred other connection box known held some
    · cases fresh.symm.trans held

end Desk

namespace Thread

/-- The thread is about to flush the connection, or to end it. -/
def Excuses (thread : Thread) (id : ConnectionId) : Prop :=
  .flush id ∈ thread.jobs ∨ thread.task.ending? = some id

/-- If flushes were asked for, the multiplexer has a wake-up to report, or has reported one that is
still to be dealt with. -/
def Alert (outboxes : Outboxes) (jobs : List Job) : Prop :=
  outboxes.requested ≠ [] → outboxes.woken = true ∨
    ∃ event, .attend event ∈ jobs ∧ event.token = wakerToken

structure Awake (thread : Thread) : Prop where
  attended : thread.desk.Attended thread.Excuses
  alert : Alert thread.desk.outboxes thread.jobs

theorem alert_post {outboxes : Outboxes} {jobs : List Job} (alert : Alert outboxes jobs)
    (id : ConnectionId) (message : Message) : Alert (outboxes.post id message).2 jobs := by
  obtain ⟨error, refused⟩ | ⟨box, -, -, accepted⟩ := outboxes.post_cases id message
  · rwa [refused]
  · rw [accepted]
    exact fun _ => .inl rfl

theorem Awake.new (limit : Nat) : (Thread.new limit).Awake :=
  ⟨.start _ limit, fun none => (none rfl).elim⟩

variable {thread : Thread}

theorem Awake.poll (awake : thread.Awake) (idle : thread.task = .idle) (none : thread.jobs = [])
    (outside : Outside) : (thread.poll outside).Awake := by
  have excuseless (id : ConnectionId) : ¬ thread.Excuses id := by
    rintro (mem | ending)
    · rw [none] at mem
      cases mem
    · rw [idle] at ending
      cases ending
  have attended {after : Thread} : thread.desk.Attended after.Excuses :=
    awake.attended.mono fun id _ _ reason => (excuseless id reason).elim
  unfold Thread.poll
  cases outside.ready with
  | none =>
    refine ⟨attended, fun some => (awake.alert some).imp_right fun told => ?_⟩
    rw [none] at told
    obtain ⟨event, mem, -⟩ := told
    cases mem
  | some events =>
    have base : thread.desk.Attended
        { thread with jobs := events.map .attend }.Excuses := attended
    refine ⟨⟨base.boxes, base.watched, base.stirred⟩, fun some => ?_⟩
    by_cases told : ∃ event ∈ events, event.token = wakerToken
    · obtain ⟨event, mem, waker⟩ := told
      exact .inr ⟨event, List.mem_map_of_mem mem, waker⟩
    · have woken : thread.desk.outboxes.woken = true := by
        refine (awake.alert some).resolve_right fun told => ?_
        rw [none] at told
        obtain ⟨event, mem, -⟩ := told
        cases mem
      refine .inl ?_
      dsimp only
      rw [woken, Bool.true_and, List.all_eq_true]
      exact fun event mem => decide_eq_true fun waker => told ⟨event, mem, waker⟩

theorem Awake.begin (awake : thread.Awake) (idle : thread.task = .idle) {job : Job}
    {jobs : List Job} (next : thread.jobs = job :: jobs) (outside : Outside) :
    ({ thread with jobs }.begin outside job).Awake := by
  have excuse (id : ConnectionId) (reason : thread.Excuses id) :
      job = .flush id ∨ .flush id ∈ jobs := by
    obtain mem | ending := reason
    · rw [next] at mem
      exact (List.mem_cons.1 mem).imp_left Eq.symm
    · rw [idle] at ending
      cases ending
  have alert (other : ∀ event, job = .attend event → event.token ≠ wakerToken) :
      Alert thread.desk.outboxes jobs := by
    refine fun some => (awake.alert some).imp_right fun ⟨event, mem, waker⟩ => ⟨event, ?_, waker⟩
    rw [next] at mem
    exact (List.mem_cons.1 mem).resolve_left fun same => other event same.symm waker
  have attended {after : Thread} (more : ∀ id, .flush id ∈ jobs → after.Excuses id)
      (other : ∀ id, job ≠ .flush id) : thread.desk.Attended after.Excuses :=
    awake.attended.mono fun id _ _ reason => more id ((excuse id reason).resolve_left (other id))
  cases job with
  | attend event =>
    unfold Thread.begin Thread.attend
    dsimp only
    split
    · rename_i listener
      refine ⟨attended (fun _ mem => .inl mem) nofun, alert fun _ same waker => ?_⟩
      obtain rfl := Job.attend.inj same
      cases listener.symm.trans waker
    · split
      · have taken := awake.attended.takeRequests
        refine ⟨taken.mono fun id _ _ reason => ?_, fun none => (none rfl).elim⟩
        obtain asked | reason := reason
        · exact .inl (List.mem_append_left _ (List.mem_map_of_mem asked))
        · exact .inl (List.mem_append_right _ ((excuse id reason).resolve_left nofun))
      · rename_i apart
        refine ⟨attended (fun _ mem => .inl (List.mem_append_right _ mem)) nofun, fun some => ?_⟩
        obtain woken | ⟨other, mem, waker⟩ := alert (fun _ same waker => by
          obtain rfl := Job.attend.inj same
          exact apart waker) some
        · exact .inl woken
        · exact .inr ⟨other, List.mem_append_right _ mem, waker⟩
  | read id =>
    have base {task : Task} : thread.desk.Attended { thread with jobs, task }.Excuses :=
      attended (fun _ mem => .inl mem) nofun
    unfold Thread.begin Thread.read
    dsimp only
    cases found : thread.desk.manager.find? id with
    | none => exact ⟨attended (fun _ mem => .inl mem) nofun, alert nofun⟩
    | some connection =>
      have own : connection.id = id := Manager.id_of_find? found
      have watched := awake.attended.watched id connection found
      exact ⟨base.replace found own watched .inl, alert nofun⟩
  | flush id =>
    have base : thread.desk.Attended fun other => other = id ∨ .flush other ∈ jobs :=
      awake.attended.mono fun other _ _ reason =>
        (excuse other reason).imp_left fun same => (Job.flush.inj same).symm
    have written := base.write outside.outgoing
    obtain ⟨requested, woken⟩ := thread.desk.signals_write id outside.outgoing
    unfold Thread.begin
    dsimp only
    rcases out : thread.desk.write id outside.outgoing with ⟨failed, bytes, desk⟩
    rw [out] at written requested woken
    dsimp only at written requested woken ⊢
    refine ⟨written.mono fun other _ _ reason => ?_, ?_⟩
    · obtain ⟨rfl, rfl⟩ | mem := reason
      · exact .inr rfl
      · exact .inl mem
    · dsimp only [Alert]
      rw [requested, woken]
      exact alert nofun
  | dismiss id =>
    unfold Thread.begin Thread.dismiss
    dsimp only
    cases found : thread.desk.manager.find? id with
    | none => exact ⟨attended (fun _ mem => .inl mem) nofun, alert nofun⟩
    | some connection =>
      have base : thread.desk.Attended fun other => other = id ∨ .flush other ∈ jobs :=
        awake.attended.mono fun other _ _ reason =>
          .inr ((excuse other reason).resolve_left nofun)
      obtain ⟨requested, woken⟩ := thread.desk.signals_pour id outside.outgoing
      refine ⟨(base.pour outside.outgoing).mono fun other _ _ reason => ?_, ?_⟩
      · obtain rfl | mem := reason
        · exact .inr rfl
        · exact .inl mem
      · dsimp only [Alert]
        rw [requested, woken]
        exact alert nofun

theorem Awake.proceed (awake : thread.Awake) (idle : thread.task = .idle) (outside : Outside) :
    (thread.proceed outside).Awake := by
  unfold Thread.proceed
  cases next : thread.jobs with
  | cons job jobs => exact awake.begin idle next outside
  | nil =>
    cases thread.stage with
    | running => exact awake.poll idle next outside
    | leaving =>
      obtain ⟨attended, alert⟩ := awake
      rw [next] at alert
      refine ⟨attended.mono fun id _ _ reason => ?_, alert⟩
      rwa [Excuses, next] at reason
    | gone => exact awake

/-- When a connection is let in, there is nothing yet that could be posted to it. -/
theorem Sound.fresh (sound : thread.Sound) :
    thread.desk.outboxes.find? thread.desk.manager.nextId = none := by
  cases held : thread.desk.outboxes.find? thread.desk.manager.nextId with
  | none => rfl
  | some box =>
    have mem : thread.desk.manager.nextId ∈ thread.desk.outboxes.ids :=
      List.mem_map.2 ⟨box, List.mem_of_find?_eq_some held, Outboxes.id_of_find? held⟩
    exact (Nat.lt_irrefl _ (sound.register.bounds _ mem).2).elim

theorem Awake.keep (awake : thread.Awake) (free : thread.task.ending? = none) (task : Task) :
    thread.desk.Attended { thread with task }.Excuses :=
  awake.attended.mono fun id _ _ reason => .inl (reason.resolve_right fun ending => by
    rw [free] at ending
    cases ending)

theorem Awake.work (awake : thread.Awake) (sound : thread.Sound) (outside : Outside) :
    (thread.work outside).Awake := by
  unfold Thread.work
  cases task : thread.task with
  | idle => exact awake.proceed task outside
  | admitting =>
    have free : thread.task.ending? = none := by rw [task]; rfl
    dsimp only
    split
    · exact ⟨awake.keep free _, awake.alert⟩
    · exact ⟨(awake.keep free _).accept sound.fresh _, awake.alert⟩
    · have base := awake.keep free .admitting
      exact ⟨⟨base.boxes, base.watched, base.stirred⟩, awake.alert⟩
  | dealing id messages ended =>
    have free : thread.task.ending? = none := by rw [task]; rfl
    cases messages with
    | nil => exact ⟨awake.keep free _, awake.alert⟩
    | cons message rest =>
      cases message with
      | ping time => exact ⟨(awake.keep free _).post id (.pong time), alert_post awake.alert id _⟩
      | logoff => exact ⟨awake.keep free _, awake.alert⟩
      | _ =>
        have base := awake.keep free (.dealing id rest ended)
        exact ⟨⟨base.boxes, base.watched, base.stirred⟩, awake.alert⟩
  | closing id =>
    have excuse (other : ConnectionId) (reason : thread.Excuses other) :
        other = id ∨ .flush other ∈ thread.jobs := by
      rw [Excuses, task] at reason
      exact reason.symm.imp_left fun same => (Option.some.inj same).symm
    dsimp only
    cases found : thread.desk.manager.find? id with
    | none =>
      refine ⟨awake.attended.mono fun other connection known reason => ?_, awake.alert⟩
      refine .inl ((excuse other reason).resolve_left ?_)
      rintro rfl
      cases found.symm.trans known
    | some connection =>
      refine ⟨(awake.attended.shut id).mono fun other _ _ reason => ?_, awake.alert⟩
      obtain rfl | mem := excuse other reason
      · exact .inr rfl
      · exact .inl mem
  | shutting id =>
    have base : thread.desk.Attended fun other => other = id ∨ .flush other ∈ thread.jobs :=
      awake.attended.mono fun other _ _ reason => by
        rw [Excuses, task] at reason
        exact reason.symm.imp_left fun same => (Option.some.inj same).symm
    exact ⟨base.release.mono fun _ _ _ mem => .inl mem, awake.alert⟩

theorem Awake.perform (awake : thread.Awake) (sound : thread.Sound) (action : Action) :
    (thread.perform action).Awake := by
  cases action with
  | work outside => exact awake.work sound outside
  | post id message =>
    exact ⟨awake.attended.post id message, alert_post awake.alert id message⟩

theorem Awake.run (awake : thread.Awake) (sound : thread.Sound) (actions : List Action) :
    (thread.run actions).Awake := by
  induction actions generalizing thread with
  | nil => exact awake
  | cons action rest ih => exact ih (awake.perform sound action) (sound.perform action)

/-- Between two rounds of the thread, every open connection that has something to write has asked
for a flush or waits for room to write. -/
theorem unstuck_of_run (limit : Nat) (actions : List Action) :
    let thread := (Thread.new limit).run actions
    let outboxes := thread.desk.outboxes
    (∀ id connection, thread.desk.manager.find? id = some connection →
      connection.awaitingWritable = connection.writableInterest) ∧
    (thread.task = .idle → thread.jobs = [] →
      (∀ id connection, thread.desk.manager.find? id = some connection →
        ∃ box, outboxes.find? id = some box ∧
          (box.buffer ≠ [] → id ∈ outboxes.requested ∨ connection.awaitingWritable = true)) ∧
      (outboxes.requested ≠ [] → outboxes.woken = true)) := by
  intro thread outboxes
  have awake : thread.Awake := (Awake.new limit).run (.new limit) actions
  refine ⟨awake.attended.watched, fun idle none => ⟨fun id connection known => ?_, fun some => ?_⟩⟩
  · obtain ⟨box, held⟩ := awake.attended.boxes id connection known
    refine ⟨box, held, fun some => ?_⟩
    obtain asked | waiting | mem | ending :=
      awake.attended.stirred id connection box known held some
    · exact .inl asked
    · exact .inr waiting
    · rw [none] at mem
      cases mem
    · rw [idle] at ending
      cases ending
  · obtain woken | ⟨event, mem, -⟩ := awake.alert some
    · exact woken
    · rw [none] at mem
      cases mem

/-- A message is posted before a round, one after the wake-up was reported, and one after the
requests were taken; then the socket takes a part of the first. -/
def hesitation : List Action :=
  [.work { ready := some [⟨listenerToken, true, false, false⟩] }, .work {},
    .work { comer := some ("", true) }, .work {}, .post 2 .logoff,
    .work { ready := some [⟨wakerToken, true, false, false⟩] }, .post 2 (.ping 1), .work {},
    .post 2 .logoff, .work { outgoing := [.accepted 3, .wouldBlock] }]

theorem unstuck_of_run_hesitation :
    let thread := (Thread.new 100).run hesitation
    ∃ connection box, thread.desk.manager.find? 2 = some connection ∧
      thread.desk.outboxes.find? 2 = some box ∧ box.buffer.length = 29 ∧
      (2 ∈ thread.desk.outboxes.requested ∨ connection.awaitingWritable = true) ∧
      thread.desk.outboxes.woken = true := by
  intro thread
  have known : thread.desk.manager.find? 2 = some ⟨2, { limit := 100 }, true, true⟩ := by
    decide +kernel
  obtain ⟨-, resting⟩ := unstuck_of_run 100 hesitation
  obtain ⟨stirred, woken⟩ := resting (by decide +kernel) (by decide +kernel)
  obtain ⟨box, held, reason⟩ := stirred 2 _ known
  have length : (thread.desk.outboxes.find? 2).map (·.buffer.length) = some 29 := by decide +kernel
  have left : box.buffer.length = 29 := by
    rw [show thread.desk.outboxes.find? 2 = some box from held] at length
    exact Option.some.inj length
  have some : box.buffer ≠ [] := by
    rintro none
    rw [none] at left
    cases left
  exact ⟨_, box, known, held, left, reason some, woken (by decide +kernel)⟩

end Thread

end Parley.Connection
