import Parley.Proofs.Connection.Hosting

/-! What a thread makes of the messages of one read.
It deals with them one by one, and others may post in between. What is in front of the first logoff
is passed on, but for the pings, which are answered; a logoff, a failure or the end of the stream
then closes the connection, and everything else is as if nothing had been read. -/

namespace Parley.Connection

open Wire (frames)
open Outboxes (mail mail_append mail_map mail_map_of_ne)

/-- Two lists are merged into a third, each in its order. -/
inductive Merged {α : Type} : List α → List α → List α → Prop
  | nil : Merged [] [] []
  | left {item : α} {first second whole : List α} (merged : Merged first second whole) :
      Merged (item :: first) second (item :: whole)
  | right {item : α} {first second whole : List α} (merged : Merged first second whole) :
      Merged first (item :: second) (item :: whole)

namespace Merged

variable {α : Type} {first second whole : List α}

theorem alone (items : List α) : Merged [] items items := by
  induction items with
  | nil => exact .nil
  | cons item items ih => exact ih.right

theorem eq_of_alone (merged : Merged [] second whole) : whole = second := by
  induction second generalizing whole with
  | nil =>
    cases merged
    rfl
  | cons item rest ih =>
    cases merged with
    | right merged => rw [ih merged]

theorem prepend (merged : Merged first second whole) (items : List α) :
    Merged (items ++ first) second (items ++ whole) := by
  induction items with
  | nil => exact merged
  | cons item items ih => exact ih.left

theorem filter (merged : Merged first second whole) (p : α → Bool) :
    Merged (first.filter p) (second.filter p) (whole.filter p) := by
  induction merged with
  | nil => exact .nil
  | @left item _ _ _ _ ih =>
    cases kept : p item with
    | true => simpa [kept] using ih.left
    | false => simpa [kept] using ih
  | @right item _ _ _ _ ih =>
    cases kept : p item with
    | true => simpa [kept] using ih.right
    | false => simpa [kept] using ih

theorem map {β : Type} (merged : Merged first second whole) (f : α → β) :
    Merged (first.map f) (second.map f) (whole.map f) := by
  induction merged with
  | nil => exact .nil
  | left _ ih => exact ih.left
  | right _ ih => exact ih.right

end Merged

namespace Desk

def beforeLogoff (messages : List Message) : List Message := messages.takeWhile (· ≠ .logoff)

def pongs (messages : List Message) : List Message :=
  messages.filterMap fun
    | .ping time => some (.pong time)
    | _ => none

theorem pongs_cons (message : Message) (messages : List Message) :
    pongs (message :: messages) = pongs [message] ++ pongs messages :=
  List.filterMap_append (l := [message])

theorem told_cons (id : ConnectionId) (message : Message) (messages : List Message) :
    told id (message :: messages) = told id [message] ++ told id messages :=
  List.filterMap_append (l := [message])

/-- A batch that ends its connection does so behind all of its messages; `late` is posted when
nothing can be posted to the connection any more. -/
def conclude (desk : Desk) (id : ConnectionId) (late : List (ConnectionId × Message)) : Bool → Desk
  | true =>
    { manager := desk.manager.erase id
      outboxes := (desk.outboxes.close id).offerAll late
      notices := desk.notices ++ [.closed id] }
  | false => desk

/-- A batch was dealt with, and this was posted meanwhile. If it has not ended its connection, that
is `next` now. -/
structure Routed (id : ConnectionId) (messages : List Message) (ends : Bool) (next : Connection)
    (posts : List (ConnectionId × Message)) (before after : Desk) : Prop where
  notices : after.notices =
    before.notices ++ told id (beforeLogoff messages) ++ if ends then [.closed id] else []
  connection : after.manager.find? id = if ends then none else some next
  /-- Behind what was to be written already stand the pongs, and what else was posted to the
  connection while it was open. -/
  outbox : ∃ box heard sent, before.outboxes.find? id = some box ∧
    heard <+: posts ∧ (ends = false → heard = posts) ∧
    Merged (pongs (beforeLogoff messages))
      ((mail id heard).filter (·.encode.length ≤ box.limit)) sent ∧
    after.outboxes.find? id =
      some { box with closed := ends, buffer := box.buffer ++ frames sent }
  connections : ∀ other, other ≠ id → after.manager.find? other = before.manager.find? other
  outboxes : ∀ other, other ≠ id → after.outboxes.find? other =
    (before.outboxes.find? other).map (·.takeAll (mail other posts))

theorem length_of_mem_pongs {message : Message} {messages : List Message}
    (mem : message ∈ pongs messages) : message.encode.length = 12 := by
  obtain ⟨m, -, same⟩ := List.mem_filterMap.1 mem
  cases m with
  | ping time =>
    obtain rfl := Option.some.inj same
    rfl
  | _ => cases same

variable {desk : Desk} {id : ConnectionId} {messages : List Message}
  {during late now : List (ConnectionId × Message)} {ends : Bool} {next : Connection} {box : Outbox}

theorem mail_merged (merged : Merged ((pongs messages).map (id, ·)) during now) :
    Merged (pongs messages) (mail id during) (mail id now) ∧
      ∀ other, other ≠ id → mail other now = mail other during := by
  have sorted (other : ConnectionId) : Merged (mail other ((pongs messages).map (id, ·)))
      (mail other during) (mail other now) := (merged.filter _).map _
  refine ⟨?_, fun other apart => ?_⟩
  · have own := sorted id
    rwa [mail_map id _ fun message => message, List.map_id'] at own
  · have rest := sorted other
    rw [mail_map_of_ne (Ne.symm apart) _ fun message => message] at rest
    exact rest.eq_of_alone

theorem routed_conclude
    (merged : Merged ((pongs (beforeLogoff messages)).map (id, ·)) during now)
    (quiet : late = [] ∨ ends = true) (found : desk.manager.find? id = some next)
    (held : desk.outboxes.find? id = some box) (opened : box.closed = false)
    (room : 12 ≤ box.limit) :
    Routed id messages ends next (during ++ late) desk
      (conclude
        { desk with
          outboxes := desk.outboxes.offerAll now
          notices := desk.notices ++ told id (beforeLogoff messages) }
        id late ends) := by
  obtain ⟨own, others⟩ := mail_merged merged
  -- the connection refuses what is too long for it, but no pong is
  have fits : (pongs (beforeLogoff messages)).filter (·.encode.length ≤ box.limit) =
      pongs (beforeLogoff messages) :=
    List.filter_eq_self.2 fun message mem => by simpa [length_of_mem_pongs mem] using room
  have sent := own.filter (·.encode.length ≤ box.limit)
  rw [fits] at sent
  have grown : (desk.outboxes.offerAll now).find? id = some (box.takeAll (mail id now)) := by
    rw [Outboxes.find?_offerAll_mail, held, Option.map_some]
  cases ends with
  | false =>
    obtain rfl : late = [] := quiet.resolve_right Bool.false_ne_true
    refine ⟨(List.append_nil _).symm, found, ⟨box, during, _, held, List.prefix_append _ _, ?_,
      sent, grown.trans ?_⟩, fun other apart => rfl, fun other apart => ?_⟩
    · exact fun _ => (List.append_nil during).symm
    · rw [Outbox.takeAll_of_open opened, opened]
    · rw [List.append_nil, ← others other apart]
      exact desk.outboxes.find?_offerAll_mail now other
  | true =>
    refine ⟨rfl, ?_, ⟨box, during, _, held, List.prefix_append _ _, nofun, sent, ?_⟩,
      fun other apart => ?_, fun other apart => ?_⟩
    · exact (desk.manager.find?_erase id id).trans (if_pos rfl)
    · rw [conclude, Outboxes.find?_offerAll_mail, Outboxes.find?_close, grown, Option.map_some,
        Option.map_some, if_pos rfl, Outbox.takeAll_of_closed rfl, Outbox.takeAll_of_open opened]
      rfl
    · exact (desk.manager.find?_erase id other).trans (if_neg apart)
    · rw [conclude, Outboxes.find?_offerAll_mail, Outboxes.find?_close,
        Outboxes.find?_offerAll_mail, Option.map_map, Option.map_map]
      refine Option.map_congr fun b _ => ?_
      dsimp only [Function.comp]
      rw [if_neg apart, others other apart, Outbox.takeAll_append, mail_append]

theorem Routed.behind_read {posts : List (ConnectionId × Message)} {after : Desk}
    (own : next.id = id) (routed : Routed id messages ends next posts
      { desk with manager := desk.manager.replace next } after) :
    Routed id messages ends next posts desk after := by
  refine ⟨routed.notices, routed.connection, routed.outbox, fun other apart => ?_,
    routed.outboxes⟩
  have elsewhere : (fun c => if other = next.id then next else c) = fun c => c := by
    funext c
    rw [if_neg (own ▸ apart)]
  rw [routed.connections other apart, Manager.find?_replace, elsewhere, Option.map_id']

end Desk

namespace Thread

def posted (actions : List Action) : List (ConnectionId × Message) :=
  actions.filterMap fun
    | .post id message => some (id, message)
    | .work _ => none

def steps (actions : List Action) : Nat :=
  actions.countP fun
    | .work _ => true
    | .post _ _ => false

/-- The thread is done with what it is in the middle of when the actions are over, and no sooner. -/
def Completes (thread : Thread) : List Action → Prop
  | [] => thread.task = .idle
  | action :: rest => thread.task ≠ .idle ∧ (thread.perform action).Completes rest

instance decidableCompletes (thread : Thread) :
    (actions : List Action) → Decidable (thread.Completes actions)
  | [] => inferInstanceAs (Decidable (thread.task = .idle))
  | action :: rest =>
    have := decidableCompletes (thread.perform action) rest
    inferInstanceAs (Decidable (thread.task ≠ .idle ∧ (thread.perform action).Completes rest))

variable {thread : Thread} {id : ConnectionId} {actions : List Action}

theorem Completes.eq_nil (completes : thread.Completes actions) (idle : thread.task = .idle) :
    actions = [] := by
  cases actions with
  | nil => rfl
  | cons action rest => exact (completes.1 idle).elim

theorem run_of_shutting (task : thread.task = .shutting id) (completes : thread.Completes actions) :
    thread.run actions = { thread with
      desk := {
        manager := thread.desk.manager.erase id
        outboxes := thread.desk.outboxes.offerAll (posted actions)
        notices := thread.desk.notices ++ [.closed id] }
      task := .idle } := by
  induction actions generalizing thread with
  | nil => cases task.symm.trans completes
  | cons action rest ih =>
    cases action with
    | work outside =>
      have released : thread.perform (.work outside) =
          { thread with desk := thread.desk.release id, task := .idle } := by
        rw [perform, work, task]
      have rests := completes.2
      rw [released] at rests
      obtain rfl := rests.eq_nil rfl
      exact released
    | post other message => exact ih task completes.2

theorem run_of_closing (task : thread.task = .closing id)
    (found : (thread.desk.manager.find? id).isSome) (completes : thread.Completes actions) :
    ∃ early late, posted actions = early ++ late ∧ thread.run actions = { thread with
      desk := Desk.conclude
        { thread.desk with outboxes := thread.desk.outboxes.offerAll early } id late true
      task := .idle } := by
  induction actions generalizing thread with
  | nil => cases task.symm.trans completes
  | cons action rest ih =>
    cases action with
    | work outside =>
      obtain ⟨connection, found⟩ := Option.isSome_iff_exists.1 found
      have shut : thread.perform (.work outside) =
          { thread with desk := thread.desk.shut id, task := .shutting id } := by
        rw [perform, work, task]
        dsimp only
        rw [found]
      have later := completes.2
      rw [shut] at later
      refine ⟨[], posted rest, rfl, ?_⟩
      have ran : thread.run (.work outside :: rest) =
        (thread.perform (.work outside)).run rest := rfl
      rw [ran, shut, run_of_shutting rfl later]
      rfl
    | post other message =>
      have task : (thread.perform (.post other message)).task = .closing id := task
      obtain ⟨early, late, split, ran⟩ := ih task found completes.2
      exact ⟨(other, message) :: early, late, congrArg (_ :: ·) split, ran⟩

variable {message : Message} {messages : List Message} {ended : Bool}

theorem work_of_nil (task : thread.task = .dealing id [] ended) (outside : Outside) :
    thread.work outside = { thread with task := if ended then .closing id else .idle } := by
  rw [work, task]

theorem work_of_logoff (task : thread.task = .dealing id (.logoff :: messages) ended)
    (outside : Outside) : thread.work outside = { thread with task := .closing id } := by
  rw [work, task]
  rfl

theorem work_of_message (task : thread.task = .dealing id (message :: messages) ended)
    (other : message ≠ .logoff) (outside : Outside) :
    thread.work outside = { thread with
      desk := { thread.desk with
        outboxes := thread.desk.outboxes.offerAll ((Desk.pongs [message]).map (id, ·))
        notices := thread.desk.notices ++ Desk.told id [message] }
      task := .dealing id messages ended } := by
  rw [work, task]
  cases message with
  | ping time =>
    have none : Desk.told id [.ping time] = [] := rfl
    rw [none, List.append_nil]
    rfl
  | logoff => exact (other rfl).elim
  | _ => rfl

/-- Whatever is posted meanwhile: what is in front of the first logoff is answered and passed on,
and then the batch is concluded. -/
theorem run_of_dealing (task : thread.task = .dealing id messages ended)
    (found : (thread.desk.manager.find? id).isSome) (completes : thread.Completes actions) :
    ∃ during late now, posted actions = during ++ late ∧
      Merged ((Desk.pongs (Desk.beforeLogoff messages)).map (id, ·)) during now ∧
      (late = [] ∨ .logoff ∈ messages ∨ ended) ∧
      thread.run actions = { thread with
        desk := Desk.conclude
          { thread.desk with
            outboxes := thread.desk.outboxes.offerAll now
            notices := thread.desk.notices ++ Desk.told id (Desk.beforeLogoff messages) }
          id late (.logoff ∈ messages || ended)
        task := .idle } := by
  -- by the actions, not by the messages: posts come between any two steps of the thread
  induction actions generalizing thread messages with
  | nil => cases task.symm.trans completes
  | cons action rest ih =>
    cases action with
    | post other message =>
      have task : (thread.perform (.post other message)).task = .dealing id messages ended := task
      obtain ⟨during, late, now, split, merged, ends, ran⟩ := ih task found completes.2
      exact ⟨(other, message) :: during, late, (other, message) :: now, congrArg (_ :: ·) split,
        merged.right, ends, ran⟩
    | work outside =>
      have later : (thread.work outside).Completes rest := completes.2
      have ran : thread.run (.work outside :: rest) = (thread.work outside).run rest := rfl
      have closing : ({ thread with task := .closing id } : Thread).task = .closing id := rfl
      rw [ran]
      cases messages with
      | nil =>
        rw [work_of_nil task] at later ⊢
        have none : thread.desk.notices ++ Desk.told id (Desk.beforeLogoff []) =
            thread.desk.notices := List.append_nil _
        rw [none]
        cases ended with
        | false =>
          obtain rfl := later.eq_nil rfl
          exact ⟨[], [], [], rfl, .nil, .inl rfl, rfl⟩
        | true =>
          obtain ⟨early, late, split, ran⟩ := run_of_closing closing found later
          exact ⟨early, late, early, split, .alone early, .inr (.inr rfl), ran⟩
      | cons message messages =>
        by_cases other : message = .logoff
        · subst other
          rw [work_of_logoff task] at later ⊢
          obtain ⟨early, late, split, ran⟩ := run_of_closing closing found later
          refine ⟨early, late, early, split, .alone early, .inr (.inl List.mem_cons_self),
            ran.trans ?_⟩
          have none : Desk.beforeLogoff (.logoff :: messages) = [] := rfl
          simp [none, Desk.told]
        · have goes := work_of_message task other outside
          have task : (thread.work outside).task = .dealing id messages ended := by rw [goes]
          have found : ((thread.work outside).desk.manager.find? id).isSome := by rwa [goes]
          obtain ⟨during, late, now, split, merged, ends, ran⟩ := ih task found later
          have front : Desk.beforeLogoff (message :: messages) =
              message :: Desk.beforeLogoff messages := by simp [Desk.beforeLogoff, other]
          refine ⟨during, late, (Desk.pongs [message]).map (id, ·) ++ now, split, ?_, ?_,
            ran.trans ?_⟩
          · rw [front, Desk.pongs_cons, List.map_append]
            exact merged.prepend _
          · simpa [Ne.symm other] using ends
          · rw [goes, front, Desk.told_cons id message (Desk.beforeLogoff messages),
              Outboxes.offerAll_append, ← List.append_assoc]
            simp [Ne.symm other]

/-! Whether the batch comes to an end. -/

/-- So many steps of the thread at least bring the task to its end. -/
def Within (steps : Nat) : Task → Prop
  | .idle => True
  | .admitting => False
  | .dealing _ messages _ => messages.length + 3 ≤ steps
  | .closing _ => 2 ≤ steps
  | .shutting _ => 1 ≤ steps

theorem pos_of_within {steps : Nat} (within : Within steps thread.task)
    (busy : thread.task ≠ .idle) : 0 < steps := by
  cases task : thread.task with
  | idle => exact (busy task).elim
  | admitting =>
    rw [task] at within
    exact within.elim
  | _ =>
    rw [task] at within
    exact Nat.lt_of_lt_of_le (Nat.succ_pos _) within

theorem within_work {steps : Nat} (within : Within (steps + 1) thread.task) (outside : Outside)
    (busy : thread.task ≠ .idle) : Within steps (thread.work outside).task := by
  cases task : thread.task with
  | idle => exact (busy task).elim
  | admitting =>
    rw [task] at within
    exact within.elim
  | dealing id messages ended =>
    rw [task] at within
    cases messages with
    | nil =>
      have enough : 3 ≤ steps + 1 := within
      rw [work_of_nil task]
      cases ended
      · trivial
      · exact Nat.le_of_succ_le_succ enough
    | cons message messages =>
      have enough : messages.length + 1 + 3 ≤ steps + 1 := within
      by_cases last : message = .logoff
      · subst last
        have two : 2 ≤ steps := by omega
        rwa [work_of_logoff task]
      · have more : messages.length + 3 ≤ steps := by omega
        rwa [work_of_message task last]
  | closing id =>
    rw [task] at within
    have enough : 2 ≤ steps + 1 := within
    rw [work, task]
    dsimp only
    split
    · trivial
    · exact Nat.le_of_succ_le_succ enough
  | shutting id =>
    rw [work, task]
    trivial

theorem exists_completes {enough : Nat} (within : Within enough thread.task)
    (le : enough ≤ steps actions) : ∃ early, early <+: actions ∧ thread.Completes early := by
  induction actions generalizing thread enough with
  | nil =>
    refine ⟨[], List.prefix_refl _, Decidable.byContradiction fun busy => ?_⟩
    exact Nat.not_le.2 (pos_of_within within busy) le
  | cons action rest ih =>
    by_cases idle : thread.task = .idle
    · exact ⟨[], List.nil_prefix, idle⟩
    · obtain ⟨less, within, le⟩ : ∃ less, Within less (thread.perform action).task ∧
          less ≤ steps rest := by
        cases action with
        | post other message => exact ⟨enough, within, le⟩
        | work outside =>
          obtain ⟨less, rfl⟩ := Nat.exists_eq_add_one.2 (pos_of_within within idle)
          rw [steps, List.countP_cons_of_pos rfl] at le
          exact ⟨less, within_work within outside idle, Nat.le_of_succ_le_succ le⟩
      obtain ⟨early, part, completes⟩ := ih within le
      exact ⟨action :: early, (List.prefix_cons_inj action).2 part, idle, completes⟩

/-! Nothing that stands behind a logoff counts. -/

/-- Two threads are the same, but that one of them has nothing behind a logoff that both have before
them. -/
def Alike (thread other : Thread) : Prop :=
  thread = other ∨ ∃ id front tail ended,
    thread.task = .dealing id (front ++ .logoff :: tail) ended ∧
      other = { thread with task := .dealing id (front ++ [.logoff]) false }

theorem Alike.work {other : Thread} (alike : thread.Alike other) (outside : Outside) :
    (thread.work outside).Alike (other.work outside) := by
  obtain rfl | ⟨id, front, tail, ended, task, rfl⟩ := alike
  · exact .inl rfl
  · have task' : ({ thread with task := .dealing id (front ++ [.logoff]) false } : Thread).task =
        .dealing id (front ++ [.logoff]) false := rfl
    cases front with
    | nil => exact .inl (by rw [work_of_logoff task, work_of_logoff task'])
    | cons message front =>
      by_cases last : message = .logoff
      · subst last
        exact .inl (by rw [work_of_logoff task, work_of_logoff task'])
      · refine .inr ⟨id, front, tail, ended, ?_, ?_⟩
        · rw [work_of_message task last]
          rfl
        · rw [work_of_message task last, work_of_message task' last]
          rfl

theorem Alike.perform {other : Thread} (alike : thread.Alike other) (action : Action) :
    (thread.perform action).Alike (other.perform action) := by
  cases action with
  | work outside => exact alike.work outside
  | post other message =>
    obtain rfl | ⟨id, front, tail, ended, task, rfl⟩ := alike
    · exact .inl rfl
    · exact .inr ⟨id, front, tail, ended, task, rfl⟩

theorem Alike.run_eq {other : Thread} (alike : thread.Alike other)
    (completes : thread.Completes actions) : thread.run actions = other.run actions := by
  induction actions generalizing thread other with
  | nil =>
    obtain rfl | ⟨id, front, tail, ended, task, -⟩ := alike
    · rfl
    · cases task.symm.trans completes
  | cons action rest ih => exact ih (alike.perform action) completes.2

theorem work_of_read {jobs : List Job} {connection read : Connection} {outcome : ReadOutcome}
    {outside : Outside} (idle : thread.task = .idle) (next : thread.jobs = .read id :: jobs)
    (found : thread.desk.manager.find? id = some connection)
    (reading : connection.readMessages outside.incoming = (outcome, read)) :
    thread.work outside = { thread with
      desk := { thread.desk with manager := thread.desk.manager.replace read }
      task := .dealing id outcome.messages (outcome.error.isSome || outcome.ended)
      jobs } := by
  rw [work, idle]
  dsimp only
  rw [proceed, next]
  dsimp only
  rw [begin, Thread.read]
  dsimp only
  rw [found]
  dsimp only
  rw [reading]

/-- Of what was read of a connection the messages in front of the first logoff are passed on, but
for the pings, which are answered; what stands behind it might as well not be there. -/
theorem routed_of_read {limit : Nat} (room : 12 ≤ limit) {past : List Action} {jobs : List Job}
    {connection : Connection} (idle : ((Thread.new limit).run past).task = .idle)
    (next : ((Thread.new limit).run past).jobs = .read id :: jobs)
    (found : ((Thread.new limit).run past).desk.manager.find? id = some connection)
    (outside : Outside) :
    let before := (Thread.new limit).run past
    let (outcome, read) := connection.readMessages outside.incoming
    let batch := before.work outside
    (∀ actions, outcome.messages.length + 3 ≤ steps actions →
      ∃ early, early <+: actions ∧ batch.Completes early) ∧
    (∀ actions, batch.Completes actions →
      Desk.Routed id outcome.messages
        (.logoff ∈ outcome.messages || (outcome.error.isSome || outcome.ended)) read
        (posted actions) before.desk (batch.run actions).desk) ∧
    ∀ front tail, outcome.messages = front ++ .logoff :: tail →
      ∀ actions, batch.Completes actions → batch.run actions =
        ({ batch with task := .dealing id (front ++ [.logoff]) false } : Thread).run actions := by
  have hosted : ((Thread.new limit).run past).Hosted limit :=
    (Hosted.new limit).run (.new limit) past
  generalize (Thread.new limit).run past = before at *
  rcases reading : connection.readMessages outside.incoming with ⟨outcome, read⟩
  have own : read.id = id :=
    (congrArg (·.2.id) reading.symm).trans (Manager.id_of_find? found)
  have dealing := work_of_read idle next found reading
  have task : (before.work outside).task =
      .dealing id outcome.messages (outcome.error.isSome || outcome.ended) := by rw [dealing]
  dsimp only
  refine ⟨fun actions enough => ?_, fun actions completes => ?_, fun front tail split actions => ?_⟩
  · refine exists_completes ?_ enough
    rw [task]
    exact Nat.le_refl _
  · have here : (before.work outside).desk.manager.find? id = some read := by
      rw [dealing]
      dsimp only
      rw [Manager.find?_replace, found, Option.map_some, if_pos own.symm]
    obtain ⟨box, held, same, opened⟩ := hosted.boxes id (Manager.mem_ids.2 ⟨connection, found⟩)
    obtain ⟨during, late, now, posts, merged, quiet, ran⟩ :=
      run_of_dealing task (Option.isSome_iff_exists.2 ⟨read, here⟩) completes
    have ends : late = [] ∨ (decide (.logoff ∈ outcome.messages) ||
        (outcome.error.isSome || outcome.ended)) = true :=
      quiet.imp_right fun ends => by simpa using ends
    rw [dealing] at here
    rw [posts, ran, dealing]
    exact .behind_read own (Desk.routed_conclude merged ends here held
      (opened (by simp [shutting?, idle])) (same ▸ room))
  · rw [split] at task
    exact fun completes => Alike.run_eq (.inr ⟨id, front, tail, _, task, rfl⟩) completes

def arrivals : List Action :=
  [.work { ready := some [⟨listenerToken, true, false, false⟩] }, .work {},
    .work { comer := some ("a", true) }, .work { comer := some ("b", true) }, .work {},
    .work { ready := some [⟨2, true, false, false⟩] }, .work {}]

/-- Both clients are written to in between, and the first of them once more when its connection is
shut. -/
def farewell : List Action :=
  [.work {}, .post 2 (.ping 9), .post 3 (.ping 8), .work {}, .work {}, .work {}, .post 2 (.ping 3),
    .work {}]

/-- A ping, a message, a logoff and another ping are read, with room for no frame that is longer. -/
theorem routed_of_read_farewell :
    let before := (Thread.new 12).run arrivals
    let said := [.ping 1, .pong 7, .logoff, .ping 2]
    let after := (before.work { incoming := [.data (frames said), .wouldBlock] }).run farewell
    after.desk.notices = [.received 2 (.pong 7), .closed 2] ∧
      after.desk.manager.find? 2 = none ∧
      (after.desk.outboxes.find? 2).map (·.buffer) = some (frames [.pong 1, .ping 9]) ∧
      after.desk.manager.find? 3 = before.desk.manager.find? 3 ∧
      (after.desk.outboxes.find? 3).map (·.buffer) = some (frames [.ping 8]) := by
  intro before said after
  have idle : before.task = .idle := by decide +kernel
  have next : before.jobs = [.read 2] := by decide +kernel
  have found : before.desk.manager.find? 2 = some { id := 2, reader := { limit := 12 } } := by
    decide +kernel
  obtain ⟨-, routed, -⟩ := routed_of_read (Nat.le_refl 12) idle next found
    { incoming := [.data (frames said), .wouldBlock] }
  have done := routed farewell (by decide +kernel)
  exact ⟨done.notices.trans (by decide +kernel), done.connection, by decide +kernel,
    done.connections 3 (by decide), by rw [done.outboxes 3 (by decide)]; decide +kernel⟩

end Thread

end Parley.Connection
