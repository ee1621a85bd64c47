import Parley.Server.Runtime
import Parley.Proofs.Connection.Thread
import Parley.Proofs.Server.Commands

/-! No session outlives its connection.
The queue lies between the connections and their sessions, and may be behind by any number of
commands. Whoever has lost its connection has its end in the queue, behind its logon. -/

namespace Parley.Server

open Connection

/-- Every logon of the connection that is queued has the end of the connection behind it. -/
def Followed (pending : List Command) (id : ConnectionId) : Prop :=
  ∀ version username after, .startSession id version username :: after <:+ pending →
    .endSession id ∈ after

section Queue

variable {pending : List Command} {id : ConnectionId}

theorem Followed.tail {command : Command} (followed : Followed (command :: pending) id) :
    Followed pending id := fun version username after behind =>
  followed version username after (behind.trans (List.suffix_cons command pending))

theorem logon_suffix_concat {version : UInt32} {username : String} {command : Command}
    {after : List Command} (behind : .startSession id version username :: after <:+
      pending ++ [command]) (other : command ≠ .startSession id version username) :
    ∃ rest, after = rest ++ [command] ∧ .startSession id version username :: rest <:+ pending := by
  obtain none | ⟨front, same, sooner⟩ := List.suffix_concat_iff.1 behind
  · cases none
  · cases front with
    | nil => exact (other (List.cons.inj same).1.symm).elim
    | cons first rest =>
      obtain ⟨rfl, rfl⟩ := List.cons.inj same
      exact ⟨rest, rfl, sooner⟩

theorem Followed.append {command : Command} (followed : Followed pending id)
    (other : ∀ version username, command ≠ .startSession id version username) :
    Followed (pending ++ [command]) id := by
  intro version username after behind
  obtain ⟨rest, rfl, sooner⟩ := logon_suffix_concat behind (other version username)
  exact List.mem_append_left _ (followed version username rest sooner)

theorem followed_append_endSession (pending : List Command) (id : ConnectionId) :
    Followed (pending ++ [.endSession id]) id := by
  intro version username after behind
  obtain ⟨rest, rfl, -⟩ := logon_suffix_concat behind nofun
  exact List.mem_append_right _ (List.mem_singleton_self _)

end Queue

namespace Runtime

/-- The queue takes what the thread has to tell, and whoever is connected no longer has its end in
the queue: behind its logon, if that has not run, and as long as its session lasts. -/
structure Sound (runtime : Runtime τ α) : Prop where
  server : ∃ granted, runtime.hall.context.Sound granted
  thread : runtime.thread.Orderly
  told : runtime.thread.desk.notices = []
  accepting : runtime.thread.stage ≠ .gone → runtime.hall.isClosed = false
  sessions : runtime.hall.context.lobby.poisoned = false →
    ∀ session ∈ runtime.hall.context.lobby.sessions.sessions,
      session.connection ∈ runtime.thread.desk.manager.ids ∨
        .endSession session.connection ∈ runtime.hall.pending
  followed : ∀ id ∉ runtime.thread.desk.manager.ids, Followed runtime.hall.pending id

variable {runtime : Runtime τ α}

theorem Sound.new [Inhabited τ] (maxClients maxFrame : Nat) (app : α) :
    (Runtime.new maxClients maxFrame app : Runtime τ α).Sound := by
  refine ⟨⟨_, .start maxClients app⟩, .new maxFrame, rfl, fun _ => rfl, fun _ => nofun, ?_⟩
  intro id _ version username after behind
  simp [Runtime.new, Hall.new] at behind

theorem work_of_gone {thread : Thread} (orderly : thread.Orderly) (gone : thread.stage = .gone)
    (outside : Outside) : thread.work outside = thread := by
  obtain ⟨jobs, task⟩ := orderly.gone gone
  unfold Thread.work Thread.proceed
  rw [task, jobs, gone]

theorem Sound.move {thread : Thread} (sound : runtime.Sound) (orderly : thread.Orderly)
    (told : thread.desk.notices = []) (stage : thread.stage ≠ .gone → runtime.thread.stage ≠ .gone)
    (ids : ∀ id ∈ runtime.thread.desk.manager.ids, id ∈ thread.desk.manager.ids ∨
      .endSession id ∈ runtime.hall.pending ∧ Followed runtime.hall.pending id) :
    ({ runtime with thread } : Runtime τ α).Sound := by
  refine ⟨sound.server, orderly, told, fun left => sound.accepting (stage left),
    fun whole session mem => ?_, fun id gone => ?_⟩
  · obtain known | queued := sound.sessions whole session mem
    · exact (ids _ known).imp_right And.left
    · exact .inr queued
  · by_cases known : id ∈ runtime.thread.desk.manager.ids
    · exact ((ids id known).resolve_left gone).2
    · exact sound.followed id known

theorem Sound.enqueue {command : Command} (sound : runtime.Sound)
    (accepting : runtime.hall.isClosed = false)
    (other : ∀ id ∉ runtime.thread.desk.manager.ids, ∀ version username,
      command ≠ .startSession id version username) :
    ({ runtime with hall := (runtime.hall.enqueue command).2 } : Runtime τ α).Sound := by
  rw [ActionQueue.enqueue_of_open accepting]
  exact ⟨sound.server, sound.thread, sound.told, sound.accepting,
    fun whole session mem =>
      (sound.sessions whole session mem).imp_right (List.mem_append_left _),
    fun id gone => (sound.followed id gone).append (other id gone)⟩

theorem Sound.receive (sound : runtime.Sound) (accepting : runtime.hall.isClosed = false)
    {id : ConnectionId} (known : id ∈ runtime.thread.desk.manager.ids) (message : Message) :
    ({ runtime with hall := runtime.hall.receive id message } : Runtime τ α).Sound := by
  unfold Hall.receive
  split
  · rename_i command asked
    refine sound.enqueue accepting fun other gone version username same => ?_
    subst same
    cases message with
    | logon version username =>
      obtain ⟨rfl, -, -⟩ := Command.startSession.inj (Option.some.inj asked)
      exact gone known
    | _ => cases asked
  · exact sound

theorem Sound.work (sound : runtime.Sound) (outside : Outside) : (runtime.work outside).Sound := by
  have orderly : { runtime.thread.work outside with
      desk := { (runtime.thread.work outside).desk with notices := [] } }.Orderly :=
    (sound.thread.work outside).keep rfl
  unfold Runtime.work
  dsimp only
  by_cases gone : runtime.thread.stage = .gone
  · rw [work_of_gone sound.thread gone] at orderly ⊢
    rw [sound.told]
    exact sound.move orderly rfl (fun left => left) fun _ mem => .inl mem
  have accepting := sound.accepting gone
  obtain ⟨deed, does⟩ := Thread.exists_does_work sound.thread outside
  have told := Thread.notices_of_does does
  rw [sound.told, List.nil_append] at told
  have ids : (runtime.thread.work outside).desk.manager.ids =
    (runtime.thread.register.apply deed).ids := congrArg Register.ids does.register
  have allowed := does.allowed
  rw [told]
  cases deed with
  | nothing | turnAway | shut _ =>
    exact sound.move orderly rfl (fun _ => gone) fun id mem => .inl (ids ▸ mem)
  | accept =>
    exact sound.move orderly rfl (fun _ => gone) fun id mem =>
      .inl (ids ▸ List.mem_append_left _ mem)
  | hear id message =>
    exact (sound.receive accepting allowed.2 message).move orderly rfl (fun _ => gone)
      fun id mem => .inl (ids ▸ mem)
  | release id =>
    -- the end goes into the queue first, so that the session is never without either
    have pending := congrArg (·.2.pending)
      (ActionQueue.enqueue_of_open accepting (Command.endSession id))
    refine (sound.enqueue accepting fun _ _ _ _ => by simp).move orderly rfl (fun _ => gone)
      fun other mem => ?_
    by_cases own : other = id
    · subst own
      refine .inr ?_
      dsimp only at pending ⊢
      rw [pending]
      exact ⟨List.mem_append_right _ (List.mem_singleton_self _),
        followed_append_endSession _ other⟩
    · exact .inl (ids ▸ List.mem_filter.2 ⟨mem, by simpa using own⟩)

theorem serve_of_idle (idle : runtime.hall.pending = []) : runtime.serve = runtime := by
  unfold serve ActionQueue.step?
  dsimp only
  rw [idle]

theorem serve_of_pending {command : Command} {rest : List Command}
    (next : runtime.hall.pending = command :: rest) :
    runtime.serve =
      { hall := { runtime.hall with
          context := (runtime.server.perform command).2
          pending := rest
          executed := runtime.hall.executed + 1 }
        thread := { runtime.thread with
          desk := { runtime.thread.desk with
            outboxes := (runtime.server.perform command).2.lobby.outboxes } } } := by
  have stepped : ({ runtime.hall with context := runtime.server } : Hall τ α).step? behave = _ :=
    step?_behave next
  dsimp only at stepped
  unfold serve
  dsimp only
  rw [stepped]

theorem Sound.serve (sound : runtime.Sound) : runtime.serve.Sound := by
  cases next : runtime.hall.pending with
  | nil => rwa [serve_of_idle next]
  | cons command rest =>
    rw [serve_of_pending next]
    obtain ⟨granted, context⟩ := sound.server
    have server : runtime.server.Sound granted := context.modifyLobby rfl rfl
    have followed (id : ConnectionId) (gone : id ∉ runtime.thread.desk.manager.ids) :
      Followed (command :: rest) id := next ▸ sound.followed id gone
    refine ⟨⟨_, (server.perform command).sound⟩, sound.thread.keep rfl, sound.told,
      sound.accepting, fun whole session mem => ?_, fun id gone => (followed id gone).tail⟩
    obtain ⟨other, old, known, place⟩ | ⟨version, username, rfl⟩ :=
      server.mem_sessions_perform whole mem
    · have found : runtime.hall.context.lobby.poisoned = false := by
        by_contra lost
        have lost : runtime.server.lobby.poisoned = true := Bool.not_eq_false _ ▸ lost
        exact Bool.false_ne_true (whole.symm.trans (poisoned_perform lost command))
      refine (sound.sessions found old known).imp (fun mem => place ▸ mem) fun queued => ?_
      rw [next, place] at queued
      exact (List.mem_cons.1 queued).resolve_left fun same => other same.symm
    · by_cases known : session.connection ∈ runtime.thread.desk.manager.ids
      · exact .inl known
      · exact .inr (followed _ known version username rest (List.suffix_refl _))

theorem Sound.perform (sound : runtime.Sound) (action : Action) :
    (runtime.perform action).Sound := by
  cases action with
  | work outside => exact sound.work outside
  | serve => exact sound.serve
  | wait milliseconds =>
    obtain ⟨granted, server⟩ := sound.server
    have later := server.modifyLobby (f := fun lobby =>
      { lobby with clock := lobby.clock + milliseconds }) rfl rfl
    exact ⟨⟨granted, later⟩, sound.thread, sound.told, sound.accepting,
      sound.sessions, sound.followed⟩
  | shutdown =>
    unfold Runtime.perform
    dsimp only
    split
    · rename_i gone
      exact ⟨sound.server, sound.thread, sound.told, fun left => (left gone).elim, sound.sessions,
        sound.followed⟩
    · exact sound

theorem Sound.run (sound : runtime.Sound) (actions : List Action) :
    (runtime.run actions).Sound := by
  induction actions generalizing runtime with
  | nil => exact sound
  | cons action rest ih => exact ih (sound.perform action)

/-- Whoever has a session is connected, or has its end in the queue, however the thread and the
consumer take turns. -/
theorem sessions_of_run [Inhabited τ] (maxClients maxFrame : Nat) (app : α)
    (actions : List Action) :
    let runtime := (Runtime.new maxClients maxFrame app : Runtime τ α).run actions
    let lobby := runtime.hall.context.lobby
    let ids := runtime.thread.desk.manager.ids
    (lobby.table? = none → lobby.sessions.exhausted = true) ∧
    (∀ table, lobby.table? = some table → ∀ session ∈ table.sessions,
      session.connection ∈ ids ∨ .endSession session.connection ∈ runtime.hall.pending) ∧
    (∀ id ∉ ids, ∀ version username after,
      .startSession id version username :: after <:+ runtime.hall.pending →
        .endSession id ∈ after) ∧
    (runtime.thread.stage = .gone → runtime.hall.isClosed = true → runtime.hall.pending = [] →
      ∀ table, lobby.table? = some table → table.sessions = []) := by
  have sound := (Sound.new maxClients maxFrame app : (Runtime.new maxClients maxFrame app :
    Runtime τ α).Sound).run actions
  revert sound
  generalize (Runtime.new maxClients maxFrame app : Runtime τ α).run actions = runtime
  intro sound
  obtain ⟨granted, server⟩ := sound.server
  refine ⟨fun none => server.lost (table?_eq_none none), fun table known session mem => ?_,
    sound.followed, fun gone _ drained table known => ?_⟩
  · obtain ⟨whole, rfl⟩ := table?_eq_some known
    exact sound.sessions whole session mem
  · obtain ⟨whole, rfl⟩ := table?_eq_some known
    refine List.eq_nil_iff_forall_not_mem.2 fun session mem => ?_
    obtain left | queued := sound.sessions whole session mem
    · rw [Thread.ids_of_gone sound.thread gone] at left
      cases left
    · rw [drained] at queued
      cases queued

/-- A client logs on and hangs up, and the thread has told so before the server knows it. -/
def departure : List Action :=
  [.work { ready := some [⟨listenerToken, true, false, false⟩] }, .work {},
    .work { comer := some ("", true) }, .work {}, .work { ready := some [⟨2, true, false, false⟩] },
    .work {}, .work { incoming := [.data (Message.logon protocolVersion "a").toFrame, .ended] },
    .work {}, .serve, .work {}, .work {}, .work {}, .work {}, .work {}, .shutdown]

/-- Its session is still there when its connection is gone, and gone when the queue is empty. -/
theorem sessions_of_run_departure :
    let early := (Runtime.new 4 100 () : Runtime Unit Unit).run departure
    let late := (Runtime.new 4 100 () : Runtime Unit Unit).run (departure ++ [.serve])
    early.thread.desk.manager.ids = [] ∧ early.hall.pending = [.endSession 2] ∧
    early.hall.context.lobby.sessions.sessions =
      [{ oid := 1000, username := "a", connection := 2 }] ∧
    ∀ table, late.hall.context.lobby.table? = some table → table.sessions = [] := by
  obtain ⟨-, -, -, empty⟩ := @sessions_of_run Unit Unit _ 4 100 () (departure ++ [.serve])
  exact ⟨by decide, by decide, by decide, empty (by decide) (by decide) (by decide)⟩

end Runtime

end Parley.Server
