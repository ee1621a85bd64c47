import Parley.Proofs.Connection.Attention
import Parley.Proofs.Connection.Mail

/-! Connections that can be posted to.
As long as a thread has a connection it has an open outbox for it, and all outboxes have the limit
of the thread; only between its two steps of closing a connection has it one that is closed
already. -/

namespace Parley.Connection

namespace Desk

/-- The outboxes are still there, with their limits, and none was closed. -/
structure SameBoxes (before after : Desk) : Prop where
  limit : after.manager.limit = before.manager.limit
  boxes : ∀ id box, before.outboxes.find? id = some box → ∃ box',
    after.outboxes.find? id = some box' ∧ box'.limit = box.limit ∧ box'.closed = box.closed

variable {desk : Desk}

theorem SameBoxes.of_outboxes {after : Desk} (limit : after.manager.limit = desk.manager.limit)
    (same : after.outboxes = desk.outboxes) : desk.SameBoxes after :=
  ⟨limit, fun id box held => ⟨box, by rwa [same], rfl, rfl⟩⟩

theorem SameBoxes.trans {first second third : Desk} (early : SameBoxes first second)
    (late : SameBoxes second third) : SameBoxes first third := by
  refine ⟨late.limit.trans early.limit, fun id box held => ?_⟩
  obtain ⟨box', held', limit', closed'⟩ := early.boxes id box held
  obtain ⟨box'', held'', limit'', closed''⟩ := late.boxes id box' held'
  exact ⟨box'', held'', limit''.trans limit', closed''.trans closed'⟩

theorem sameBoxes_post (desk : Desk) (id : ConnectionId) (message : Message) :
    desk.SameBoxes { desk with outboxes := (desk.outboxes.post id message).2 } := by
  refine ⟨rfl, fun other box held => ?_⟩
  refine ⟨_, by rw [Outboxes.find?_post, held]; rfl, ?_⟩
  split
  · exact ⟨box.limit_takeAll _, box.closed_takeAll _⟩
  · exact ⟨rfl, rfl⟩

theorem sameBoxes_pour (desk : Desk) (id : ConnectionId) (answers : List WriteAnswer) :
    desk.SameBoxes (desk.pour id answers).2.2 := by
  unfold pour
  cases found : desk.outboxes.find? id with
  | none => exact .of_outboxes rfl rfl
  | some box =>
    refine ⟨rfl, fun other b held => ⟨_, by rw [Outboxes.find?_replace, held]; rfl, ?_⟩⟩
    have own : box.id = id := Outboxes.id_of_find? found
    split
    · rename_i here
      obtain rfl : other = id := here.trans own
      obtain rfl := Option.some.inj (held.symm.trans found)
      exact ⟨rfl, rfl⟩
    · exact ⟨rfl, rfl⟩

theorem limit_watch (desk : Desk) (connection : Connection) (done : Bool) :
    (desk.watch connection done).manager.limit = desk.manager.limit := by
  unfold watch
  split <;> rfl

theorem sameBoxes_write (desk : Desk) (id : ConnectionId) (answers : List WriteAnswer) :
    desk.SameBoxes (desk.write id answers).2.2 := by
  have poured := desk.sameBoxes_pour id answers
  unfold write
  split
  · exact .of_outboxes rfl rfl
  · rename_i connection found
    rcases out : desk.pour id answers with ⟨error | done, written, next⟩
    all_goals rw [out] at poured
    · exact poured
    · exact poured.trans
        (.of_outboxes (next.limit_watch connection done) (next.watch_spec connection done).1)

end Desk

namespace Thread

variable {thread : Thread}

theorem sameBoxes_begin (thread : Thread) (outside : Outside) (job : Job) :
    thread.desk.SameBoxes (thread.begin outside job).desk := by
  cases job with
  | attend event =>
    unfold begin attend
    dsimp only
    split
    · exact .of_outboxes rfl rfl
    · split
      · exact ⟨rfl, fun id box held => ⟨box, held, rfl, rfl⟩⟩
      · exact .of_outboxes rfl rfl
  | read id =>
    unfold begin read
    dsimp only
    split <;> exact .of_outboxes rfl rfl
  | flush id => exact thread.desk.sameBoxes_write id outside.outgoing
  | dismiss id =>
    unfold begin dismiss
    dsimp only
    split
    · exact .of_outboxes rfl rfl
    · exact thread.desk.sameBoxes_pour id outside.outgoing

theorem sameBoxes_proceed (thread : Thread) (outside : Outside) :
    thread.desk.SameBoxes (thread.proceed outside).desk := by
  unfold proceed
  split
  · rename_i job jobs _
    exact sameBoxes_begin { thread with jobs } outside job
  · split
    · unfold poll
      split
      · exact ⟨rfl, fun id box held => ⟨box, held, rfl, rfl⟩⟩
      · exact .of_outboxes rfl rfl
    · exact .of_outboxes rfl rfl
    · exact .of_outboxes rfl rfl

/-- The thread has an outbox with its limit for each of its connections, and all of these take what
is posted to them, but for one that is being shut. -/
structure Hosted (limit : Nat) (thread : Thread) : Prop where
  shared : thread.desk.manager.limit = limit
  boxes : ∀ id ∈ thread.desk.manager.ids, ∃ box, thread.desk.outboxes.find? id = some box ∧
    box.limit = limit ∧ (thread.shutting? ≠ some id → box.closed = false)

variable {limit : Nat}

theorem Hosted.new (limit : Nat) : (Thread.new limit).Hosted limit := ⟨rfl, nofun⟩

theorem Hosted.keep {after : Thread} (hosted : thread.Hosted limit)
    (same : thread.desk.SameBoxes after.desk)
    (ids : ∀ id ∈ after.desk.manager.ids, id ∈ thread.desk.manager.ids ∧
      (after.shutting? ≠ some id → thread.shutting? ≠ some id)) : after.Hosted limit := by
  refine ⟨same.limit.trans hosted.shared, fun id mem => ?_⟩
  obtain ⟨known, stays⟩ := ids id mem
  obtain ⟨box, held, same', opened⟩ := hosted.boxes id known
  obtain ⟨box', held', limit', closed'⟩ := same.boxes id box held
  exact ⟨box', held', limit'.trans same', fun free => closed'.trans (opened (stays free))⟩

theorem Hosted.stay {after : Thread} (hosted : thread.Hosted limit)
    (same : thread.desk.SameBoxes after.desk) (free : thread.shutting? = none)
    (ids : after.desk.manager.ids = thread.desk.manager.ids) : after.Hosted limit :=
  hosted.keep same fun id mem => ⟨ids ▸ mem, fun _ => by simp [free]⟩

theorem Hosted.accept (hosted : thread.Hosted limit) (free : thread.shutting? = none)
    (fresh : thread.desk.outboxes.find? thread.desk.manager.nextId = none) (address : String) :
    { thread with desk := thread.desk.accept address }.Hosted limit := by
  refine ⟨hosted.shared, fun id mem => ?_⟩
  have mem : id ∈ thread.desk.manager.ids ++ [thread.desk.manager.nextId] := by
    simpa [Desk.accept, Manager.ids] using mem
  rw [Desk.outbox_accept]
  obtain known | new := List.mem_append.1 mem
  · obtain ⟨box, held, same, opened⟩ := hosted.boxes id known
    exact ⟨box, by rw [held, Option.some_or], same, fun _ => opened (by simp [free])⟩
  · obtain rfl := List.mem_singleton.1 new
    exact ⟨_, by rw [fresh, if_pos rfl, Option.none_or], hosted.shared, fun _ => rfl⟩

theorem Hosted.shut (hosted : thread.Hosted limit) (free : thread.shutting? = none)
    (id : ConnectionId) :
    { thread with desk := thread.desk.shut id, task := .shutting id }.Hosted limit := by
  refine ⟨hosted.shared, fun other mem => ?_⟩
  obtain ⟨box, held, same, opened⟩ := hosted.boxes other mem
  refine ⟨_, by rw [Desk.shut, Outboxes.find?_close, held]; rfl, ?_⟩
  split
  · rename_i here
    exact ⟨same, fun apart => (apart (congrArg some here.symm)).elim⟩
  · exact ⟨same, fun _ => opened (by simp [free])⟩

theorem Hosted.work (hosted : thread.Hosted limit) (sound : thread.Sound) (outside : Outside) :
    (thread.work outside).Hosted limit := by
  unfold Thread.work
  cases task : thread.task with
  | idle =>
    have free : thread.shutting? = none := by rw [shutting?, task]
    exact hosted.stay (thread.sameBoxes_proceed outside) free (proceed_spec task outside).1.ids
  | admitting =>
    have free : thread.shutting? = none := by rw [shutting?, task]
    dsimp only
    split
    · exact hosted.stay (.of_outboxes rfl rfl) free rfl
    · rename_i address _
      have accepted := hosted.accept free sound.fresh address
      rwa [task] at accepted
    · exact hosted.stay (.of_outboxes rfl rfl) free rfl
  | dealing id messages ended =>
    have free : thread.shutting? = none := by rw [shutting?, task]
    cases messages with
    | nil => exact hosted.stay (.of_outboxes rfl rfl) free rfl
    | cons message rest =>
      cases message with
      | ping time => exact hosted.stay (thread.desk.sameBoxes_post id (.pong time)) free rfl
      | _ => exact hosted.stay (.of_outboxes rfl rfl) free rfl
  | closing id =>
    have free : thread.shutting? = none := by rw [shutting?, task]
    dsimp only
    split
    · exact hosted.stay (.of_outboxes rfl rfl) free rfl
    · exact hosted.shut free id
  | shutting id =>
    have shut : thread.shutting? = some id := by rw [shutting?, task]
    refine hosted.keep (.of_outboxes rfl rfl) fun other mem => ?_
    have mem : other ∈ (thread.desk.manager.erase id).ids := mem
    rw [Manager.ids_erase] at mem
    obtain ⟨known, apart⟩ := List.mem_filter.1 mem
    refine ⟨known, fun _ same => ?_⟩
    simp [Option.some.inj (shut.symm.trans same)] at apart

theorem Hosted.run (hosted : thread.Hosted limit) (sound : thread.Sound) (actions : List Action) :
    (thread.run actions).Hosted limit := by
  induction actions generalizing thread with
  | nil => exact hosted
  | cons action rest ih =>
    refine ih ?_ (sound.perform action)
    cases action with
    | work outside => exact hosted.work sound outside
    | post id message =>
      exact hosted.keep (thread.desk.sameBoxes_post id message) fun _ mem => ⟨mem, fun free => free⟩

end Thread

end Parley.Connection
