import Parley.Connection.Manager
import Parley.Proofs.Connection.Outbox
import Parley.Proofs.Connection.Transfer

/-! What the I/O side does to the connections of a server.
Each operation works on one connection. The readers of the others keep what they hold, and the
outboxes of the others keep what is to be written. -/

namespace Parley.Connection

open Wire (Bytes frames)

namespace Manager

theorem id_of_find? {manager : Manager} {id : ConnectionId} {connection : Connection}
    (h : manager.find? id = some connection) : connection.id = id := by
  simpa using List.find?_some h

theorem find?_replace (manager : Manager) (connection : Connection) (id : ConnectionId) :
    (manager.replace connection).find? id =
      (manager.find? id).map fun c => if id = connection.id then connection else c := by
  have keeps (c : Connection) : (if c.id = connection.id then connection else c).id = c.id := by
    by_cases same : c.id = connection.id <;> simp [same]
  have ids : ((fun c : Connection => decide (c.id = id)) ∘
      fun c => if c.id = connection.id then connection else c) = fun c => decide (c.id = id) := by
    funext c
    simp [keeps]
  rw [replace, find?, List.find?_map, ids, ← find?]
  refine Option.map_congr fun c found => ?_
  rw [id_of_find? found]

theorem find?_erase (manager : Manager) (gone id : ConnectionId) :
    (manager.erase gone).find? id = if id = gone then none else manager.find? id := by
  by_cases same : id = gone
  · rw [if_pos same, same, find?, erase, List.find?_eq_none]
    intro c mem
    simpa using (List.mem_filter.1 mem).2
  · rw [if_neg same, find?, erase, find?, List.find?_filter]
    congr 1
    funext c
    by_cases here : c.id = id <;> simp [here, same]

theorem mem_ids {manager : Manager} {id : ConnectionId} :
    id ∈ manager.ids ↔ ∃ connection, manager.find? id = some connection := by
  rw [ids, List.mem_map, ← Option.isSome_iff_exists, find?, List.find?_isSome]
  simp only [decide_eq_true_eq]

@[simp] theorem ids_replace (manager : Manager) (connection : Connection) :
    (manager.replace connection).ids = manager.ids := by
  rw [ids, replace, List.map_map]
  refine List.map_congr_left fun c _ => ?_
  by_cases same : c.id = connection.id <;> simp [same]

theorem ids_erase (manager : Manager) (id : ConnectionId) :
    (manager.erase id).ids = manager.ids.filter (· ≠ id) := by
  rw [ids, ids, erase, List.filter_map]
  rfl

/-- Between two states of the connections some of them have ended, and no reader has moved. -/
structure Kept (before after : Manager) : Prop where
  nextId : after.nextId = before.nextId
  limit : after.limit = before.limit
  readers : ∀ id connection, after.find? id = some connection →
    ∃ old, before.find? id = some old ∧ connection.reader = old.reader

namespace Kept

theorem refl (manager : Manager) : Kept manager manager :=
  ⟨rfl, rfl, fun _ connection h => ⟨connection, h, rfl⟩⟩

theorem trans {first second third : Manager} (early : Kept first second)
    (late : Kept second third) : Kept first third := by
  refine ⟨late.nextId.trans early.nextId, late.limit.trans early.limit, fun id connection h => ?_⟩
  obtain ⟨old, h', same⟩ := late.readers id connection h
  obtain ⟨older, h'', same'⟩ := early.readers id old h'
  exact ⟨older, h'', same.trans same'⟩

theorem absent {before after : Manager} (kept : Kept before after) (id : ConnectionId)
    (missing : before.find? id = none) : after.find? id = none := by
  cases known : after.find? id with
  | none => rfl
  | some c =>
    obtain ⟨old, found, -⟩ := kept.readers id c known
    rw [missing] at found
    cases found

theorem erase (manager : Manager) (id : ConnectionId) : Kept manager (manager.erase id) := by
  refine ⟨rfl, rfl, fun other connection h => ⟨connection, ?_, rfl⟩⟩
  rw [find?_erase] at h
  split at h
  · cases h
  · exact h

theorem replace {manager : Manager} {id : ConnectionId} {old new : Connection}
    (found : manager.find? id = some old) (sameId : new.id = old.id)
    (same : new.reader = old.reader) : Kept manager (manager.replace new) := by
  refine ⟨rfl, rfl, fun other connection h => ?_⟩
  rw [find?_replace] at h
  obtain ⟨c, known, rfl⟩ := Option.map_eq_some_iff.1 h
  refine ⟨c, known, ?_⟩
  split
  · rename_i here
    have own : other = id := by rw [here, sameId, id_of_find? found]
    subst own
    rw [Option.some.inj (known.symm.trans found)]
    exact same
  · rfl

end Kept

end Manager

namespace Desk

variable {P : ConnectionId → Message → Prop}

theorem connection_accept (desk : Desk) (address : String) (id : ConnectionId) :
    (desk.accept address).manager.find? id =
      (desk.manager.find? id).or (if desk.manager.nextId = id then
        some { id := desk.manager.nextId, reader := { limit := desk.manager.limit } }
      else none) := by
  by_cases same : desk.manager.nextId = id <;> simp [accept, Manager.find?, same]

theorem outbox_accept (desk : Desk) (address : String) (id : ConnectionId) :
    (desk.accept address).outboxes.find? id =
      (desk.outboxes.find? id).or (if desk.manager.nextId = id then
        some { id := desk.manager.nextId, address, limit := desk.manager.limit }
      else none) := desk.outboxes.find?_add _ id

theorem close_spec (desk : Desk) (id : ConnectionId) :
    desk.manager.Kept (desk.close id).manager ∧
    desk.outboxes.Grown P (desk.close id).outboxes ∧
    (desk.close id).manager.find? id = none ∧
    ∃ more, (desk.close id).notices = desk.notices ++ more ∧
      ∀ notice ∈ more, notice = .closed id := by
  unfold close
  split
  · rename_i gone
    exact ⟨.refl _, .refl _, gone, [], by simp⟩
  · exact ⟨.erase _ id, desk.outboxes.grown_close id,
      (desk.manager.find?_erase id id).trans (if_pos rfl), [.closed id], rfl, by simp⟩

def Pong (_ : ConnectionId) (message : Message) : Prop := ∃ time, message = .pong time

/-- What a connection has said was answered, or was put among the notices. -/
structure Took (id : ConnectionId) (messages : List Message) (before after : Desk) : Prop where
  manager : after.manager = before.manager
  outboxes : before.outboxes.Grown Pong after.outboxes
  notices : ∃ more, after.notices = before.notices ++ more ∧
    ∀ notice ∈ more, ∃ message ∈ messages, notice = .received id message

theorem Took.cons {id : ConnectionId} {message : Message} {rest : List Message}
    {before middle after : Desk} (first : Took id [message] before middle)
    (others : Took id rest middle after) : Took id (message :: rest) before after := by
  obtain ⟨some, notices, good⟩ := first.notices
  obtain ⟨more, notices', good'⟩ := others.notices
  refine ⟨others.manager.trans first.manager, first.outboxes.trans others.outboxes, some ++ more,
    by rw [notices', notices, List.append_assoc], fun notice mem => ?_⟩
  obtain mem | mem := List.mem_append.1 mem
  · obtain ⟨m, here, same⟩ := good notice mem
    exact ⟨m, List.mem_cons.2 (.inl (List.mem_singleton.1 here)), same⟩
  · obtain ⟨m, here, same⟩ := good' notice mem
    exact ⟨m, List.mem_cons_of_mem _ here, same⟩

theorem took_receive (desk : Desk) (id : ConnectionId) (messages : List Message) :
    Took id messages desk (desk.receive id messages).2 := by
  induction messages generalizing desk with
  | nil => exact ⟨rfl, .refl _, [], (List.append_nil _).symm, List.forall_mem_nil _⟩
  | cons message rest ih =>
    have noted : Took id [message] desk
        { desk with notices := desk.notices ++ [.received id message] } :=
      ⟨rfl, .refl _, [.received id message], rfl, by simp⟩
    cases message with
    | ping time =>
      have answered : Took id [.ping time] desk
          { desk with outboxes := (desk.outboxes.post id (.pong time)).2 } :=
        ⟨rfl, desk.outboxes.grown_post ⟨time, rfl⟩, [], by simp⟩
      exact answered.cons (ih _)
    | logoff => exact ⟨rfl, .refl _, [], (List.append_nil _).symm, List.forall_mem_nil _⟩
    | _ => exact noted.cons (ih _)

/-- A connection was read, and is as `next` unless that has ended it. -/
structure Visited (id : ConnectionId) (outcome : ReadOutcome) (next : Connection)
    (before after : Desk) : Prop where
  nextId : after.manager.nextId = before.manager.nextId
  limit : after.manager.limit = before.manager.limit
  others : ∀ other connection, other ≠ id → after.manager.find? other = some connection →
    ∃ old, before.manager.find? other = some old ∧ connection.reader = old.reader
  own : ∀ connection, after.manager.find? id = some connection →
    connection = next ∧ outcome.ended = false ∧ outcome.error = none
  outboxes : before.outboxes.Grown Pong after.outboxes
  notices : ∃ more, after.notices = before.notices ++ more ∧ ∀ notice ∈ more,
    notice = .closed id ∨ ∃ message ∈ outcome.messages, notice = .received id message

theorem visited_read (desk : Desk) {id : ConnectionId} {connection next : Connection}
    {answers : List ReadAnswer} {outcome : ReadOutcome}
    (found : desk.manager.find? id = some connection)
    (reading : connection.readMessages answers = (outcome, next)) :
    Visited id outcome next desk (desk.read id answers) := by
  unfold read
  rw [found]
  dsimp only
  rw [reading]
  dsimp only
  have same : next.id = connection.id := congrArg (·.2.id) reading.symm
  have own : next.id = id := same.trans (Manager.id_of_find? found)
  have taken := took_receive { desk with manager := desk.manager.replace next } id
    outcome.messages
  rcases received : receive id { desk with manager := desk.manager.replace next }
    outcome.messages with ⟨loggedOff, last⟩
  rw [received] at taken
  obtain ⟨more, notices, good⟩ := taken.notices
  have manager : last.manager = desk.manager.replace next := taken.manager
  have others (other : ConnectionId) (c : Connection) (apart : other ≠ id)
      (known : last.manager.find? other = some c) :
      ∃ old, desk.manager.find? other = some old ∧ c.reader = old.reader := by
    rw [manager, Manager.find?_replace] at known
    obtain ⟨old, before, rfl⟩ := Option.map_eq_some_iff.1 known
    exact ⟨old, before, by rw [if_neg (by rwa [own])]⟩
  split
  · obtain ⟨readers, grown, gone, closing, notices', good'⟩ := last.close_spec id
    refine ⟨?_, ?_, fun other c apart known => ?_, ?_, taken.outboxes.trans grown,
      more ++ closing, ?_, fun notice mem => ?_⟩
    · rw [readers.nextId, manager]
      rfl
    · rw [readers.limit, manager]
      rfl
    · obtain ⟨old, known, same⟩ := readers.readers other c known
      obtain ⟨older, known', same'⟩ := others other old apart known
      exact ⟨older, known', same.trans same'⟩
    · rw [gone]
      exact nofun
    · rw [notices', notices, List.append_assoc]
    · obtain mem | mem := List.mem_append.1 mem
      · exact .inr (good notice mem)
      · exact .inl (good' notice mem)
  · rename_i open'
    simp only [Bool.or_eq_true, not_or, Bool.not_eq_true, Option.isSome_eq_false_iff,
      Option.isNone_iff_eq_none] at open'
    refine ⟨?_, ?_, others, fun c known => ?_, taken.outboxes, more, notices,
      fun notice mem => .inr (good notice mem)⟩
    · rw [manager]
      rfl
    · rw [manager]
      rfl
    · rw [manager, Manager.find?_replace, found] at known
      cases known
      exact ⟨if_pos own.symm, open'.2, open'.1.2⟩

theorem Visited.absent {id : ConnectionId} {outcome : ReadOutcome} {next connection : Connection}
    {before after : Desk} (visited : Visited id outcome next before after)
    (found : before.manager.find? id = some connection) (other : ConnectionId)
    (missing : before.manager.find? other = none) : after.manager.find? other = none := by
  cases known : after.manager.find? other with
  | none => rfl
  | some c =>
    have apart : other ≠ id := by
      intro same
      rw [same, found] at missing
      cases missing
    obtain ⟨old, found', -⟩ := visited.others other c apart known
    rw [missing] at found'
    cases found'

def told (id : ConnectionId) (messages : List Message) : List Notice :=
  messages.filterMap fun
    | .ping _ => none
    | message => some (.received id message)

theorem notices_receive (desk : Desk) (id : ConnectionId) (messages : List Message) :
    ∃ heard, heard <+: messages ∧
      ((desk.receive id messages).1 = false → heard = messages) ∧
      (desk.receive id messages).2.notices = desk.notices ++ told id heard := by
  induction messages generalizing desk with
  | nil => exact ⟨[], List.prefix_refl _, fun _ => rfl, (List.append_nil _).symm⟩
  | cons message rest ih =>
    have noted (plain : told id [message] = [.received id message]) :
        ∃ heard, heard <+: message :: rest ∧
          ((receive id { desk with notices := desk.notices ++ [.received id message] } rest).1 =
            false → heard = message :: rest) ∧
          (receive id { desk with
            notices := desk.notices ++ [.received id message] } rest).2.notices =
            desk.notices ++ told id heard := by
      obtain ⟨heard, part, whole, notices⟩ := ih { desk with
        notices := desk.notices ++ [.received id message] }
      refine ⟨message :: heard, (List.prefix_cons_inj message).2 part,
        fun stays => congrArg _ (whole stays), ?_⟩
      have split : told id (message :: heard) = told id [message] ++ told id heard :=
        List.filterMap_append (l := [message])
      rw [notices, split, plain, List.append_assoc]
    cases message with
    | ping time =>
      obtain ⟨heard, part, whole, notices⟩ := ih { desk with
        outboxes := (desk.outboxes.post id (.pong time)).2 }
      exact ⟨.ping time :: heard, (List.prefix_cons_inj _).2 part,
        fun stays => congrArg _ (whole stays), notices⟩
    | logoff => exact ⟨[], List.nil_prefix, nofun, (List.append_nil _).symm⟩
    | _ => exact noted rfl

/-- What comes in on a connection is told in its order, and as long as the connection is open all
of it is told. -/
theorem notices_read (desk : Desk) {id : ConnectionId} {connection next : Connection}
    {answers : List ReadAnswer} {outcome : ReadOutcome}
    (found : desk.manager.find? id = some connection)
    (reading : connection.readMessages answers = (outcome, next)) :
    ∃ heard, heard <+: outcome.messages ∧
      (∀ open', (desk.read id answers).manager.find? id = some open' →
        heard = outcome.messages) ∧
      ∃ closing, (desk.read id answers).notices = desk.notices ++ (told id heard ++ closing) ∧
        ∀ notice ∈ closing, notice = .closed id := by
  unfold read
  rw [found]
  dsimp only
  rw [reading]
  dsimp only
  obtain ⟨heard, part, whole, notices⟩ :=
    notices_receive { desk with manager := desk.manager.replace next } id outcome.messages
  rcases received : receive id { desk with manager := desk.manager.replace next }
    outcome.messages with ⟨loggedOff, last⟩
  rw [received] at whole notices
  dsimp only at whole notices ⊢
  split
  · obtain ⟨-, -, gone, closing, notices', good⟩ :=
      last.close_spec id (P := fun _ _ => True)
    refine ⟨heard, part, fun open' known => ?_, closing, ?_, good⟩
    · cases gone.symm.trans known
    · rw [notices', notices, List.append_assoc]
  · rename_i stays
    simp only [Bool.or_eq_true, not_or, Bool.not_eq_true] at stays
    refine ⟨heard, part, fun _ _ => whole stays.1.1, [], ?_, List.forall_mem_nil _⟩
    rw [notices, List.append_nil]

/-- A connection was flushed, and the bytes are on their way to its client. -/
structure Flushed (id : ConnectionId) (written : Bytes) (before after : Desk) : Prop where
  manager : before.manager.Kept after.manager
  absent : ∀ other, before.outboxes.find? other = none → after.outboxes.find? other = none
  present : ∀ other box, before.outboxes.find? other = some box →
    ∃ box', after.outboxes.find? other = some box' ∧ box'.limit = box.limit ∧
      (if other = id then written else []) ++ box'.buffer = box.buffer
  silent : before.outboxes.find? id = none → written = []
  notices : ∃ more, after.notices = before.notices ++ more ∧ ∀ notice ∈ more, notice = .closed id

theorem Flushed.nothing (desk : Desk) (id : ConnectionId) : Flushed id [] desk desk :=
  ⟨.refl _, fun _ h => h, fun _ box h => ⟨box, h, rfl, by simp⟩, fun _ => rfl, [], by simp⟩

theorem flushed_pour (desk : Desk) (id : ConnectionId) (answers : List WriteAnswer) :
    Flushed id (desk.pour id answers).2.1 desk (desk.pour id answers).2.2 := by
  unfold pour
  cases held : desk.outboxes.find? id with
  | none => exact .nothing desk id
  | some box =>
    dsimp only
    rcases out : box.flush answers with ⟨result, written, box'⟩
    obtain ⟨sameId, limit, whole⟩ := Outbox.flush_append out
    have own : box'.id = id := sameId.trans (Outboxes.id_of_find? held)
    refine ⟨.refl _, fun other h => ?_, fun other b h => ?_, fun h => ?_, [], by simp⟩
    · rw [Outboxes.find?_replace, h]
      rfl
    · rw [Outboxes.find?_replace, h, own]
      by_cases here : other = id
      · subst here
        obtain rfl := Option.some.inj (h.symm.trans held)
        exact ⟨box', by simp, limit, by rwa [if_pos rfl]⟩
      · exact ⟨b, by simp [here], rfl, by simp [here]⟩
    · rw [held] at h
      cases h

theorem manager_pour (desk : Desk) (id : ConnectionId) (answers : List WriteAnswer) :
    (desk.pour id answers).2.2.manager = desk.manager := by
  unfold pour
  split <;> rfl

theorem empty_of_pour {desk : Desk} {id : ConnectionId} {answers : List WriteAnswer} {box : Outbox}
    (found : (desk.pour id answers).2.2.outboxes.find? id = some box)
    (done : (desk.pour id answers).1 = .ok true) : box.buffer = [] := by
  unfold pour at found done
  cases held : desk.outboxes.find? id with
  | none =>
    rw [held] at found
    cases held.symm.trans found
  | some old =>
    rcases out : old.flush answers with ⟨result, written, box'⟩
    simp only [held, out] at found done
    subst done
    have own : box'.id = id := (Outbox.flush_append out).1.trans (Outboxes.id_of_find? held)
    rw [Outboxes.find?_replace, held, Option.map_some, if_pos own.symm] at found
    rw [← Option.some.inj found]
    exact Outbox.flush_done out

theorem signals_pour (desk : Desk) (id : ConnectionId) (answers : List WriteAnswer) :
    (desk.pour id answers).2.2.outboxes.requested = desk.outboxes.requested ∧
      (desk.pour id answers).2.2.outboxes.woken = desk.outboxes.woken := by
  unfold pour
  split <;> exact ⟨rfl, rfl⟩

theorem kept_watch {desk : Desk} {id : ConnectionId} {connection : Connection}
    (found : desk.manager.find? id = some connection) (done : Bool) :
    desk.manager.Kept (desk.watch connection done).manager := by
  unfold watch
  split
  · exact .replace found rfl rfl
  · exact .refl _

theorem watch_spec (desk : Desk) (connection : Connection) (done : Bool) :
    (desk.watch connection done).outboxes = desk.outboxes ∧
      (desk.watch connection done).notices = desk.notices := by
  unfold watch
  split <;> exact ⟨rfl, rfl⟩

theorem signals_write (desk : Desk) (id : ConnectionId) (answers : List WriteAnswer) :
    (desk.write id answers).2.2.outboxes.requested = desk.outboxes.requested ∧
      (desk.write id answers).2.2.outboxes.woken = desk.outboxes.woken := by
  have poured := desk.signals_pour id answers
  unfold write
  split
  · exact ⟨rfl, rfl⟩
  · rename_i connection _
    rcases out : desk.pour id answers with ⟨error | done, written, next⟩
    all_goals rw [out] at poured
    · exact poured
    · dsimp only
      rwa [(next.watch_spec connection done).1]

theorem flushed_write (desk : Desk) (id : ConnectionId) (answers : List WriteAnswer) :
    Flushed id (desk.write id answers).2.1 desk (desk.write id answers).2.2 := by
  unfold write
  cases found : desk.manager.find? id with
  | none => exact .nothing desk id
  | some connection =>
    have poured := desk.flushed_pour id answers
    have same := desk.manager_pour id answers
    dsimp only
    rcases out : desk.pour id answers with ⟨error | done, written, next⟩
    all_goals rw [out] at poured same
    · exact poured
    · dsimp only at same poured ⊢
      obtain ⟨outboxes, notices⟩ := next.watch_spec connection done
      obtain ⟨kept, absent, present, silent, told⟩ := poured
      rw [← outboxes] at absent present
      rw [← notices] at told
      have found' : next.manager.find? id = some connection := by rwa [same]
      exact ⟨kept.trans (kept_watch found' done), absent, present, silent, told⟩

theorem flushed_flush (desk : Desk) (id : ConnectionId) (answers : List WriteAnswer) :
    Flushed id (desk.flush id answers).1 desk (desk.flush id answers).2 := by
  have base := desk.flushed_write id answers
  unfold flush
  rcases out : desk.write id answers with ⟨failed, written, next⟩
  rw [out] at base
  dsimp only at base ⊢
  split
  · obtain ⟨readers, grown, -, more, closing, good⟩ := close_spec (P := fun _ _ => False) next id
    obtain ⟨before, told, good'⟩ := base.notices
    refine ⟨base.manager.trans readers, fun other h => grown.absent other (base.absent other h),
      fun other b h => ?_, base.silent, before ++ more, ?_, fun notice mem => ?_⟩
    · obtain ⟨middle, known, limit, whole⟩ := base.present other b h
      obtain ⟨last, known', limit', same⟩ := grown.buffer_of_none (by simp) known
      exact ⟨last, known', limit'.trans limit, by rwa [same]⟩
    · rw [closing, told, List.append_assoc]
    · exact (List.mem_append.1 mem).elim (good' notice) (good notice)
  · exact base

end Desk

end Parley.Connection
