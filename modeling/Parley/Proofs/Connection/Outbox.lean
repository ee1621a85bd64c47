import Parley.Outbox
import Parley.Proofs.Wire.Stream

/-! What happens to outboxes between flushes.
Each outbox goes by its connection. Posting to one adds the frame of a message that the other side
takes, or nothing; the others stay as they are. -/

namespace Parley

open Wire

namespace Outboxes

variable {outboxes before after : Outboxes} {id : ConnectionId} {box old : Outbox}

theorem id_of_find? (h : outboxes.find? id = some box) : box.id = id := by
  simpa using List.find?_some h

theorem find?_map (boxes : List Outbox) (f : Outbox → Outbox) (keeps : ∀ box, (f box).id = box.id)
    (id : ConnectionId) :
    (boxes.map f).find? (·.id = id) = (boxes.find? (·.id = id)).map f := by
  rw [List.find?_map]
  congr 2
  funext box
  simp [keeps]

theorem find?_add (outboxes : Outboxes) (box : Outbox) (id : ConnectionId) :
    (outboxes.add box).find? id =
      (outboxes.find? id).or (if box.id = id then some box else none) := by
  by_cases same : box.id = id <;> simp [find?, add, same]

theorem find?_replace (outboxes : Outboxes) (box : Outbox) (id : ConnectionId) :
    (outboxes.replace box).find? id =
      (outboxes.find? id).map fun b => if id = box.id then box else b := by
  have keeps (b : Outbox) : (if b.id = box.id then box else b).id = b.id := by
    by_cases same : b.id = box.id <;> simp [same]
  rw [replace, find?, find?_map _ _ keeps, ← find?]
  refine Option.map_congr fun b found => ?_
  rw [id_of_find? found]

theorem find?_close (outboxes : Outboxes) (closed id : ConnectionId) :
    (outboxes.close closed).find? id =
      (outboxes.find? id).map fun b => if id = closed then b.close else b := by
  have keeps (b : Outbox) : (if b.id = closed then b.close else b).id = b.id := by
    by_cases same : b.id = closed <;> simp [same, Outbox.close]
  rw [close, find?, find?_map _ _ keeps, ← find?]
  refine Option.map_congr fun b found => ?_
  rw [id_of_find? found]

/-- A message is refused, and then nothing has changed; or it is no longer than the other side
takes, its frame is behind all that was there, and a flush is asked for. -/
theorem post_cases (outboxes : Outboxes) (id : ConnectionId) (message : Message) :
    (∃ error, outboxes.post id message = (.error error, outboxes)) ∨
    ∃ box, outboxes.find? id = some box ∧ message.encode.length ≤ box.limit ∧
      outboxes.post id message =
        (.ok (), { outboxes.replace { box with buffer := box.buffer ++ message.toFrame } with
          requested := outboxes.requested ++ [id], woken := true }) := by
  unfold post
  cases found : outboxes.find? id with
  | none => exact .inl ⟨_, rfl⟩
  | some box =>
    dsimp only
    unfold Outbox.post
    by_cases closed : box.closed = true
    · exact .inl ⟨.closed, by rw [if_pos closed]⟩
    · rw [if_neg closed]
      dsimp only
      by_cases long : box.limit < message.encode.length
      · exact .inl ⟨_, by rw [if_pos long]⟩
      · exact .inr ⟨box, rfl, Nat.not_lt.1 long, by rw [if_neg long]; rfl⟩

/-- Between two states of the outboxes messages were posted that are as `P` says, and boxes were
closed; nothing else has happened. -/
structure Grown (P : ConnectionId → Message → Prop) (before after : Outboxes) : Prop where
  absent : ∀ id, before.find? id = none → after.find? id = none
  present : ∀ id box, before.find? id = some box → ∃ box' posted,
    after.find? id = some box' ∧ box'.limit = box.limit ∧
      box'.buffer = box.buffer ++ frames posted ∧
      ∀ message ∈ posted, message.encode.length ≤ box.limit ∧ P id message

namespace Grown

variable {P Q : ConnectionId → Message → Prop}

theorem refl (outboxes : Outboxes) : Grown P outboxes outboxes :=
  ⟨fun _ h => h, fun _ box h => ⟨box, [], h, rfl, by simp, by simp⟩⟩

theorem trans {first second third : Outboxes} (early : Grown P first second)
    (late : Grown P second third) : Grown P first third := by
  refine ⟨fun id h => late.absent id (early.absent id h), fun id box h => ?_⟩
  obtain ⟨box', posted, h', limit', buffer', good'⟩ := early.present id box h
  obtain ⟨box'', more, h'', limit'', buffer'', good''⟩ := late.present id box' h'
  refine ⟨box'', posted ++ more, h'', limit''.trans limit', ?_, fun message mem => ?_⟩
  · rw [buffer'', buffer', frames_append, List.append_assoc]
  · obtain mem | mem := List.mem_append.1 mem
    · exact good' message mem
    · rw [← limit']
      exact good'' message mem

theorem mono (weaker : ∀ id message, P id message → Q id message)
    (grown : Grown P before after) : Grown Q before after := by
  refine ⟨grown.absent, fun id box h => ?_⟩
  obtain ⟨box', posted, h', limit, buffer, good⟩ := grown.present id box h
  exact ⟨box', posted, h', limit, buffer, fun message mem =>
    ⟨(good message mem).1, weaker id message (good message mem).2⟩⟩

theorem buffer_of_none (grown : Grown P before after) (none : ∀ id message, ¬ P id message)
    {id : ConnectionId} {box : Outbox} (h : before.find? id = some box) :
    ∃ box', after.find? id = some box' ∧ box'.limit = box.limit ∧ box'.buffer = box.buffer := by
  obtain ⟨box', posted, h', limit, buffer, good⟩ := grown.present id box h
  cases posted with
  | nil => exact ⟨box', h', limit, by simpa using buffer⟩
  | cons message rest => exact (none id message (good message List.mem_cons_self).2).elim

end Grown

theorem find?_requested (outboxes : Outboxes) (requested : List ConnectionId) (woken : Bool)
    (id : ConnectionId) :
    { outboxes with requested, woken }.find? id = outboxes.find? id := rfl

theorem grown_post {P : ConnectionId → Message → Prop} (outboxes : Outboxes) {message : Message}
    (good : P id message) : Grown P outboxes (outboxes.post id message).2 := by
  obtain ⟨error, refused⟩ | ⟨box, found, le, accepted⟩ := outboxes.post_cases id message
  · rw [refused]
    exact .refl outboxes
  · rw [accepted]
    have own := id_of_find? found
    refine ⟨fun id' h => ?_, fun id' b h => ?_⟩
    · rw [find?_requested, find?_replace, h]
      rfl
    · rw [find?_requested, find?_replace, h]
      by_cases here : id' = id
      · subst here
        obtain rfl := Option.some.inj (found.symm.trans h)
        refine ⟨_, [message], rfl, ?_⟩
        simp only [own, if_true, frames_cons, frames_nil, List.append_nil, true_and,
          List.forall_mem_singleton]
        exact ⟨le, good⟩
      · refine ⟨b, [], ?_, rfl, by simp, by simp⟩
        simp [own, here]

theorem grown_close {P : ConnectionId → Message → Prop} (outboxes : Outboxes)
    (closed : ConnectionId) : Grown P outboxes (outboxes.close closed) := by
  refine ⟨fun id h => ?_, fun id box h => ?_⟩
  · rw [find?_close, h]
    rfl
  · refine ⟨_, [], by rw [find?_close, h]; rfl, ?_⟩
    split <;> simp [Outbox.close]

def ids (outboxes : Outboxes) : List ConnectionId := outboxes.boxes.map (·.id)

/-- Nothing can be posted to the connection any more. -/
def Refuses (outboxes : Outboxes) (id : ConnectionId) : Prop :=
  ∀ message, (outboxes.post id message).1 = .error .closed

theorem refuses_iff :
    outboxes.Refuses id ↔ ∀ box, outboxes.find? id = some box → box.closed = true := by
  unfold Refuses post
  cases found : outboxes.find? id with
  | none => simp
  | some box =>
    simp only [Option.some.injEq, forall_eq']
    cases shut : box.closed with
    | true => simp [Outbox.post, shut]
    | false =>
      -- the message that is tried is refused for its length at most
      refine iff_of_false (fun refused => ?_) Bool.false_ne_true
      have outcome := refused .logoff
      unfold Outbox.post at outcome
      rw [shut, if_neg Bool.false_ne_true] at outcome
      dsimp only at outcome
      by_cases long : box.limit < (Message.encode .logoff).length
      · rw [if_pos long] at outcome
        cases outcome
      · rw [if_neg long] at outcome
        cases outcome

theorem not_refuses (found : outboxes.find? id = some box) (opened : box.closed = false) :
    ¬ outboxes.Refuses id := fun refuses => by
  cases opened.symm.trans (refuses_iff.1 refuses box found)

@[simp] theorem ids_replace (outboxes : Outboxes) (box : Outbox) :
    (outboxes.replace box).ids = outboxes.ids := by
  rw [ids, replace, List.map_map]
  refine List.map_congr_left fun b _ => ?_
  by_cases same : b.id = box.id <;> simp [same]

@[simp] theorem ids_close (outboxes : Outboxes) (id : ConnectionId) :
    (outboxes.close id).ids = outboxes.ids := by
  rw [ids, close, List.map_map]
  refine List.map_congr_left fun b _ => ?_
  by_cases same : b.id = id <;> simp [same, Outbox.close]

@[simp] theorem ids_add (outboxes : Outboxes) (box : Outbox) :
    (outboxes.add box).ids = outboxes.ids ++ [box.id] := List.map_append

@[simp] theorem ids_post (outboxes : Outboxes) (id : ConnectionId) (message : Message) :
    (outboxes.post id message).2.ids = outboxes.ids := by
  obtain ⟨error, refused⟩ | ⟨box, -, -, accepted⟩ := outboxes.post_cases id message
  · rw [refused]
  · rw [accepted]
    exact outboxes.ids_replace _

@[simp] theorem refuses_requested (outboxes : Outboxes) (requested : List ConnectionId)
    (woken : Bool) (id : ConnectionId) :
    { outboxes with requested, woken }.Refuses id ↔ outboxes.Refuses id := by
  rw [refuses_iff, refuses_iff, find?_requested]

theorem post_of_fits {message : Message} (takes : ¬ outboxes.Refuses id)
    (fits : ∀ box, outboxes.find? id = some box → message.encode.length ≤ box.limit) :
    (outboxes.post id message).1 = .ok () := by
  rw [refuses_iff] at takes
  simp only [Classical.not_forall, Bool.not_eq_true] at takes
  obtain ⟨box, found, opened⟩ := takes
  rw [post, found]
  dsimp only
  rw [Outbox.post, opened, if_neg Bool.false_ne_true]
  dsimp only
  rw [if_neg (Nat.not_lt.2 (fits box found))]

/-- An outbox that was closed stays closed if only open ones are replaced by open ones. -/
theorem Refuses.replace (refuses : outboxes.Refuses id)
    (found : outboxes.find? box.id = some old) (same : box.closed = old.closed) :
    (outboxes.replace box).Refuses id := by
  rw [refuses_iff] at refuses ⊢
  intro b known
  rw [find?_replace] at known
  obtain ⟨b, before, rfl⟩ := Option.map_eq_some_iff.1 known
  by_cases own : id = box.id
  · subst own
    rw [if_pos rfl, same]
    exact refuses old found
  · rw [if_neg own]
    exact refuses b before

theorem Refuses.close (refuses : outboxes.Refuses id) (gone : ConnectionId) :
    (outboxes.close gone).Refuses id := by
  rw [refuses_iff] at refuses ⊢
  intro b known
  rw [find?_close] at known
  obtain ⟨b, before, rfl⟩ := Option.map_eq_some_iff.1 known
  split
  · rfl
  · exact refuses b before

theorem refuses_close (outboxes : Outboxes) (id : ConnectionId) :
    (outboxes.close id).Refuses id := by
  rw [refuses_iff]
  intro b known
  rw [find?_close] at known
  obtain ⟨b, before, rfl⟩ := Option.map_eq_some_iff.1 known
  rw [if_pos rfl]
  rfl

theorem Refuses.post (refuses : outboxes.Refuses id) (other : ConnectionId) (message : Message) :
    (outboxes.post other message).2.Refuses id := by
  obtain ⟨error, refused⟩ | ⟨box, found, -, accepted⟩ := outboxes.post_cases other message
  · rwa [refused]
  · rw [accepted, refuses_requested]
    have found : outboxes.find? box.id = some box := by rwa [id_of_find? found]
    exact refuses.replace found rfl

theorem Refuses.add (refuses : outboxes.Refuses id) (other : id ≠ box.id) :
    (outboxes.add box).Refuses id := by
  rw [refuses_iff] at refuses ⊢
  intro b known
  rw [find?_add, if_neg other.symm, Option.or_none] at known
  exact refuses b known

end Outboxes

end Parley
