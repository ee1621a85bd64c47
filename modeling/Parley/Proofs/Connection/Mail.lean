import Parley.Proofs.Connection.Outbox

/-! Posting messages in turn.
Of the messages that are posted one after the other, each connection that takes anything takes those
that are for it, in their order, as long as none is too long; what is refused leaves no trace. -/

namespace Parley

open Wire (frames frames_nil)

namespace Outbox

/-- What becomes of an outbox that is offered messages in turn: unless it is closed, it takes those
that are not too long. -/
def takeAll (box : Outbox) (messages : List Message) : Outbox :=
  if box.closed then box
  else { box with buffer := box.buffer ++ frames (messages.filter (·.encode.length ≤ box.limit)) }

theorem takeAll_nil (box : Outbox) : box.takeAll [] = box := by
  simp [takeAll]

@[simp] theorem limit_takeAll (box : Outbox) (messages : List Message) :
    (box.takeAll messages).limit = box.limit := by
  unfold takeAll
  split <;> rfl

@[simp] theorem closed_takeAll (box : Outbox) (messages : List Message) :
    (box.takeAll messages).closed = box.closed := by
  unfold takeAll
  split <;> rfl

theorem takeAll_of_closed {box : Outbox} (shut : box.closed = true) (messages : List Message) :
    box.takeAll messages = box := if_pos shut

theorem takeAll_of_open {box : Outbox} (opened : box.closed = false) (messages : List Message) :
    box.takeAll messages = { box with
      buffer := box.buffer ++ frames (messages.filter (·.encode.length ≤ box.limit)) } := by
  rw [takeAll, if_neg (by simp [opened])]

theorem takeAll_of_long {box : Outbox} {message : Message}
    (long : box.limit < message.encode.length) : box.takeAll [message] = box := by
  have none : [message].filter (·.encode.length ≤ box.limit) = [] := by simp [long]
  rw [takeAll, none, frames_nil, List.append_nil, ite_self]

theorem takeAll_append (box : Outbox) (first second : List Message) :
    (box.takeAll first).takeAll second = box.takeAll (first ++ second) := by
  cases opened : box.closed with
  | true => rw [takeAll_of_closed opened, takeAll_of_closed opened, takeAll_of_closed opened]
  | false => simp [takeAll, opened]

end Outbox

namespace Outboxes

variable {outboxes : Outboxes} {id : ConnectionId} {message : Message}
  {posts : List (ConnectionId × Message)}

/-- Posts messages in turn, and does not mind which are refused. -/
def offerAll (outboxes : Outboxes) : List (ConnectionId × Message) → Outboxes
  | [] => outboxes
  | (id, message) :: rest => (outboxes.post id message).2.offerAll rest

def accepted (outboxes : Outboxes) :
    List (ConnectionId × Message) → List (ConnectionId × Message)
  | [] => []
  | (id, message) :: rest =>
    match outboxes.post id message with
    | (.ok (), outboxes) => (id, message) :: outboxes.accepted rest
    | (.error _, outboxes) => outboxes.accepted rest

theorem post_of_error {error : Wire.ProtocolError}
    (h : (outboxes.post id message).1 = .error error) :
    (outboxes.post id message).2 = outboxes := by
  obtain ⟨error', refused⟩ | ⟨box, -, -, accepted⟩ := outboxes.post_cases id message
  · rw [refused]
  · rw [accepted] at h
    cases h

theorem offerAll_append (outboxes : Outboxes) (first second : List (ConnectionId × Message)) :
    outboxes.offerAll (first ++ second) = (outboxes.offerAll first).offerAll second := by
  induction first generalizing outboxes with
  | nil => rfl
  | cons post rest ih => exact ih _

theorem offerAll_accepted (outboxes : Outboxes) (posts : List (ConnectionId × Message)) :
    outboxes.offerAll (outboxes.accepted posts) = outboxes.offerAll posts := by
  induction posts generalizing outboxes with
  | nil => rfl
  | cons post rest ih =>
    obtain ⟨id, message⟩ := post
    rw [accepted, offerAll]
    rcases posted : outboxes.post id message with ⟨error | _, after⟩
    · have same : after = outboxes := by
        have unchanged := outboxes.post_of_error (congrArg Prod.fst posted)
        rwa [posted] at unchanged
      subst same
      exact ih after
    · dsimp only
      rw [offerAll, posted]
      exact ih after

theorem accepted_accepted (outboxes : Outboxes) (posts : List (ConnectionId × Message)) :
    outboxes.accepted (outboxes.accepted posts) = outboxes.accepted posts := by
  induction posts generalizing outboxes with
  | nil => rfl
  | cons post rest ih =>
    obtain ⟨id, message⟩ := post
    rw [accepted]
    rcases posted : outboxes.post id message with ⟨error | _, after⟩
    · have unchanged := outboxes.post_of_error (congrArg Prod.fst posted)
      rw [posted] at unchanged
      obtain rfl : after = outboxes := unchanged
      exact ih after
    · dsimp only
      rw [accepted, posted]
      exact congrArg _ (ih after)

theorem mem_accepted {posts : List (ConnectionId × Message)} {post : ConnectionId × Message}
    (mem : post ∈ outboxes.accepted posts) : post ∈ posts ∧ ¬ outboxes.Refuses post.1 := by
  induction posts generalizing outboxes with
  | nil => cases mem
  | cons first rest ih =>
    obtain ⟨id, message⟩ := first
    rw [accepted] at mem
    rcases posted : outboxes.post id message with ⟨error | _, after⟩
    all_goals
      rw [posted] at mem
      have later (mem : post ∈ after.accepted rest) :
          post ∈ (id, message) :: rest ∧ ¬ outboxes.Refuses post.1 := by
        obtain ⟨listed, open'⟩ := ih mem
        refine ⟨List.mem_cons_of_mem _ listed, fun refuses => open' ?_⟩
        have stays := refuses.post id message
        rwa [posted] at stays
    · exact later mem
    · obtain rfl | mem := List.mem_cons.1 mem
      · refine ⟨List.mem_cons_self, fun refuses => ?_⟩
        cases (congrArg Prod.fst posted).symm.trans (refuses message)
      · exact later mem

def mail (id : ConnectionId) (posts : List (ConnectionId × Message)) : List Message :=
  (posts.filter (·.1 = id)).map (·.2)

theorem mail_cons_self (id : ConnectionId) (message : Message)
    (posts : List (ConnectionId × Message)) :
    mail id ((id, message) :: posts) = message :: mail id posts := by
  simp [mail]

theorem mail_cons_of_ne {other : ConnectionId} (apart : other ≠ id) (message : Message)
    (posts : List (ConnectionId × Message)) :
    mail id ((other, message) :: posts) = mail id posts := by
  simp [mail, apart]

theorem mail_map (id : ConnectionId) (items : List σ) (f : σ → Message) :
    mail id (items.map fun item => (id, f item)) = items.map f := by
  rw [mail, List.filter_eq_self.2 (by simp), List.map_map]
  rfl

theorem mail_map_of_ne {other : ConnectionId} (apart : other ≠ id) (items : List σ)
    (f : σ → Message) : mail id (items.map fun item => (other, f item)) = [] := by
  rw [mail, List.filter_eq_nil_iff.2 (by simp [apart]), List.map_nil]

theorem mail_append (id : ConnectionId) (first second : List (ConnectionId × Message)) :
    mail id (first ++ second) = mail id first ++ mail id second := by
  rw [mail, List.filter_append, List.map_append]
  rfl

theorem mem_mail : message ∈ mail id posts ↔ (id, message) ∈ posts := by
  simp [mail]

theorem grown_offerAll (outboxes : Outboxes) (posts : List (ConnectionId × Message)) :
    outboxes.Grown (fun id message => (id, message) ∈ posts) (outboxes.offerAll posts) := by
  induction posts generalizing outboxes with
  | nil => exact .refl outboxes
  | cons post rest ih =>
    have first : outboxes.Grown (fun id message => (id, message) ∈ post :: rest)
        (outboxes.post post.1 post.2).2 := outboxes.grown_post List.mem_cons_self
    exact first.trans ((ih _).mono fun _ _ mem => List.mem_cons_of_mem post mem)

theorem find?_post_of_fits
    (fits : ∀ box, outboxes.find? id = some box → box.closed = false →
      message.encode.length ≤ box.limit) (other : ConnectionId) :
    (outboxes.post id message).2.find? other = (outboxes.find? other).map fun box =>
      if other = id ∧ box.closed = false then { box with buffer := box.buffer ++ message.toFrame }
      else box := by
  unfold post
  cases found : outboxes.find? id with
  | none =>
    dsimp only
    by_cases here : other = id
    · rw [here, found]
      rfl
    · simp [here]
  | some box =>
    have own := id_of_find? found
    dsimp only
    rw [Outbox.post]
    cases shut : box.closed with
    | true =>
      dsimp only [if_true]
      by_cases here : other = id
      · subst here
        simp [found, shut]
      · simp [here]
    | false =>
      rw [if_neg Bool.false_ne_true]
      dsimp only
      rw [if_neg (Nat.not_lt.2 (fits box found shut)), find?_requested, find?_replace]
      dsimp only
      by_cases here : other = id
      · rw [here, found]
        simp [shut, own, Message.toFrame]
      · simp [here, own]

/-- Between two states of the outboxes a connection was handed a message, and a flush was asked for
it; the others are as they were. -/
structure Handed (before : Outboxes) (id : ConnectionId) (message : Message) (after : Outboxes) :
    Prop where
  here : ∃ box, before.find? id = some box ∧
    after.find? id = some { box with buffer := box.buffer ++ message.toFrame }
  elsewhere : ∀ other, other ≠ id → after.find? other = before.find? other
  requested : after.requested = before.requested ++ [id]

theorem post_verdict (outboxes : Outboxes) (id : ConnectionId) (message : Message) :
    (outboxes.Refuses id ∧ outboxes.post id message = (.error .closed, outboxes)) ∨
    (∃ box, outboxes.find? id = some box ∧ box.closed = false ∧
      ((box.limit < message.encode.length ∧ outboxes.post id message =
          (.error (.frameTooLarge message.encode.length box.limit), outboxes)) ∨
        message.encode.length ≤ box.limit ∧ ∃ after, outboxes.post id message = (.ok (), after) ∧
          outboxes.Handed id message after)) := by
  by_cases refuses : outboxes.Refuses id
  · exact .inl ⟨refuses, Prod.ext (refuses message) (post_of_error (refuses message))⟩
  · have shut := refuses
    simp only [refuses_iff, Classical.not_forall, Bool.not_eq_true] at shut
    obtain ⟨box, found, opened⟩ := shut
    refine .inr ⟨box, found, opened, ?_⟩
    obtain long | fits := Nat.lt_or_ge box.limit message.encode.length
    · refine .inl ⟨long, ?_⟩
      rw [post, found]
      dsimp only
      rw [Outbox.post, if_neg (by simp [opened])]
      dsimp only
      rw [if_pos long]
    · have room (b : Outbox) (known : outboxes.find? id = some b) :
          message.encode.length ≤ b.limit := by
        rwa [Option.some.inj (known.symm.trans found)]
      have taken := post_of_fits refuses room
      refine .inr ⟨fits, _, Prod.ext taken rfl, ⟨box, found, ?_⟩, fun other apart => ?_, ?_⟩
      · rw [find?_post_of_fits fun b known _ => room b known, found]
        simp [opened]
      · rw [find?_post_of_fits fun b known _ => room b known]
        simp [apart]
      · obtain ⟨error, refused⟩ | ⟨b, -, -, accepted⟩ := outboxes.post_cases id message
        · rw [refused] at taken
          cases taken
        · rw [accepted]

theorem find?_post (outboxes : Outboxes) (id : ConnectionId) (message : Message)
    (other : ConnectionId) :
    (outboxes.post id message).2.find? other = (outboxes.find? other).map fun box =>
      if other = id then box.takeAll [message] else box := by
  obtain ⟨refuses, posted⟩ | ⟨box, found, opened, verdict⟩ := outboxes.post_verdict id message
  · rw [posted]
    refine Option.map_id'.symm.trans (Option.map_congr fun box found => ?_)
    by_cases here : other = id
    · subst here
      rw [if_pos rfl, Outbox.takeAll_of_closed (refuses_iff.1 refuses box found)]
    · rw [if_neg here]
  · obtain ⟨long, posted⟩ | ⟨fits, after, posted, handed⟩ := verdict
    · rw [posted]
      refine Option.map_id'.symm.trans (Option.map_congr fun b known => ?_)
      by_cases here : other = id
      · subst here
        obtain rfl := Option.some.inj (found.symm.trans known)
        rw [if_pos rfl, Outbox.takeAll_of_long long]
      · rw [if_neg here]
    · rw [posted]
      by_cases here : other = id
      · obtain ⟨b, known, taken⟩ := handed.here
        obtain rfl := Option.some.inj (found.symm.trans known)
        subst here
        simp [taken, found, Outbox.takeAll, opened, fits]
      · rw [handed.elsewhere other here]
        simp [here]

/-- A connection is left with what its own mail makes of it. -/
theorem find?_offerAll_mail (outboxes : Outboxes) (posts : List (ConnectionId × Message))
    (id : ConnectionId) :
    (outboxes.offerAll posts).find? id = (outboxes.find? id).map (·.takeAll (mail id posts)) := by
  induction posts generalizing outboxes with
  | nil =>
    have same : (fun box : Outbox => box.takeAll (mail id [])) = fun box => box :=
      funext Outbox.takeAll_nil
    rw [same, Option.map_id']
    rfl
  | cons post rest ih =>
    obtain ⟨other, message⟩ := post
    rw [offerAll, ih, find?_post, Option.map_map]
    refine Option.map_congr fun box _ => ?_
    dsimp only [Function.comp]
    by_cases here : id = other
    · subst here
      rw [if_pos rfl, mail_cons_self]
      exact box.takeAll_append [message] _
    · rw [if_neg here, mail_cons_of_ne (Ne.symm here)]

/-- A connection that takes anything takes all that is posted to it, if it fits. -/
theorem find?_offerAll (fits : ∀ post ∈ posts, ∀ box, outboxes.find? post.1 = some box →
      box.closed = false → post.2.encode.length ≤ box.limit) (id : ConnectionId) :
    (outboxes.offerAll posts).find? id = (outboxes.find? id).map fun box =>
      if box.closed = false then { box with buffer := box.buffer ++ frames (mail id posts) }
      else box := by
  rw [find?_offerAll_mail]
  refine Option.map_congr fun box found => ?_
  cases opened : box.closed with
  | true => simp [Outbox.takeAll_of_closed opened]
  | false =>
    have all : (mail id posts).filter (·.encode.length ≤ box.limit) = mail id posts :=
      List.filter_eq_self.2 fun message mem =>
        decide_eq_true (fits _ (mem_mail.1 mem) box found opened)
    rw [Outbox.takeAll_of_open opened, all, opened]
    rfl

end Outboxes

end Parley
