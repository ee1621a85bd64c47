import Parley.Proofs.Connection.Mail
import Parley.Proofs.Wire.Chunks

/-! What a connection takes and what a reader takes.
A connection refuses a message for its length just when a reader with the same limit would refuse
its frame, and both name the same two lengths. So whoever posts hears of it, and the other side
never does. -/

namespace Parley

open Wire

namespace Wire

theorem parse_toFrame {message : Message} (small : message.Framable) (limit : Nat) :
    parse limit message.toFrame =
      if limit < message.encode.length then
        ([], some (.frameTooLarge message.encode.length limit))
      else ([message.encode], none) := by
  have first := front_of_framable small limit []
  have rest : parse limit [] = ([], none) := parse_of_more rfl
  rw [List.append_nil] at first
  split at first
  · rename_i large
    have parsed := parse_of_tooLarge first []
    rw [if_pos large]
    rwa [List.append_nil] at parsed
  · rename_i le
    have parsed := parse_frame_append (eq_frame_append_of_front first).2 []
    rw [rest, List.append_nil] at parsed
    rw [if_neg le]
    exact parsed

end Wire

namespace Outboxes

variable {outboxes : Outboxes} {id : ConnectionId} {box : Outbox} {message : Message}

theorem post_of_open (found : outboxes.find? id = some box) (opened : box.closed = false)
    (message : Message) :
    if box.limit < message.encode.length then
      outboxes.post id message =
        (.error (.frameTooLarge message.encode.length box.limit), outboxes)
    else (outboxes.post id message).1 = .ok () := by
  obtain ⟨refuses, -⟩ | ⟨b, found', -, verdict⟩ := outboxes.post_verdict id message
  · exact (not_refuses found opened refuses).elim
  · obtain rfl := Option.some.inj (found.symm.trans found')
    obtain ⟨long, refused⟩ | ⟨fits, after, taken, -⟩ := verdict
    · rwa [if_pos long]
    · rw [if_neg (Nat.not_lt.2 fits), taken]

/-- A connection takes a message just when a reader with the same limit takes its frame, in whatever
chunks the frame arrives. -/
theorem posts_as_read (found : outboxes.find? id = some box) (opened : box.closed = false)
    (small : message.Framable) (uses : List FrameReader.Use)
    (whole : FrameReader.fed uses = message.toFrame) :
    let (answers, reader) := (FrameReader.mk box.limit []).run uses
    let taken := FrameReader.bodies answers ++ reader.drain.1
    ((outboxes.post id message).1 = .ok () ↔ ∃ body, body ∈ taken) ∧
    (∀ body ∈ taken, taken = [body] ∧ Message.decode body = .ok message) ∧
    (∀ length limit, (outboxes.post id message).1 = .error (.frameTooLarge length limit) ↔
      reader.drain.2.1 = some (.frameTooLarge length limit)) ∧
    ∀ length limit, (outboxes.post id message).1 = .error (.frameTooLarge length limit) →
      length = message.toFrame.length - headerLength ∧ limit = box.limit ∧
        (outboxes.post id message).2 = outboxes := by
  have posted := post_of_open found opened message
  have parsed := FrameReader.parse_fed box.limit uses
  rw [whole, parse_toFrame small] at parsed
  rcases ran : (FrameReader.mk box.limit []).run uses with ⟨answers, reader⟩
  rw [ran] at parsed
  dsimp only at parsed ⊢
  split at posted
  · rename_i long
    rw [if_pos long] at parsed
    obtain ⟨none, verdict⟩ := Prod.mk.inj parsed
    rw [posted, ← none, ← verdict]
    refine ⟨by simp, by simp, fun length limit => by simp, fun length limit refused => ?_⟩
    obtain ⟨rfl, rfl⟩ : message.encode.length = length ∧ box.limit = limit := by
      simpa using refused
    rw [length_toFrame, Nat.add_sub_cancel_left]
    exact ⟨rfl, rfl, rfl⟩
  · rename_i fits
    rw [if_neg fits] at parsed
    obtain ⟨one, verdict⟩ := Prod.mk.inj parsed
    rw [posted, ← one, ← verdict]
    refine ⟨by simp, fun body mem => ?_, by simp, nofun⟩
    obtain rfl := List.mem_singleton.1 mem
    exact ⟨rfl, small.decode_encode⟩

/-- A pong has twelve bytes: a connection whose limit is one less refuses it, as does a reader that
gets its frame in two chunks; with one byte more both take it. -/
theorem posts_as_read_pong :
    let connections (limit : Nat) : Outboxes := { boxes := [{ id := 2, address := "a", limit }] }
    let uses : List FrameReader.Use :=
      [.feed ((Message.pong 7).toFrame.take 2), .ask, .feed ((Message.pong 7).toFrame.drop 2)]
    ((connections 11).post 2 (.pong 7)).1 = .error (.frameTooLarge 12 11) ∧
      ((FrameReader.mk 11 []).run uses).2.drain.2.1 = some (.frameTooLarge 12 11) ∧
      ((connections 12).post 2 (.pong 7)).1 = .ok () := by
  intro connections uses
  have small : (Message.pong 7).Framable := by decide
  have whole : FrameReader.fed uses = (Message.pong 7).toFrame := by decide
  have narrow : ((connections 11).post 2 (.pong 7)).1 = .error (.frameTooLarge 12 11) := rfl
  have found (limit : Nat) :
      (connections limit).find? 2 = some { id := 2, address := "a", limit } := rfl
  obtain ⟨-, -, agree, -⟩ := posts_as_read (found 11) rfl small uses whole
  obtain ⟨taken, -⟩ := posts_as_read (found 12) rfl small uses whole
  refine ⟨narrow, (agree 12 11).1 narrow, taken.2 ⟨(Message.pong 7).encode, ?_⟩⟩
  decide

end Outboxes

end Parley
