import Parley.Connection.Basic
import Parley.Proofs.Wire.Stream

/-! Bytes between a socket and those who read and write it.
A socket hands over bytes from the front of what is on its way, and the rest stays on its way;
writing takes bytes from the front of a buffer, and the rest stays in the buffer. -/

namespace Parley.Connection

open Wire (Bytes FrameReader IoError frames)

/-- What a reader comes upon in a socket. -/
inductive Arrival where
  /-- So many bytes, as far as they are there. -/
  | piece (count : Nat)
  | interruption
  deriving DecidableEq, Repr

/-- How a turn of reading ends. -/
inductive Lull where
  | wouldBlock
  | ended
  | failed (error : IoError)
  deriving DecidableEq, Repr

def Lull.answer : Lull → ReadAnswer
  | wouldBlock => .wouldBlock
  | ended => .ended
  | failed error => .failed error

/-- What a socket answers in one turn of reading, and the bytes that it keeps for the next. -/
def turn (lull : Lull) (bytes : Bytes) : List Arrival → List ReadAnswer × Bytes
  | [] => ([lull.answer], bytes)
  | .piece count :: rest =>
    let (answers, kept) := turn lull (bytes.drop count) rest
    (.data (bytes.take count) :: answers, kept)
  | .interruption :: rest =>
    let (answers, kept) := turn lull bytes rest
    (.interrupted :: answers, kept)

def carried : List ReadAnswer → Bytes
  | [] => []
  | .data bytes :: rest => bytes ++ carried rest
  | _ :: rest => carried rest

def Settled : List ReadAnswer → Prop
  | [] => True
  | .wouldBlock :: rest => rest = []
  | _ :: rest => Settled rest

theorem carried_turn (lull : Lull) (bytes : Bytes) (arrivals : List Arrival) :
    carried (turn lull bytes arrivals).1 ++ (turn lull bytes arrivals).2 = bytes := by
  induction arrivals generalizing bytes with
  | nil => cases lull <;> rfl
  | cons arrival rest ih =>
    cases arrival with
    | piece count =>
      rw [turn, carried, List.append_assoc, ih, List.take_append_drop]
    | interruption => exact ih bytes

theorem settled_turn (lull : Lull) (bytes : Bytes) (arrivals : List Arrival) :
    Settled (turn lull bytes arrivals).1 := by
  induction arrivals generalizing bytes with
  | nil => cases lull <;> simp [turn, Lull.answer, Settled]
  | cons arrival rest ih =>
    cases arrival with
    | piece count => exact ih (bytes.drop count)
    | interruption => exact ih bytes

theorem Settled.tail {answer : ReadAnswer} {rest : List ReadAnswer}
    (settled : Settled (answer :: rest)) : Settled rest := by
  cases answer with
  | wouldBlock =>
    obtain rfl : rest = [] := settled
    trivial
  | _ => exact settled

variable {reader after : FrameReader} {answers : List ReadAnswer} {coming : Bytes}
  {messages : List Message}

/-- Bytes are lost only with the connection. -/
theorem fill_of_awaits {ended : Bool} {failure : Option IoError} (settled : Settled answers)
    (awaits : reader.Awaits (carried answers ++ coming) messages)
    (h : fill reader answers = (ended, failure, after)) :
    ∃ lost, after.Awaits (lost ++ coming) messages ∧
      (ended = false → failure = none → lost = []) := by
  induction answers generalizing reader with
  | nil =>
    cases h
    exact ⟨[], awaits, fun _ _ => rfl⟩
  | cons answer rest ih =>
    cases answer with
    | data bytes =>
      cases bytes with
      | nil =>
        cases h
        exact ⟨carried rest, awaits, nofun⟩
      | cons first bytes =>
        rw [carried, List.append_assoc] at awaits
        exact ih settled.tail awaits.extend h
    | interrupted => exact ih settled.tail awaits h
    | wouldBlock =>
      cases h
      obtain rfl : rest = [] := settled
      exact ⟨[], awaits, fun _ _ => rfl⟩
    | ended =>
      cases h
      exact ⟨carried rest, awaits, nofun⟩
    | failed error =>
      cases h
      exact ⟨carried rest, awaits, nofun⟩

theorem readMessages_of_awaits {connection next : Connection} {outcome : ReadOutcome}
    (settled : Settled answers)
    (awaits : connection.reader.Awaits (carried answers ++ coming) messages)
    (h : connection.readMessages answers = (outcome, next)) :
    next.id = connection.id ∧
      ∃ later lost, messages = outcome.messages ++ later ∧
        next.reader.Awaits (lost ++ coming) later ∧
        (outcome.ended = false → outcome.error = none → lost = []) := by
  unfold readMessages at h
  rcases filled : fill connection.reader answers with ⟨ended, failure, reader⟩
  rw [filled] at h
  rcases drained : reader.drainMessages with ⟨taken, tooLong, last⟩
  simp only [drained] at h
  cases h
  obtain ⟨lost, awaits, kept⟩ := fill_of_awaits settled awaits filled
  obtain ⟨later, rfl, left⟩ := FrameReader.drainMessages_of_awaits awaits drained
  refine ⟨rfl, later, lost, rfl, left, fun open' fine => kept open' ?_⟩
  cases failure with
  | none => rfl
  | some error => cases fine

theorem fill_data {bytes : Bytes} (some : bytes ≠ []) :
    fill reader [.data bytes, .wouldBlock] = (false, none, reader.extend bytes) := by
  cases bytes with
  | nil => exact (some rfl).elim
  | cons first rest => rfl

theorem readMessages_toFrame {connection : Connection} {message : Message}
    (small : message.Framable) (le : message.encode.length ≤ connection.reader.limit)
    (empty : connection.reader.buffer = []) :
    connection.readMessages [.data message.toFrame, .wouldBlock] =
      (⟨[message], false, none⟩, connection) := by
  obtain ⟨id, ⟨limit, buffer⟩, awaiting, interest⟩ := connection
  obtain rfl : buffer = [] := empty
  have drained : (FrameReader.extend ⟨limit, []⟩ message.toFrame).drainMessages =
      ([message], none, ⟨limit, []⟩) :=
    FrameReader.drainMessages_of_toFrame small le (List.nil_append _)
  unfold readMessages
  rw [fill_data (Wire.toFrame_ne_nil message)]
  dsimp only
  rw [drained]
  rfl

theorem writeOut_front {front : Bytes} (some : front ≠ []) (rest : Bytes) :
    writeOut [] (front ++ rest) [.accepted front.length] = (.ok rest.isEmpty, front, rest) := by
  cases front with
  | nil => exact (some rfl).elim
  | cons first front => simp [writeOut]

theorem writeOut_accepted {buffer : Bytes} (some : buffer ≠ []) :
    writeOut [] buffer [.accepted buffer.length] = (.ok true, buffer, []) := by
  have all := writeOut_front some []
  rwa [List.append_nil] at all

theorem writeOut_append {written buffer written' buffer' : Bytes} {answers : List WriteAnswer}
    {result : Except IoError Bool}
    (h : writeOut written buffer answers = (result, written', buffer')) :
    written' ++ buffer' = written ++ buffer := by
  induction answers generalizing written buffer with
  | nil =>
    cases h
    rfl
  | cons answer rest ih =>
    unfold writeOut at h
    split at h
    · cases h
      rfl
    · split at h
      · cases h
        rfl
      · exact ih h
      · cases h
        rfl
      · cases h
        rfl
      · rw [ih h, List.append_assoc, List.take_append_drop]

theorem writeOut_done {written buffer written' buffer' : Bytes} {answers : List WriteAnswer}
    (h : writeOut written buffer answers = (.ok true, written', buffer')) : buffer' = [] := by
  induction answers generalizing written buffer with
  | nil =>
    obtain ⟨done, rest⟩ := Prod.mk.inj h
    obtain rfl : buffer = buffer' := (Prod.mk.inj rest).2
    exact List.isEmpty_iff.1 (Except.ok.inj done)
  | cons answer rest ih =>
    unfold writeOut at h
    split at h
    · rename_i empty
      obtain ⟨-, rfl⟩ := Prod.mk.inj (Prod.mk.inj h).2
      exact List.isEmpty_iff.1 empty
    · split at h
      · cases h
      · exact ih h
      · cases h
      · cases h
      · exact ih h

end Parley.Connection

theorem Parley.Outbox.flush_append {box box' : Outbox} {written : Wire.Bytes}
    {answers : List Connection.WriteAnswer} {result : Except Wire.IoError Bool}
    (h : box.flush answers = (result, written, box')) :
    box'.id = box.id ∧ box'.limit = box.limit ∧ written ++ box'.buffer = box.buffer := by
  unfold flush at h
  rcases sent : Connection.writeOut [] box.buffer answers with ⟨result', written', buffer⟩
  rw [sent] at h
  cases h
  exact ⟨rfl, rfl, Connection.writeOut_append sent⟩

theorem Parley.Outbox.flush_done {box box' : Outbox} {written : Wire.Bytes}
    {answers : List Connection.WriteAnswer} (h : box.flush answers = (.ok true, written, box')) :
    box'.buffer = [] := by
  unfold flush at h
  rcases sent : Connection.writeOut [] box.buffer answers with ⟨result, written', buffer⟩
  rw [sent] at h
  cases h
  exact Connection.writeOut_done sent
