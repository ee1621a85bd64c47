import Parley.Proofs.Wire.Grammar

/-! Encoding and decoding undo each other.
A message is read back from its encoding, whatever stands behind it, so no encoding begins
another one; and nothing but an encoding, with anything behind it, is read as a message. -/

namespace Parley.Message

open Wire

theorem drop_toFrame (message : Message) : message.toFrame.drop headerLength = message.encode := by
  simp [toFrame, frame, headerLength]

/-- A message is read back from the body of its frame with anything behind it, and no other
message has an encoding that goes on from there. -/
theorem decode_payload_append (message : Message) (fits : message.Fits) :
    (∀ rest, decode (message.toFrame.drop headerLength ++ rest) = .ok message) ∧
    (∀ other : Message, other.Fits → message.encode <+: other.encode → other = message) ∧
    (∀ other : Message, other.Fits → other.encode = message.encode → other = message) := by
  refine ⟨fun rest => ?_, fun other fits' begins => (eq_of_begins fits fits' begins).symm,
    fun other fits' same => ?_⟩
  · rw [drop_toFrame]
    exact decode_eq_ok.2 ⟨fits, List.prefix_append _ _⟩
  · exact eq_of_begins fits' fits (same ▸ List.prefix_refl _)

/-- Lists in lists, a NaN with a payload, and a text of more than one byte a character. -/
theorem decode_payload_append_nested :
    let message : Message := .response ⟨⟨1000, 7⟩, 2,
      [.list [.list [], .double 0x7FF8000000000001], .str "é", .long (-1)]⟩
    message.Fits ∧ decode (message.toFrame.drop headerLength ++ [0, 255]) = .ok message := by
  intro message
  have fits : message.Fits := by
    simp [message, Fits, Arguments.Fit, Value.Fits, Value.AllFit]
    decide
  exact ⟨fits, (decode_payload_append message fits).1 [0, 255]⟩

/-- What is read as a message begins with its encoding, and what is read as none begins with no
encoding. So the bytes that a message was read from are settled by the message. -/
theorem decode_accepts_encodings (body : Bytes) :
    (∀ message, decode body = .ok message →
      message.Fits ∧ message.encode <+: body ∧
      ∀ other, decode other = .ok message →
        other.take message.encode.length = body.take message.encode.length) ∧
    (∀ error, decode body = .error error →
      ∀ message : Message, message.Fits → ¬ message.encode <+: body) := by
  refine ⟨fun message h => ?_, fun error h message fits begins => ?_⟩
  · obtain ⟨fits, begins⟩ := decode_eq_ok.1 h
    refine ⟨fits, begins, fun other h' => ?_⟩
    have begins' := (decode_eq_ok.1 h').2
    rw [← List.prefix_iff_eq_take.1 begins, ← List.prefix_iff_eq_take.1 begins']
  · rw [decode_eq_ok.2 ⟨fits, begins⟩] at h
    cases h

end Parley.Message
