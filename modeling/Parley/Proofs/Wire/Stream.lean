import Parley.Proofs.Wire.Length

/-! Streams of frames that arrive in pieces.
What a reader holds and what is still on its way to it are together the frames of some messages.
However the stream is cut, the reader takes off these messages and no others, in their order, as
long as the header of each frame has room for its length. -/

namespace Parley

open Wire

/-- The length of the message has room in the header of a frame. -/
abbrev Message.Framable (message : Message) : Prop :=
  message.encode.length < 256 ^ headerLength

theorem Message.Framable.decode_encode {message : Message} (small : message.Framable) :
    decode message.encode = .ok message := by
  have fits : message.Fits := by
    refine message.fits_of_length (Nat.lt_trans small ?_)
    decide
  exact decode_eq_ok.2 ⟨fits, List.prefix_refl _⟩

/-- No message is read from a part of the encoding of another. -/
theorem Message.decode_of_less {message : Message} (fits : message.Fits) {body : Bytes}
    (part : body <+: message.encode) (less : body.length < message.encode.length)
    (other : Message) : decode body ≠ .ok other := by
  intro read
  obtain ⟨fits', begins⟩ := decode_eq_ok.1 read
  obtain rfl := eq_of_begins fits' fits (begins.trans part)
  exact Nat.not_le.2 less begins.length_le

namespace Wire

def frames (messages : List Message) : Bytes := messages.flatMap Message.toFrame

@[simp] theorem frames_nil : frames [] = [] := rfl

@[simp] theorem frames_cons (message : Message) (messages : List Message) :
    frames (message :: messages) = message.toFrame ++ frames messages := rfl

@[simp] theorem frames_append (messages more : List Message) :
    frames (messages ++ more) = frames messages ++ frames more := List.flatMap_append

theorem length_toFrame (message : Message) :
    message.toFrame.length = headerLength + message.encode.length := by
  simp [Message.toFrame, frame]

theorem toFrame_ne_nil (message : Message) : message.toFrame ≠ [] := by
  intro none
  have length := length_toFrame message
  rw [none, List.length_nil, headerLength] at length
  omega

theorem front_eq_body {limit : Nat} {stream body rest : Bytes}
    (h : front limit stream = .body body rest) :
    ∃ header : Bytes, header.length = headerLength ∧ stream = header ++ (body ++ rest) ∧
      ofDigits header.reverse = body.length ∧ body.length ≤ limit := by
  unfold front at h
  split at h
  · rename_i a b c d tail
    simp only [List.splitAt_eq] at h
    split at h
    · cases h
    · rename_i small
      split at h
      · rename_i full
        obtain ⟨rfl, rfl⟩ := Front.body.inj h
        refine ⟨[a, b, c, d], rfl, ?_, full.symm, ?_⟩
        · rw [List.take_append_drop]
          rfl
        · omega
      · cases h
  · cases h

theorem front_eq_tooLarge {limit length : Nat} {stream : Bytes}
    (h : front limit stream = .tooLarge length) :
    ∃ header rest : Bytes, header.length = headerLength ∧ stream = header ++ rest ∧
      ofDigits header.reverse = length ∧ limit < length := by
  unfold front at h
  split at h
  · rename_i a b c d tail
    simp only [List.splitAt_eq] at h
    split at h
    · rename_i large
      obtain rfl := Front.tooLarge.inj h
      exact ⟨[a, b, c, d], tail, rfl, rfl, rfl, large⟩
    · split at h <;> cases h
  · cases h

theorem header_frames {header rest : Bytes} {messages : List Message}
    (full : header.length = headerLength) (whole : header ++ rest = frames messages)
    (small : ∀ message ∈ messages, message.Framable) :
    ∃ message later, messages = message :: later ∧
      ofDigits header.reverse = message.encode.length ∧ rest = message.encode ++ frames later := by
  cases messages with
  | nil =>
    obtain ⟨rfl, -⟩ := List.append_eq_nil_iff.1 whole
    cases full
  | cons message later =>
    rw [frames_cons, Message.toFrame, frame, List.append_assoc] at whole
    have same : header.length = ((digits headerLength message.encode.length).reverse).length := by
      rw [full, List.length_reverse, digits_length]
    obtain ⟨rfl, rfl⟩ := List.append_inj whole same
    refine ⟨message, later, rfl, ?_, rfl⟩
    rw [List.reverse_reverse, ofDigits_digits]
    exact Nat.mod_eq_of_lt (small message List.mem_cons_self)

theorem front_toFrame (message : Message) (limit : Nat) (rest : Bytes) :
    front limit (message.toFrame ++ rest) =
      if limit < message.encode.length % 256 ^ headerLength then
        .tooLarge (message.encode.length % 256 ^ headerLength)
      else
        .body (message.encode.take (message.encode.length % 256 ^ headerLength))
          (message.encode.drop (message.encode.length % 256 ^ headerLength) ++ rest) := by
  have told : ofDigits (digits headerLength message.encode.length) =
      message.encode.length % 256 ^ headerLength := ofDigits_digits _ _
  have le : message.encode.length % 256 ^ headerLength ≤ message.encode.length := Nat.mod_le _ _
  obtain ⟨a, b, c, d, four⟩ : ∃ a b c d, digits headerLength message.encode.length = [d, c, b, a] :=
    ⟨_, _, _, _, rfl⟩
  rw [four] at told
  have frame : message.toFrame ++ rest = a :: b :: c :: d :: (message.encode ++ rest) := by
    rw [Message.toFrame, Wire.frame, four]
    rfl
  rw [frame]
  simp only [front, told, List.splitAt_eq, List.take_append_of_le_length le,
    List.drop_append_of_le_length le, List.length_take_of_le le, ↓reduceIte]

theorem front_of_framable {message : Message} (small : message.Framable) (limit : Nat)
    (rest : Bytes) :
    front limit (message.toFrame ++ rest) =
      if limit < message.encode.length then .tooLarge message.encode.length
      else .body message.encode rest := by
  rw [front_toFrame, Nat.mod_eq_of_lt small, List.take_length, List.drop_length, List.nil_append]

theorem encode_of_bytes (data : Bytes) : ∃ head : Bytes, head.length = 29 ∧
    (Message.invocation ⟨0, 0, [.bytes data]⟩).encode = head ++ data := by
  refine ⟨digits 4 1 ++ (digits 4 0 ++ (digits 1 0 ++ (digits 8 1 ++ (digits 4 6 ++
    digits 8 data.length)))), ?_, ?_⟩
  · simp only [List.length_append, digits_length]
  · simp only [Message.encode, Message.write, Request.write, Arguments.write, Value.writeAll,
      Value.write, writeInt32, writeBytes, writeWord, List.append_assoc, List.append_nil]
    rfl

/-- A message that its header has no room for is read as something else: the bytes that are handed
to a call can hold any message, and a reader takes it for one that was sent. -/
theorem exists_misread (hidden : Message) (small : hidden.Framable) {limit : Nat}
    (room : 29 ≤ limit) (le : hidden.encode.length ≤ limit) :
    ∃ data between after, ∃ body : Bytes,
      front limit (Message.invocation ⟨0, 0, [.bytes data]⟩).toFrame = .body body between ∧
      (∀ message, Message.decode body ≠ .ok message) ∧
      front limit between = .body hidden.encode after := by
  have length := length_toFrame hidden
  have wide : headerLength + 29 < 256 ^ headerLength := by decide
  have small' : hidden.encode.length < 256 ^ headerLength := small
  obtain ⟨filler, filled⟩ : ∃ filler : Bytes,
      hidden.toFrame.length + filler.length = 2 * 256 ^ headerLength := by
    refine ⟨.replicate (2 * 256 ^ headerLength - hidden.toFrame.length) 0, ?_⟩
    rw [List.length_replicate]
    omega
  obtain ⟨head, short, encode⟩ := encode_of_bytes (hidden.toFrame ++ filler)
  -- the length is two rounds of the header and what is in front of the bytes
  have total : (Message.invocation ⟨0, 0, [.bytes (hidden.toFrame ++ filler)]⟩).encode.length =
      2 * 256 ^ headerLength + 29 := by
    rw [encode, List.length_append, List.length_append, short, filled, Nat.add_comm]
  have fits : (Message.invocation ⟨0, 0, [.bytes (hidden.toFrame ++ filler)]⟩).Fits := by
    refine Message.fits_of_length _ ?_
    rw [total]
    decide
  have cut : (2 * 256 ^ headerLength + 29) % 256 ^ headerLength = 29 :=
    Nat.mul_add_mod_of_lt (by omega)
  refine ⟨hidden.toFrame ++ filler, hidden.toFrame ++ filler, filler, head, ?_,
    Message.decode_of_less fits ⟨_, encode.symm⟩ (by omega), ?_⟩
  · have first := front_toFrame (.invocation ⟨0, 0, [.bytes (hidden.toFrame ++ filler)]⟩) limit []
    rwa [List.append_nil, total, cut, if_neg (Nat.not_lt.2 room), encode, List.take_left' short,
      List.drop_left' short, List.append_nil] at first
  · rw [front_of_framable small, if_neg (Nat.not_lt.2 le)]

namespace FrameReader

/-- The reader and what is on its way to it hold the frames of the messages. -/
structure Awaits (reader : FrameReader) (coming : Bytes) (messages : List Message) : Prop where
  whole : reader.buffer ++ coming = frames messages
  small : ∀ message ∈ messages, message.Framable

variable {reader after : FrameReader} {coming : Bytes} {messages : List Message}

theorem Awaits.extend {bytes : Bytes} (awaits : reader.Awaits (bytes ++ coming) messages) :
    (reader.extend bytes).Awaits coming messages :=
  ⟨by rw [FrameReader.extend, List.append_assoc, awaits.whole], awaits.small⟩

theorem Awaits.grow {more : List Message} (awaits : reader.Awaits coming messages)
    (small : ∀ message ∈ more, message.Framable) :
    reader.Awaits (coming ++ frames more) (messages ++ more) := by
  refine ⟨?_, fun message mem => ?_⟩
  · rw [← List.append_assoc, awaits.whole, frames_append]
  · exact (List.mem_append.1 mem).elim (awaits.small message) (small message)

theorem next_limit (reader : FrameReader) : reader.next.2.limit = reader.limit := by
  unfold next
  split <;> rfl

theorem Awaits.next_some {body : Bytes} (awaits : reader.Awaits coming messages)
    (h : reader.next = (.ok (some body), after)) :
    ∃ message later, messages = message :: later ∧ message.Framable ∧ body = message.encode ∧
      message.encode.length ≤ reader.limit ∧ after.Awaits coming later := by
  unfold next at h
  split at h
  · cases h
  · rename_i _ rest split
    obtain ⟨rfl, rfl⟩ : _ ∧ { reader with buffer := rest } = after := by
      simpa using h
    obtain ⟨header, full, cut, length, le⟩ := front_eq_body split
    have whole := awaits.whole
    rw [cut, List.append_assoc, List.append_assoc] at whole
    obtain ⟨message, later, rfl, length', rest'⟩ := header_frames full whole awaits.small
    obtain ⟨rfl, behind⟩ := List.append_inj rest' (length.symm.trans length')
    have small := List.forall_mem_cons.1 awaits.small
    exact ⟨message, later, rfl, small.1, rfl, le, behind, small.2⟩
  · cases h

theorem next_none (h : reader.next = (.ok none, after)) : after = reader := by
  unfold next at h
  split at h <;> simp_all

theorem Awaits.next_error {error : ProtocolError} (awaits : reader.Awaits coming messages)
    (h : reader.next = (.error error, after)) :
    after = reader ∧ ∃ message ∈ messages, reader.limit < message.encode.length := by
  unfold next at h
  split at h
  · cases h
  · cases h
  · rename_i length split
    obtain ⟨header, rest, full, cut, rfl, large⟩ := front_eq_tooLarge split
    have whole := awaits.whole
    rw [cut, List.append_assoc] at whole
    obtain ⟨message, later, rfl, length', -⟩ := header_frames full whole awaits.small
    have same : reader = after := (Prod.mk.inj h).2
    exact ⟨same.symm, message, List.mem_cons_self, length' ▸ large⟩

theorem drainAtMost_of_awaits (awaits : reader.Awaits coming messages) {taken bodies : List Bytes}
    {count : Nat} {error : Option ProtocolError}
    (h : reader.drainAtMost taken count = (bodies, error, after)) :
    ∃ now later, messages = now ++ later ∧ bodies = taken.reverse ++ now.map Message.encode ∧
      after.Awaits coming later := by
  induction count generalizing reader messages taken with
  | zero =>
    cases h
    exact ⟨[], messages, rfl, by simp, awaits⟩
  | succ count ih =>
    unfold drainAtMost at h
    split at h
    · rename_i body rest next
      obtain ⟨message, later, rfl, -, rfl, -, awaits⟩ := awaits.next_some next
      obtain ⟨now, later, rfl, rfl, awaits⟩ := ih awaits h
      exact ⟨message :: now, later, rfl, by simp, awaits⟩
    · rename_i rest next
      cases h
      obtain rfl := next_none next
      exact ⟨[], messages, rfl, by simp, awaits⟩
    · rename_i e rest next
      cases h
      obtain ⟨rfl, -⟩ := awaits.next_error next
      exact ⟨[], messages, rfl, by simp, awaits⟩

theorem filterMap_decode {messages : List Message}
    (small : ∀ message ∈ messages, message.Framable) :
    (messages.map Message.encode).filterMap (fun body => (Message.decode body).toOption) =
      messages := by
  induction messages with
  | nil => rfl
  | cons message messages ih =>
    have first := (List.forall_mem_cons.1 small).1.decode_encode
    rw [List.map_cons, List.filterMap_cons, first]
    exact congrArg (message :: ·) (ih (List.forall_mem_cons.1 small).2)

theorem drainMessages_of_awaits (awaits : reader.Awaits coming messages) {taken : List Message}
    {error : Option ProtocolError} (h : reader.drainMessages = (taken, error, after)) :
    ∃ later, messages = taken ++ later ∧ after.Awaits coming later := by
  unfold drainMessages at h
  rcases drained : reader.drain with ⟨bodies, error', reader'⟩
  rw [drained] at h
  cases h
  obtain ⟨now, later, rfl, rfl, awaits'⟩ := drainAtMost_of_awaits awaits drained
  refine ⟨later, ?_, awaits'⟩
  rw [List.reverse_nil, List.nil_append,
    filterMap_decode fun message mem => awaits.small message (List.mem_append_left later mem)]

theorem next_of_empty (empty : reader.buffer = []) : reader.next = (.ok none, reader) := by
  unfold next
  rw [empty]
  rfl

theorem next_of_toFrame {message : Message} {rest : Bytes} (small : message.Framable)
    (le : message.encode.length ≤ reader.limit) (held : reader.buffer = message.toFrame ++ rest) :
    reader.next = (.ok (some message.encode), { reader with buffer := rest }) := by
  unfold next
  rw [held, front_of_framable small, if_neg (Nat.not_lt.2 le)]

theorem next_extend_large {message : Message} (empty : reader.buffer = [])
    (small : message.Framable) (large : reader.limit < message.encode.length) :
    (reader.extend message.toFrame).next =
      (.error (.frameTooLarge message.encode.length reader.limit),
        reader.extend message.toFrame) := by
  have held : (reader.extend message.toFrame).buffer = message.toFrame ++ [] := by
    rw [FrameReader.extend, empty, List.append_nil, List.nil_append]
  have refused : (reader.extend message.toFrame).limit < message.encode.length := large
  unfold next
  rw [held, front_of_framable small, if_pos refused]
  rfl

theorem drainMessages_of_toFrame {message : Message} (small : message.Framable)
    (le : message.encode.length ≤ reader.limit) (held : reader.buffer = message.toFrame) :
    reader.drainMessages = ([message], none, { reader with buffer := [] }) := by
  have first : reader.next = (.ok (some message.encode), { reader with buffer := [] }) :=
    next_of_toFrame small le (by rw [held, List.append_nil])
  have last : ({ reader with buffer := [] } : FrameReader).next =
      (.ok none, { reader with buffer := [] }) := next_of_empty rfl
  have count : reader.buffer.length = message.encode.length + 3 + 1 := by
    rw [held, length_toFrame, headerLength]
    omega
  rw [drainMessages, drain, count, drainAtMost, first]
  dsimp only
  rw [drainAtMost, last]
  dsimp only
  rw [List.reverse_singleton, List.filterMap_cons, small.decode_encode]
  rfl

end FrameReader

end Wire

end Parley
