import Parley.Proofs.Client.Reading
import Parley.Proofs.Wire.Chunks

/-! One stream, read at either end.
A server takes all that its socket has and then the messages out of it; a client takes one message
and reads its socket when it has none left. Both come to the messages of the whole frames up to the
first that is too large, however the stream is cut into reads, and both stop for the same reason. -/

namespace Parley

open Wire
open Connection (ReadAnswer ReadOutcome)

namespace Wire

def decodings (bodies : List Bytes) : List Message :=
  bodies.filterMap fun body => (Message.decode body).toOption

theorem decodings_append (bodies more : List Bytes) :
    decodings (bodies ++ more) = decodings bodies ++ decodings more :=
  List.filterMap_append

theorem decodings_of_ok {body : Bytes} {message : Message}
    (decoded : Message.decode body = .ok message) : decodings [body] = [message] := by
  rw [decodings, List.filterMap_cons, decoded]
  rfl

theorem decodings_of_error {body : Bytes} {error : DecodeError}
    (failed : Message.decode body = .error error) : decodings [body] = [] := by
  rw [decodings, List.filterMap_cons, failed]
  rfl

/-- The messages of a stream that is there as a whole, and the frame that is too large behind
them, if one is. -/
def transcript (limit : Nat) (stream : Bytes) : List Message × Option ProtocolError :=
  (decodings (parse limit stream).1, (parse limit stream).2)

namespace FrameReader

variable {reader middle after : FrameReader} {used used' left : Bytes}
  {messages messages' : List Message} {ending : Option ProtocolError}

/-- A reader is fed some bytes and gives the bodies of some messages, and bodies that are none. -/
def Tells (reader : FrameReader) (used : Bytes) (messages : List Message) (after : FrameReader) :
    Prop :=
  ∃ bodies, decodings bodies = messages ∧ reader.Yields used bodies after

theorem Tells.refl (reader : FrameReader) : reader.Tells [] [] reader :=
  ⟨[], rfl, .refl reader⟩

theorem Tells.trans (early : reader.Tells used messages middle)
    (late : middle.Tells used' messages' after) :
    reader.Tells (used ++ used') (messages ++ messages') after := by
  obtain ⟨bodies, rfl, yields⟩ := early
  obtain ⟨bodies', rfl, yields'⟩ := late
  exact ⟨bodies ++ bodies', decodings_append bodies bodies', yields.trans yields'⟩

theorem tells_extend (reader : FrameReader) (chunk : Bytes) :
    reader.Tells chunk [] (reader.extend chunk) :=
  ⟨[], rfl, reader.yields_extend chunk⟩

/-- Bodies take bytes away, even those that are empty. -/
theorem Yields.shrinks {first : Bytes} {rest : List Bytes}
    (yields : reader.Yields used (first :: rest) after) :
    after.buffer.length < reader.buffer.length + used.length := by
  have lengths := congrArg List.length yields.whole
  simp only [List.length_append, List.flatMap_cons, length_frame, headerLength] at lengths
  omega

theorem Tells.shrinks {message : Message} (tells : reader.Tells used [message] after) :
    after.buffer.length < reader.buffer.length + used.length := by
  obtain ⟨bodies, told, yields⟩ := tells
  cases bodies with
  | nil => cases told
  | cons first rest => exact yields.shrinks

theorem Tells.transcript_append (tells : reader.Tells used messages after) (ahead : Bytes) :
    transcript reader.limit (reader.buffer ++ (used ++ ahead)) =
      (messages ++ (transcript after.limit (after.buffer ++ ahead)).1,
        (transcript after.limit (after.buffer ++ ahead)).2) := by
  obtain ⟨bodies, rfl, yields⟩ := tells
  rw [transcript, ← List.append_assoc, yields.parse_append, decodings_append]
  rfl

/-- A reader has told the whole transcript when it stops behind the last byte, or at a frame that is
too large, whatever is behind that. -/
theorem Tells.transcript_of_last (tells : reader.Tells used messages after)
    (last : after.next.1 = lastAnswer ending) (behind : ending = none → left = []) :
    transcript reader.limit (reader.buffer ++ (used ++ left)) = (messages, ending) := by
  have rest : parse after.limit (after.buffer ++ left) = ([], ending) := by
    cases ending with
    | none =>
      rw [behind rfl, List.append_nil]
      exact parse_of_next_none last
    | some error => exact parse_of_next_error (next_extend_of_error last left)
  rw [tells.transcript_append, transcript, rest]
  exact congrArg (·, ending) (List.append_nil messages)

end FrameReader

end Wire

namespace Connection

/-- What a socket answers in a turn of reading that brings these bytes, in chunks of any size, until
it has ended or has no more yet. -/
inductive Turn (ended : Bool) : Bytes → List ReadAnswer → Prop
  | lull : Turn ended [] [if ended then .ended else .wouldBlock]
  | chunk {chunk bytes : Bytes} {answers : List ReadAnswer} (filled : chunk ≠ [])
      (turn : Turn ended bytes answers) : Turn ended (chunk ++ bytes) (.data chunk :: answers)

/-- A stream is cut into the reads of one turn after the other; the last one finds that it has
ended, if it has. -/
inductive Cut (ended : Bool) : Bytes → List (List ReadAnswer) → Prop
  | last {bytes : Bytes} {answers : List ReadAnswer} (turn : Turn ended bytes answers) :
      Cut ended bytes [answers]
  | turn {bytes later : Bytes} {answers : List ReadAnswer} {turns : List (List ReadAnswer)}
      (turn : Turn false bytes answers) (cut : Cut ended later turns) :
      Cut ended (bytes ++ later) (answers :: turns)

def readTurns (connection : Connection) : List (List ReadAnswer) → ReadOutcome
  | [] => ⟨[], false, none⟩
  | answers :: turns =>
    let (outcome, next) := connection.readMessages answers
    if outcome.ended || outcome.error.isSome then outcome
    else
      let later := readTurns next turns
      { later with messages := outcome.messages ++ later.messages }

variable {ended : Bool} {bytes stream : Bytes} {answers : List ReadAnswer}
  {turns : List (List ReadAnswer)}

theorem turn_of_chunks (ended : Bool) (chunks : List Bytes)
    (filled : ∀ chunk ∈ chunks, chunk ≠ []) :
    Turn ended chunks.flatten (chunks.map .data ++ [if ended then .ended else .wouldBlock]) := by
  induction chunks with
  | nil => exact .lull
  | cons chunk chunks ih =>
    obtain ⟨first, rest⟩ := List.forall_mem_cons.1 filled
    exact .chunk first (ih rest)

theorem carried_of_turn (turn : Turn ended bytes answers) : carried answers = bytes := by
  induction turn with
  | lull => cases ended <;> rfl
  | chunk filled turn ih => rw [carried, ih]

theorem fill_of_turn (turn : Turn ended bytes answers) (reader : FrameReader) :
    fill reader answers = (ended, none, reader.extend bytes) := by
  induction turn generalizing reader with
  | lull => cases ended <;> simp [fill, FrameReader.extend]
  | @chunk chunk bytes answers filled turn ih =>
    have more : fill reader (.data chunk :: answers) = fill (reader.extend chunk) answers := by
      rw [fill]
      exact filled
    rw [more, ih, FrameReader.extend, FrameReader.extend, List.append_assoc]
    rfl

theorem readMessages_of_turn (turn : Turn ended bytes answers) (connection : Connection) :
    let (outcome, next) := connection.readMessages answers
    connection.reader.Tells bytes outcome.messages next.reader ∧
      next.reader.next.1 = FrameReader.lastAnswer outcome.error ∧ outcome.ended = ended := by
  obtain ⟨drained, last⟩ := (connection.reader.extend bytes).drain_spec
  have yields := (connection.reader.yields_extend bytes).trans drained
  rw [List.append_nil, List.nil_append] at yields
  rw [readMessages, fill_of_turn turn]
  exact ⟨⟨_, rfl, yields⟩, last, rfl⟩

/-- A server that reads turn after turn has the transcript of the stream. -/
theorem readTurns_of_cut (cut : Cut ended stream turns) (connection : Connection) :
    let outcome := connection.readTurns turns
    transcript connection.reader.limit (connection.reader.buffer ++ stream) =
        (outcome.messages, outcome.error) ∧
      (outcome.error = none → outcome.ended = ended) := by
  induction cut generalizing connection with
  | @last bytes answers turn =>
    have told := readMessages_of_turn turn connection
    rcases read : connection.readMessages answers with ⟨outcome, next⟩
    rw [read] at told
    obtain ⟨tells, last, same⟩ := told
    have whole := tells.transcript_of_last last fun _ => rfl
    rw [List.append_nil] at whole
    rw [readTurns, read]
    dsimp only
    split
    · exact ⟨whole, fun _ => same⟩
    · rename_i goes
      obtain ⟨waits, fine⟩ : outcome.ended = false ∧ outcome.error = none := by simpa using goes
      rw [whole, readTurns, List.append_nil, fine]
      exact ⟨rfl, fun _ => waits.symm.trans same⟩
  | @turn bytes later answers turns turn cut ih =>
    have told := readMessages_of_turn turn connection
    rcases read : connection.readMessages answers with ⟨outcome, next⟩
    rw [read] at told
    obtain ⟨tells, last, waits⟩ := told
    rw [readTurns, read]
    dsimp only
    cases failed : outcome.error with
    | some error =>
      have whole : transcript _ (_ ++ (bytes ++ later)) = _ :=
        tells.transcript_of_last last fun fine => nomatch failed.symm.trans fine
      rw [if_pos (by simp), whole]
      exact ⟨rfl, fun fine => nomatch failed.symm.trans fine⟩
    | none =>
      obtain ⟨whole, ended⟩ := ih next
      rw [if_neg (by simp [waits]), tells.transcript_append, whole]
      exact ⟨rfl, ended⟩

end Connection

namespace Client

open Connection (Turn Cut carried carried_of_turn)

/-- The messages that a client obtains in a turn of reading by asking for the next until there is
none, and why there is none. At most `count` messages are asked for. -/
def hearAtMost (reader : FrameReader) (answers : List ReadAnswer) :
    (count : Nat) → List Message × Next × FrameReader
  | 0 => ([], .waiting, reader)
  | count + 1 =>
    match nextMessage reader answers with
    | (.message message, reader, answers) =>
      let (messages, stop, reader) := hearAtMost reader answers count
      (message :: messages, stop, reader)
    | (stop, reader, _) => ([], stop, reader)

def hear (reader : FrameReader) (answers : List ReadAnswer) : List Message × Next × FrameReader :=
  hearAtMost reader answers (messageBound reader answers)

/-- The messages that a client obtains in one turn after the other, as long as it is kept
waiting. -/
def hearTurns (reader : FrameReader) :
    List (List ReadAnswer) → List Message × Next × FrameReader
  | [] => ([], .waiting, reader)
  | answers :: turns =>
    match hear reader answers with
    | (messages, .waiting, reader) =>
      let (later, stop, reader) := hearTurns reader turns
      (messages ++ later, stop, reader)
    | heard => heard

variable {reader after : FrameReader} {ended : Bool} {bytes stream : Bytes}
  {answers rest : List ReadAnswer} {turns : List (List ReadAnswer)}

def Picked (reader after : FrameReader) : Except ProtocolError (Option Message) → Prop
  | .ok (some message) => reader.Tells [] [message] after
  | .ok none => reader.Tells [] [] after ∧ after.next.1 = .ok none
  | .error error => reader.Tells [] [] after ∧ after.next.1 = .error error

theorem Picked.behind {middle : FrameReader} {result : Except ProtocolError (Option Message)}
    (picked : Picked middle after result) (skipped : reader.Tells [] [] middle) :
    Picked reader after result := by
  rcases result with error | _ | message
  · exact ⟨skipped.trans picked.1, picked.2⟩
  · exact ⟨skipped.trans picked.1, picked.2⟩
  · exact skipped.trans picked

theorem nextDecodable_picked {count : Nat} {result : Except ProtocolError (Option Message)}
    (enough : reader.buffer.length < count) (h : nextDecodable reader count = (result, after)) :
    Picked reader after result := by
  induction count generalizing reader with
  | zero => omega
  | succ count ih =>
    have yields := reader.yields_next
    unfold nextDecodable at h
    rcases asked : reader.next with ⟨answer, next⟩
    rw [asked] at h yields
    cases answer with
    | error error =>
      cases h
      have same : reader.next.2 = reader := FrameReader.next_of_error (by rw [asked])
      obtain rfl : after = reader := by rwa [asked] at same
      exact ⟨.refl after, by rw [asked]⟩
    | ok found =>
      cases found with
      | none =>
        cases h
        obtain rfl := FrameReader.next_none asked
        exact ⟨.refl after, by rw [asked]⟩
      | some body =>
        have given : reader.Yields [] [body] next := yields
        dsimp only at h
        cases decoded : Message.decode body with
        | ok message =>
          rw [decoded] at h
          cases h
          exact ⟨[body], decodings_of_ok decoded, given⟩
        | error error =>
          rw [decoded] at h
          have skipped : reader.Tells [] [] next := ⟨[body], decodings_of_error decoded, given⟩
          have less := given.shrinks
          rw [List.length_nil, Nat.add_zero] at less
          exact Picked.behind (ih (by omega) h) skipped

def Next.Concludes (ended : Bool) (ending : Option ProtocolError) : Next → Prop
  | .message _ => False
  | .waiting => ended = false ∧ ending = none
  | .ended => ended = true ∧ ending = none
  | .failed error => ending = some error

/-- A client stops in a turn that has this left for it. -/
structure Stops (ended : Bool) (after : FrameReader) (left : Bytes) (stop : Next)
    (ending : Option ProtocolError) : Prop where
  last : after.next.1 = FrameReader.lastAnswer ending
  behind : ending = none → left = []
  concludes : stop.Concludes ended ending

theorem nextMessage_of_turn {next : Next} (turn : Turn ended bytes answers)
    (h : nextMessage reader answers = (next, after, rest)) :
    ∃ used left, bytes = used ++ left ∧
      ((∃ message, next = .message message ∧ reader.Tells used [message] after ∧
          Turn ended left rest) ∨
        (reader.Tells used [] after ∧ ∃ ending, Stops ended after left next ending)) := by
  induction turn generalizing reader with
  | lull =>
    rcases looked : nextDecodable reader (reader.buffered + 1) with ⟨result, middle⟩
    have picked := nextDecodable_picked (Nat.lt_succ_self _) looked
    unfold nextMessage at h
    rw [looked] at h
    refine ⟨[], [], rfl, ?_⟩
    rcases result with error | _ | message
    · cases h
      exact .inr ⟨picked.1, some error, picked.2, fun _ => rfl, rfl⟩
    · cases ended
      all_goals
        cases h
        exact .inr ⟨picked.1, none, picked.2, fun _ => rfl, rfl, rfl⟩
    · cases h
      exact .inl ⟨message, rfl, picked, .lull⟩
  | @chunk chunk bytes answers filled turn ih =>
    rcases looked : nextDecodable reader (reader.buffered + 1) with ⟨result, middle⟩
    have picked := nextDecodable_picked (Nat.lt_succ_self _) looked
    unfold nextMessage at h
    rw [looked] at h
    rcases result with error | _ | message
    · cases h
      have behind : some error = none → chunk ++ bytes = [] := fun fine => by cases fine
      exact ⟨[], chunk ++ bytes, rfl, .inr ⟨picked.1, some error, picked.2, behind, rfl⟩⟩
    · obtain ⟨first, others, rfl⟩ := List.exists_cons_of_ne_nil filled
      obtain ⟨used, left, rfl, outcome⟩ := ih h
      have fed := picked.1.trans (middle.tells_extend (first :: others))
      refine ⟨first :: others ++ used, left, by rw [List.append_assoc], ?_⟩
      obtain ⟨message, same, tells, turn⟩ | ⟨tells, stops⟩ := outcome
      · exact .inl ⟨message, same, fed.trans tells, turn⟩
      · exact .inr ⟨fed.trans tells, stops⟩
    · cases h
      exact ⟨[], chunk ++ bytes, rfl, .inl ⟨message, rfl, picked, .chunk filled turn⟩⟩

theorem hearAtMost_of_turn {count : Nat} {messages : List Message} {stop : Next}
    (turn : Turn ended bytes answers) (enough : reader.buffer.length + bytes.length < count)
    (h : hearAtMost reader answers count = (messages, stop, after)) :
    ∃ used left, bytes = used ++ left ∧ reader.Tells used messages after ∧
      ∃ ending, Stops ended after left stop ending := by
  induction count generalizing reader answers bytes messages with
  | zero => omega
  | succ count ih =>
    unfold hearAtMost at h
    rcases asked : nextMessage reader answers with ⟨next, middle, rest⟩
    rw [asked] at h
    obtain ⟨used, left, rfl, outcome⟩ := nextMessage_of_turn turn asked
    obtain ⟨message, rfl, tells, turn'⟩ | ⟨tells, stops⟩ := outcome
    · rcases heard : hearAtMost middle rest count with ⟨later, stop', last⟩
      have less := tells.shrinks
      rw [List.length_append] at enough
      have enough' : middle.buffer.length + left.length < count := by omega
      dsimp only at h
      rw [heard] at h
      cases h
      obtain ⟨used', left', rfl, tells', stops⟩ := ih turn' enough' heard
      exact ⟨used ++ used', left', by rw [List.append_assoc], tells.trans tells', stops⟩
    · cases next with
      | message message => exact stops.elim fun _ stops => stops.concludes.elim
      | _ =>
        cases h
        exact ⟨used, left, rfl, tells, stops⟩

theorem hear_of_turn {messages : List Message} {stop : Next} (turn : Turn ended bytes answers)
    (h : hear reader answers = (messages, stop, after)) :
    ∃ used left, bytes = used ++ left ∧ reader.Tells used messages after ∧
      ∃ ending, Stops ended after left stop ending := by
  refine hearAtMost_of_turn turn ?_ h
  rw [messageBound_eq, carried_of_turn turn]
  exact Nat.lt_succ_self _

/-- A client that reads turn after turn has the transcript of the stream. -/
theorem hearTurns_of_cut {messages : List Message} {stop : Next} (cut : Cut ended stream turns)
    (h : hearTurns reader turns = (messages, stop, after)) :
    ∃ ending, transcript reader.limit (reader.buffer ++ stream) = (messages, ending) ∧
      stop.Concludes ended ending := by
  induction cut generalizing reader messages with
  | @last bytes answers turn =>
    rcases heard : hear reader answers with ⟨told, stop', middle⟩
    obtain ⟨used, left, rfl, tells, ending, stops⟩ := hear_of_turn turn heard
    have whole := tells.transcript_of_last stops.last stops.behind
    rw [hearTurns, heard] at h
    cases stop' with
    | waiting =>
      cases h
      rw [List.append_nil]
      exact ⟨ending, whole, stops.concludes⟩
    | _ =>
      cases h
      exact ⟨ending, whole, stops.concludes⟩
  | @turn bytes later answers turns turn cut ih =>
    rcases heard : hear reader answers with ⟨told, stop', middle⟩
    obtain ⟨used, left, rfl, tells, ending, stops⟩ := hear_of_turn turn heard
    have concludes := stops.concludes
    rw [hearTurns, heard] at h
    cases stop' with
    | message message => exact concludes.elim
    | waiting =>
      rcases rest : hearTurns middle turns with ⟨told', last, final⟩
      dsimp only at h
      rw [rest] at h
      cases h
      obtain rfl := stops.behind concludes.2
      obtain ⟨ending', whole, concludes'⟩ := ih rest
      refine ⟨ending', ?_, concludes'⟩
      rw [List.append_nil, tells.transcript_append, whole]
    | ended => exact nomatch concludes.1
    | failed error =>
      cases h
      have behind : ending = none → left ++ later = [] := fun fine =>
        nomatch concludes.symm.trans fine
      refine ⟨ending, ?_, concludes⟩
      rw [List.append_assoc]
      exact tells.transcript_of_last stops.last behind

/-- However a stream is cut into reads at either end, the client obtains the messages that the
server does. -/
theorem hears_as_read (limit : Nat) (id : ConnectionId) {turns' : List (List ReadAnswer)}
    (there : Cut ended stream turns) (here : Cut ended stream turns') :
    let (heard, stop, _) := hearTurns { limit } turns
    let outcome := Connection.readTurns { id, reader := { limit } } turns'
    heard = outcome.messages ∧ transcript limit stream = (heard, outcome.error) ∧
      (∀ length max, stop = .failed (.frameTooLarge length max) ↔
        outcome.error = some (.frameTooLarge length max)) ∧
      (stop = .ended ↔ outcome.ended = true ∧ outcome.error = none) := by
  rcases told : hearTurns { limit } turns with ⟨heard, stop, after⟩
  obtain ⟨ending, whole, concludes⟩ := hearTurns_of_cut there told
  obtain ⟨whole', ends⟩ := Connection.readTurns_of_cut here { id, reader := { limit } }
  dsimp only at whole whole' ⊢
  obtain ⟨same, rfl⟩ := Prod.mk.inj (whole.symm.trans whole')
  refine ⟨same, whole, ?_⟩
  cases stop with
  | message message => exact concludes.elim
  | waiting =>
    obtain ⟨rfl, fine⟩ := concludes
    rw [fine, ends fine]
    simp
  | ended =>
    obtain ⟨rfl, fine⟩ := concludes
    rw [fine, ends fine]
    simp
  | failed error =>
    have failed : _ = some error := concludes
    rw [failed]
    simp

/-- A pong, a body that is no message, a header that announces too much, and the end. -/
theorem hears_as_read_garbage :
    let stream := (Message.pong 7).toFrame ++ (frame [9] ++ [0, 0, 1, 0])
    let outcome := Connection.readTurns { id := 1, reader := { limit := 16 } }
      [[.data (stream.take 2), .wouldBlock], [.data (stream.drop 2), .ended]]
    outcome.messages = [.pong 7] ∧ outcome.error = some (.frameTooLarge 256 16) := by
  intro stream outcome
  have there : Cut true stream [[.data (stream.take 5), .data (stream.drop 5), .ended]] :=
    .last (Connection.turn_of_chunks true [stream.take 5, stream.drop 5] (by decide))
  have here : Cut true (stream.take 2 ++ stream.drop 2)
      [[.data (stream.take 2), .wouldBlock], [.data (stream.drop 2), .ended]] :=
    .turn (Connection.turn_of_chunks false [stream.take 2] (by decide))
      (.last (Connection.turn_of_chunks true [stream.drop 2] (by decide)))
  rw [List.take_append_drop] at here
  obtain ⟨heard, -, tooLarge, -⟩ := hears_as_read 16 1 there here
  exact ⟨heard.symm, (tooLarge 256 16).1 rfl⟩

end Client

end Parley
