import Parley.Proofs.Wire.Stream

/-! Streams that arrive in chunks.
`parse` takes a stream that is there as a whole apart into the bodies of its frames. A reader that
is fed the stream in chunks of any kind, and asked for bodies at any time in between, answers
with the same bodies in the same order, and comes to the same end. -/

namespace Parley.Wire

/-- The length that the header at the front of a stream announces. -/
def announced (stream : Bytes) : Nat := ofDigits (stream.take headerLength).reverse

/-- The bodies of the frames that a stream consists of, up to a frame that is not whole or too
large, and the error in the latter case. -/
def parse (limit : Nat) (stream : Bytes) : List Bytes × Option ProtocolError :=
  if stream.length < headerLength then ([], none)
  else if limit < announced stream then ([], some (.frameTooLarge (announced stream) limit))
  else if stream.length < headerLength + announced stream then ([], none)
  else
    let later := parse limit (stream.drop (headerLength + announced stream))
    ((stream.drop headerLength).take (announced stream) :: later.1, later.2)
termination_by stream.length
decreasing_by
  simp only [List.length_drop, headerLength] at *
  omega

/-- The body has room in a frame, and readers with this limit take it. -/
def Admitted (limit : Nat) (body : Bytes) : Prop :=
  body.length ≤ limit ∧ body.length < 256 ^ headerLength

variable {limit : Nat} {stream body rest : Bytes}

theorem announced_append {header : Bytes} (full : header.length = headerLength) (rest : Bytes) :
    announced (header ++ rest) = ofDigits header.reverse := by
  rw [announced, List.take_left' full]

theorem length_frame (body : Bytes) : (frame body).length = headerLength + body.length := by
  rw [frame, List.length_append, List.length_reverse, digits_length]

theorem announced_frame_append (room : body.length < 256 ^ headerLength) (rest : Bytes) :
    announced (frame body ++ rest) = body.length := by
  have full : ((digits headerLength body.length).reverse).length = headerLength := by
    rw [List.length_reverse, digits_length]
  rw [frame, List.append_assoc, announced_append full, List.reverse_reverse, ofDigits_digits]
  exact Nat.mod_eq_of_lt room

theorem parse_frame_append (admitted : Admitted limit body) (rest : Bytes) :
    parse limit (frame body ++ rest) = (body :: (parse limit rest).1, (parse limit rest).2) := by
  have length : (frame body ++ rest).length = headerLength + body.length + rest.length := by
    rw [List.length_append, length_frame]
  have header : (frame body ++ rest).drop headerLength = body ++ rest := by
    rw [frame, List.append_assoc]
    exact List.drop_left' (by rw [List.length_reverse, digits_length])
  have behind : (frame body ++ rest).drop (headerLength + body.length) = rest :=
    List.drop_left' (length_frame body)
  rw [parse, announced_frame_append admitted.2, header, behind, List.take_left, length]
  rw [if_neg (by omega), if_neg (Nat.not_lt.2 admitted.1), if_neg (by omega)]

/-- A stream of whole frames is parsed frame by frame, whatever stands behind them. -/
theorem parse_frames_append {bodies : List Bytes} (admitted : ∀ body ∈ bodies, Admitted limit body)
    (rest : Bytes) :
    parse limit (bodies.flatMap frame ++ rest) =
      (bodies ++ (parse limit rest).1, (parse limit rest).2) := by
  induction bodies with
  | nil => rfl
  | cons body bodies ih =>
    have parts := List.forall_mem_cons.1 admitted
    rw [List.flatMap_cons, List.append_assoc, parse_frame_append parts.1, ih parts.2]
    rfl

theorem front_append_of_tooLarge {length : Nat} (h : front limit stream = .tooLarge length)
    (more : Bytes) : front limit (stream ++ more) = .tooLarge length := by
  obtain ⟨header, rest, full, rfl, rfl, large⟩ := front_eq_tooLarge h
  match header, full with
  | [a, b, c, d], _ => exact if_pos large

theorem parse_of_tooLarge {length : Nat} (h : front limit stream = .tooLarge length)
    (more : Bytes) : parse limit (stream ++ more) = ([], some (.frameTooLarge length limit)) := by
  obtain ⟨header, rest, full, rfl, rfl, large⟩ := front_eq_tooLarge h
  have enough : ¬ (header ++ rest ++ more).length < headerLength := by
    rw [List.length_append, List.length_append, full]
    omega
  rw [parse, if_neg enough, List.append_assoc, announced_append full, if_pos large]

theorem parse_of_more (h : front limit stream = .more) : parse limit stream = ([], none) := by
  unfold front at h
  split at h
  · rename_i a b c d tail
    have told : announced (a :: b :: c :: d :: tail) = ofDigits [d, c, b, a] := rfl
    simp only [List.splitAt_eq] at h
    split at h
    · cases h
    · rename_i small
      split at h
      · cases h
      · rename_i short
        rw [parse, told, if_neg (by simp [headerLength]), if_neg small, if_pos]
        rw [List.length_take] at short
        simp only [List.length_cons, headerLength]
        omega
  · rename_i short
    rw [parse, if_pos]
    rcases stream with _ | ⟨a, _ | ⟨b, _ | ⟨c, _ | ⟨d, tail⟩⟩⟩⟩
    case cons.cons.cons.cons => exact (short a b c d tail rfl).elim
    all_goals simp [headerLength]

theorem eq_frame_append_of_front (h : front limit stream = .body body rest) :
    stream = frame body ++ rest ∧ Admitted limit body := by
  obtain ⟨header, full, rfl, told, le⟩ := front_eq_body h
  have room : body.length < 256 ^ headerLength := by
    have bound := ofDigits_lt header.reverse
    rwa [told, List.length_reverse, full] at bound
  -- four bytes are the only header for the length that they tell
  have written : (digits headerLength body.length).reverse = header := by
    rw [← told, ← full, ← List.length_reverse, digits_ofDigits, List.reverse_reverse]
  refine ⟨?_, le, room⟩
  rw [frame, written, List.append_assoc]

namespace FrameReader

inductive Use where
  | feed (chunk : Bytes)
  | ask
  deriving DecidableEq, Repr

/-- A body, none yet, or the error that there will never be another. -/
abbrev Answer := Except ProtocolError (Option Bytes)

def run (reader : FrameReader) : List Use → List Answer × FrameReader
  | [] => ([], reader)
  | .feed chunk :: uses => (reader.extend chunk).run uses
  | .ask :: uses =>
    let later := reader.next.2.run uses
    (reader.next.1 :: later.1, later.2)

def fed (uses : List Use) : Bytes :=
  uses.flatMap fun
    | .feed chunk => chunk
    | .ask => []

def bodies (answers : List Answer) : List Bytes :=
  answers.filterMap fun
    | .ok body => body
    | .error _ => none

variable {reader : FrameReader} {chunk : Bytes} {error : ProtocolError}

/-- A reader has been fed some bytes and has answered with some bodies: their frames and what it
holds now are together what it held before and was fed. -/
structure Yields (reader : FrameReader) (fed : Bytes) (bodies : List Bytes) (after : FrameReader) :
    Prop where
  whole : reader.buffer ++ fed = bodies.flatMap frame ++ after.buffer
  admitted : ∀ body ∈ bodies, Admitted reader.limit body
  limit : after.limit = reader.limit

theorem Yields.refl (reader : FrameReader) : reader.Yields [] [] reader :=
  ⟨List.append_nil _, by simp, rfl⟩

theorem Yields.trans {fed fed' : Bytes} {bodies bodies' : List Bytes} {reader' after : FrameReader}
    (early : reader.Yields fed bodies reader') (late : reader'.Yields fed' bodies' after) :
    reader.Yields (fed ++ fed') (bodies ++ bodies') after := by
  refine ⟨?_, fun body mem => ?_, late.limit.trans early.limit⟩
  · rw [← List.append_assoc, early.whole, List.append_assoc, late.whole, List.flatMap_append,
      List.append_assoc]
  · obtain mem | mem := List.mem_append.1 mem
    · exact early.admitted body mem
    · have admitted := late.admitted body mem
      rwa [early.limit] at admitted

theorem yields_extend (reader : FrameReader) (chunk : Bytes) :
    reader.Yields chunk [] (reader.extend chunk) :=
  ⟨rfl, by simp, rfl⟩

theorem yields_next (reader : FrameReader) :
    reader.Yields [] (bodies [reader.next.1]) reader.next.2 := by
  unfold next
  split
  · exact .refl reader
  · rename_i body rest taken
    obtain ⟨whole, admitted⟩ := eq_frame_append_of_front taken
    refine ⟨?_, List.forall_mem_singleton.2 admitted, rfl⟩
    rw [List.append_nil, whole]
    simp [bodies]
  · exact .refl reader

theorem bodies_cons (answer : Answer) (answers : List Answer) :
    bodies (answer :: answers) = bodies [answer] ++ bodies answers :=
  List.filterMap_append (l := [answer])

/-- What a reader is fed is what it answers with and what it holds, whatever is done to it. -/
theorem yields_run (reader : FrameReader) (uses : List Use) :
    reader.Yields (fed uses) (bodies (reader.run uses).1) (reader.run uses).2 := by
  induction uses generalizing reader with
  | nil => exact .refl reader
  | cons use uses ih =>
    cases use with
    | feed chunk => exact (yields_extend reader chunk).trans (ih _)
    | ask =>
      have both := (yields_next reader).trans (ih reader.next.2)
      rw [← bodies_cons] at both
      exact both

theorem Yields.parse_append {fed : Bytes} {bodies : List Bytes} {after : FrameReader}
    (yields : reader.Yields fed bodies after) (ahead : Bytes) :
    parse reader.limit (reader.buffer ++ fed ++ ahead) =
      (bodies ++ (parse after.limit (after.buffer ++ ahead)).1,
        (parse after.limit (after.buffer ++ ahead)).2) := by
  rw [yields.whole, List.append_assoc, parse_frames_append yields.admitted, yields.limit]

/-! The end of a stream. -/

theorem parse_of_next_none (h : reader.next.1 = .ok none) :
    parse reader.limit reader.buffer = ([], none) := by
  unfold next at h
  split at h
  · rename_i more
    exact parse_of_more more
  · cases h
  · cases h

theorem parse_of_next_error (h : reader.next.1 = .error error) :
    parse reader.limit reader.buffer = ([], some error) := by
  unfold next at h
  split at h
  · cases h
  · cases h
  · rename_i length large
    cases h
    have parsed := parse_of_tooLarge large []
    rwa [List.append_nil] at parsed

theorem next_extend_of_error (h : reader.next.1 = .error error) (chunk : Bytes) :
    (reader.extend chunk).next.1 = .error error := by
  unfold next at h
  split at h
  · cases h
  · cases h
  · rename_i length large
    cases h
    have again : front reader.limit (reader.buffer ++ chunk) = .tooLarge length :=
      front_append_of_tooLarge large chunk
    rw [next, extend, again]

theorem next_of_error (h : reader.next.1 = .error error) : reader.next.2 = reader := by
  unfold next at h ⊢
  split at h
  · cases h
  · cases h
  · rfl

theorem run_of_error (h : reader.next.1 = .error error) (uses : List Use) :
    (reader.run uses).1 = .replicate (uses.count .ask) (.error error) ∧
      (reader.run uses).2.next.1 = .error error := by
  induction uses generalizing reader with
  | nil => exact ⟨rfl, h⟩
  | cons use uses ih =>
    cases use with
    | feed chunk => exact ih (next_extend_of_error h chunk)
    | ask =>
      obtain ⟨answers, stuck⟩ := ih h
      rw [run, next_of_error h, h, answers, List.count_cons_self, List.replicate_succ]
      exact ⟨rfl, stuck⟩

/-- The error of a reader stays its answer. -/
theorem next_run_of_error_mem {uses : List Use} (mem : .error error ∈ (reader.run uses).1) :
    (reader.run uses).2.next.1 = .error error := by
  induction uses generalizing reader with
  | nil => cases mem
  | cons use uses ih =>
    cases use with
    | feed chunk => exact ih mem
    | ask =>
      obtain now | later := List.mem_cons.1 mem
      · have stuck : reader.next.2.next.1 = .error error := by
          rw [next_of_error now.symm, ← now]
        exact (run_of_error stuck uses).2
      · exact ih later

def lastAnswer : Option ProtocolError → Answer
  | none => .ok none
  | some error => .error error

theorem drainAtMost_spec (reader : FrameReader) (taken : List Bytes) {count : Nat}
    (enough : reader.buffer.length < count) :
    ∃ now, (reader.drainAtMost taken count).1 = taken.reverse ++ now ∧
      reader.Yields [] now (reader.drainAtMost taken count).2.2 ∧
      (reader.drainAtMost taken count).2.2.next.1 =
        lastAnswer (reader.drainAtMost taken count).2.1 := by
  induction count generalizing reader taken with
  | zero => omega
  | succ count ih =>
    unfold drainAtMost
    have yields := yields_next reader
    split
    · rename_i body rest answered
      rw [answered] at yields
      -- even an empty body takes its header away, so the count suffices for what is left
      have less : rest.buffer.length < count := by
        have lengths := congrArg List.length yields.whole
        simp [bodies, length_frame, headerLength] at lengths
        omega
      obtain ⟨now, same, yields', last⟩ := ih rest (body :: taken) less
      refine ⟨body :: now, ?_, yields.trans yields', last⟩
      rw [same, List.reverse_cons, List.append_assoc, List.singleton_append]
    · rename_i rest answered
      obtain rfl := next_none answered
      exact ⟨[], (List.append_nil _).symm, .refl _, by rw [answered, lastAnswer]⟩
    · rename_i error rest answered
      have same : reader.next.2 = reader := next_of_error (by rw [answered])
      rw [answered] at same
      obtain rfl : rest = reader := same
      exact ⟨[], (List.append_nil _).symm, .refl _, by rw [answered, lastAnswer]⟩

theorem drain_spec (reader : FrameReader) :
    reader.Yields [] reader.drain.1 reader.drain.2.2 ∧
      reader.drain.2.2.next.1 = lastAnswer reader.drain.2.1 := by
  obtain ⟨now, same, yields, last⟩ := drainAtMost_spec reader [] (Nat.lt_succ_self _)
  rw [List.reverse_nil, List.nil_append] at same
  rw [← same] at yields
  exact ⟨yields, last⟩

theorem parse_of_lastAnswer {ending : Option ProtocolError}
    (h : reader.next.1 = lastAnswer ending) : parse reader.limit reader.buffer = ([], ending) := by
  cases ending with
  | none => exact parse_of_next_none h
  | some error => exact parse_of_next_error h

/-- A reader that is fed a stream, asked for bodies at any time and drained at last has taken the
stream apart. -/
theorem parse_fed (limit : Nat) (uses : List Use) :
    let reader := (FrameReader.mk limit []).run uses
    parse limit (fed uses) = (bodies reader.1 ++ reader.2.drain.1, reader.2.drain.2.1) := by
  intro reader
  have yields : (FrameReader.mk limit []).Yields (fed uses) (bodies reader.1) reader.2 :=
    yields_run _ uses
  obtain ⟨drained, last⟩ := drain_spec reader.2
  -- what is left behind the drained bodies parses to its verdict alone
  have parsed : parse limit (fed uses ++ [] ++ []) = _ := (yields.trans drained).parse_append []
  rwa [List.append_nil, List.append_nil, List.append_nil, parse_of_lastAnswer last,
    List.append_nil] at parsed

/-- However a stream is cut into chunks, and whenever the reader is asked for bodies, these are the
first of the whole stream. -/
theorem run_eq_parse (limit : Nat) (uses : List Use) :
    let reader := (FrameReader.mk limit []).run uses
    (bodies reader.1).flatMap frame ++ reader.2.buffer = fed uses ∧
    (∀ ahead, bodies reader.1 <+: (parse limit (fed uses ++ ahead)).1) ∧
    (parse limit (fed uses) = (bodies reader.1 ++ reader.2.drain.1, reader.2.drain.2.1) ∧
      reader.2.drain.2.2.next.1 = lastAnswer reader.2.drain.2.1) ∧
    ∀ error, .error error ∈ reader.1 → ∀ later,
      (reader.2.run later).1 = .replicate (later.count .ask) (.error error) := by
  intro reader
  have yields : (FrameReader.mk limit []).Yields (fed uses) (bodies reader.1) reader.2 :=
    yields_run _ uses
  obtain ⟨drained, last⟩ := drain_spec reader.2
  refine ⟨yields.whole.symm, fun ahead => ?_, ⟨?_, last⟩, fun error mem later => ?_⟩
  · have parsed : parse limit (fed uses ++ ahead) = _ := yields.parse_append ahead
    rw [parsed]
    exact List.prefix_append _ _
  · -- what is left behind the drained bodies parses to its verdict alone
    have parsed : parse limit (fed uses ++ [] ++ []) = _ := (yields.trans drained).parse_append []
    rw [List.append_nil, List.append_nil] at parsed
    rw [parsed, List.append_nil, parse_of_lastAnswer last, List.append_nil]
  · exact (run_of_error (next_run_of_error_mem mem) later).1

/-- A header that comes in two pieces, and one that announces too much. -/
example :
    ((mk 2 []).run [.feed [0, 0], .ask, .feed [0, 1, 7, 0, 0, 0], .ask, .feed [3], .ask,
        .feed [1, 2, 3], .ask]).1 =
      [.ok none, .ok (some [7]), .error (.frameTooLarge 3 2), .error (.frameTooLarge 3 2)] := rfl

end FrameReader

end Parley.Wire
