import Parley.Proofs.Wire.Layout

/-! Encodings that are cut short.
A decoder that finds the input at an end inside a piece says that the input has ended, or that a
text is shorter than announced if the cut leaves the length of the text and not all of its bytes. Of
what stands before the cut everything is as it should be, so nothing else can be found fault
with. -/

namespace Parley

namespace Wire

def Piece.shortage : Piece → (count : Nat) → DecodeError
  | plain _, _ => .endOfInput
  | text _, count => if count < 8 then .endOfInput else .textTooShort

theorem Piece.take_text (s : String) {count : Nat} (late : 8 ≤ count) :
    (bytes (.text s)).take count =
      writeWord 8 (Utf8.encode s).length ((Utf8.encode s).take (count - 8)) := by
  rw [bytes, writeText, writeBytes, writeWord, List.append_nil, List.take_append, digits_length,
    List.take_of_length_le (by rwa [digits_length])]
  rfl

namespace Layout

/-- What is missing when the input ends after the first `count` bytes. -/
def shortage : Layout → (count : Nat) → DecodeError
  | [], _ => .endOfInput
  | piece :: rest, count =>
    if count < piece.bytes.length then piece.shortage count
    else shortage rest (count - piece.bytes.length)

/-- The part of an encoding ends inside a text: it has the length of the text, and fewer bytes than
that behind it. -/
def EndsInText (layout : Layout) (part : Bytes) : Prop :=
  ∃ before s after left, layout = before ++ .text s :: after ∧
    part = bytes before ++ writeWord 8 (Utf8.encode s).length left ∧
    left.length < (Utf8.encode s).length

variable {layout more : Layout} {count : Nat}

theorem shortage_append_of_lt (short : count < (bytes layout).length) :
    shortage (layout ++ more) count = shortage layout count := by
  induction layout generalizing count with
  | nil => cases short
  | cons piece rest ih =>
    rw [bytes_cons, List.length_append] at short
    rw [List.cons_append, shortage, shortage]
    split
    · rfl
    · exact ih (by omega)

theorem shortage_append_of_le (long : (bytes layout).length ≤ count) :
    shortage (layout ++ more) count = shortage more (count - (bytes layout).length) := by
  induction layout generalizing count with
  | nil => rfl
  | cons piece rest ih =>
    rw [bytes_cons, List.length_append] at long
    rw [List.cons_append, shortage, if_neg (by omega), ih (by omega), bytes_cons,
      List.length_append, Nat.sub_add_eq]

theorem shortage_eq_or (layout : Layout) (count : Nat) :
    shortage layout count = .endOfInput ∨ shortage layout count = .textTooShort := by
  induction layout generalizing count with
  | nil => exact .inl rfl
  | cons piece rest ih =>
    rw [shortage]
    split
    · cases piece with
      | plain data => exact .inl rfl
      | text s =>
        rw [Piece.shortage]
        split
        · exact .inl rfl
        · exact .inr rfl
    · exact ih _

/-- A text is what ends too early just if the cut is behind its length and before its end. -/
theorem shortage_eq_textTooShort_iff (short : count < (bytes layout).length) :
    shortage layout count = .textTooShort ↔ EndsInText layout ((bytes layout).take count) := by
  constructor
  · intro missing
    induction layout generalizing count with
    | nil => cases short
    | cons piece rest ih =>
      rw [bytes_cons, List.length_append] at short
      rw [shortage] at missing
      split at missing
      · rename_i here
        cases piece with
        | plain data => cases missing
        | text s =>
          rw [Piece.shortage] at missing
          split at missing
          · cases missing
          · rename_i late
            have within : count ≤ (Piece.bytes (.text s)).length := Nat.le_of_lt here
            refine ⟨[], s, rest, (Utf8.encode s).take (count - 8), rfl, ?_, ?_⟩
            · rw [bytes_cons, List.take_append_of_le_length within,
                Piece.take_text s (Nat.not_lt.1 late)]
              rfl
            · rw [Piece.bytes, length_writeText, List.length_nil] at here
              rw [List.length_take]
              omega
      · rename_i there
        obtain ⟨before, s, after, left, rfl, part, less⟩ := ih (by omega) missing
        refine ⟨piece :: before, s, after, left, rfl, ?_, less⟩
        rw [bytes_cons, List.take_append, List.take_of_length_le (Nat.not_lt.1 there), part,
          bytes_cons, List.append_assoc]
  · rintro ⟨before, s, after, left, rfl, part, less⟩
    have length := congrArg List.length part
    rw [List.length_take_of_le (Nat.le_of_lt short), List.length_append, length_writeWord] at length
    rw [shortage_append_of_le (by omega), shortage, if_pos, Piece.shortage, if_neg (by omega)]
    rw [Piece.bytes, length_writeText, List.length_nil]
    omega

theorem shortage_zero (layout : Layout) : shortage layout 0 = .endOfInput := by
  induction layout with
  | nil => rfl
  | cons piece rest ih =>
    rw [shortage]
    split
    · cases piece <;> rfl
    · rwa [Nat.zero_sub]

end Layout

namespace Decoder

variable {d : Decoder α} {f : α → Decoder β} {a : α} {b : β} {bound less : Nat}
  {layout more : Layout}

/-- A decoder takes the pieces of a value off the front of its input. If they are cut short, it says
what is missing. Of input of more than `bound` bytes nothing is said. -/
structure Reads (d : Decoder α) (bound : Nat) (layout : Layout) (a : α) : Prop where
  whole : layout.bytes.length ≤ bound → ∀ rest, d (layout.bytes ++ rest) = .ok (a, rest)
  cut : ∀ count < layout.bytes.length, count ≤ bound →
    d (layout.bytes.take count) = .error (layout.shortage count)

theorem bind_of_ok {input rest : Bytes} (h : d input = .ok (a, rest)) :
    (d >>= f) input = f a rest := by
  change Decoder.bind d f input = _
  rw [Decoder.bind, h]

theorem bind_of_error {input : Bytes} {e : DecodeError} (h : d input = .error e) :
    (d >>= f) input = .error e := by
  change Decoder.bind d f input = _
  rw [Decoder.bind, h]

namespace Reads

theorem mono (reads : Reads d bound layout a) (le : less ≤ bound) : Reads d less layout a :=
  ⟨fun fits => reads.whole (Nat.le_trans fits le),
    fun count short within => reads.cut count short (Nat.le_trans within le)⟩

theorem bind (first : Reads d bound layout a)
    (next : Reads (f a) (bound - layout.bytes.length) more b) :
    Reads (d >>= f) bound (layout ++ more) b := by
  refine ⟨fun fits rest => ?_, fun count short within => ?_⟩
  · rw [Layout.bytes_append, List.length_append] at fits
    rw [Layout.bytes_append, List.append_assoc, bind_of_ok (first.whole (by omega) _)]
    exact next.whole (by omega) rest
  · rw [Layout.bytes_append, List.length_append] at short
    rw [Layout.bytes_append, List.take_append]
    by_cases early : count < layout.bytes.length
    · have none : count - layout.bytes.length = 0 := by omega
      rw [none, List.take_zero, List.append_nil, bind_of_error (first.cut count early within),
        Layout.shortage_append_of_lt early]
    · have late : layout.bytes.length ≤ count := Nat.not_lt.1 early
      rw [List.take_of_length_le late, bind_of_ok (first.whole (by omega) _),
        Layout.shortage_append_of_le late]
      exact next.cut _ (by omega) (by omega)

theorem map (reads : Reads d bound layout a) (g : α → β) :
    Reads (d >>= fun a => pure (g a)) bound layout (g a) := by
  refine ⟨fun fits rest => ?_,
    fun count short within => bind_of_error (reads.cut count short within)⟩
  rw [bind_of_ok (reads.whole fits rest)]
  rfl

theorem pure (a : α) : Reads (Pure.pure a : Decoder α) bound [] a := ⟨fun _ _ => rfl, nofun⟩

theorem plain {data : Bytes} (whole : ∀ rest, d (data ++ rest) = .ok (a, rest))
    (cut : ∀ count < data.length, d (data.take count) = .error .endOfInput) :
    Reads d bound [.plain data] a := by
  have same : Layout.bytes [.plain data] = data := List.append_nil data
  refine ⟨fun _ => by rwa [same], fun count short _ => ?_⟩
  rw [same] at short ⊢
  rw [cut count short, Layout.shortage, if_pos (by exact short)]
  rfl

end Reads

theorem take_of_short {count : Nat} {short : DecodeError} {input : Bytes}
    (less : input.length < count) : take count short input = .error short := by
  rw [take, List.splitAt_eq]
  dsimp only
  rw [if_neg (by rw [List.length_take]; omega)]

theorem word_of_short {width : Nat} {input : Bytes} (less : input.length < width) :
    word width input = .error .endOfInput := bind_of_error (take_of_short less)

theorem reads_word {width n : Nat} (small : n < 256 ^ width) :
    Reads (word width) bound [.plain (digits width n)] n := by
  refine .plain (fun rest => word_eq_ok.2 ⟨small, rfl⟩) fun count short => word_of_short ?_
  rw [digits_length] at short
  rw [List.length_take]
  omega

theorem reads_byte (b : UInt8) : Reads byte bound [.plain (digits 1 b.toNat)] b := by
  refine .plain (fun rest => byte_eq_ok.2 rfl) fun count short => ?_
  obtain rfl : count = 0 := by
    rw [digits_length] at short
    omega
  rfl

theorem reads_boolean (b : Bool) : Reads boolean bound [.plain (digits 1 b.toNat)] b := by
  refine .plain (fun rest => boolean_eq_ok.2 rfl) fun count short => ?_
  obtain rfl : count = 0 := by
    rw [digits_length] at short
    omega
  rfl

theorem reads_variant {count n : Nat} (few : count < 256 ^ 4) (lt : n < count) :
    Reads (variant count) bound [.plain (digits 4 n)] n := by
  refine .plain (fun rest => (variant_eq_ok few).2 ⟨lt, rfl⟩) fun length short => ?_
  refine bind_of_error (word_of_short ?_)
  rw [digits_length] at short
  rw [List.length_take]
  omega

theorem reads_word32 (n : UInt32) : Reads word32 bound [.plain (digits 4 n.toNat)] n := by
  have word : Reads (word 4) bound [.plain (digits 4 n.toNat)] n.toNat := reads_word n.toNat_lt
  have reads := word.map UInt32.ofNat
  rwa [UInt32.ofNat_toNat] at reads

theorem reads_word64 (n : UInt64) : Reads word64 bound [.plain (digits 8 n.toNat)] n := by
  have word : Reads (word 8) bound [.plain (digits 8 n.toNat)] n.toNat := reads_word n.toNat_lt
  have reads := word.map UInt64.ofNat
  rwa [UInt64.ofNat_toNat] at reads

theorem reads_int32 (n : Int32) : Reads int32 bound [.plain (digits 4 n.toUInt32.toNat)] n := by
  have word : Reads word32 bound [.plain (digits 4 n.toUInt32.toNat)] n.toUInt32 := reads_word32 _
  have reads := word.map UInt32.toInt32
  rwa [Int32.toInt32_toUInt32] at reads

theorem reads_int64 (n : Int64) : Reads int64 bound [.plain (digits 8 n.toUInt64.toNat)] n := by
  have word : Reads word64 bound [.plain (digits 8 n.toUInt64.toNat)] n.toUInt64 := reads_word64 _
  have reads := word.map UInt64.toInt64
  rwa [Int64.toInt64_toUInt64] at reads

theorem reads_bytes {data : Bytes} (small : Enumerable data.length) :
    Reads bytes bound [.plain (digits 8 data.length), .plain data] data := by
  refine (reads_word small).bind
    (.plain (fun rest => take_eq_ok.2 ⟨rfl, rfl⟩) fun count short => ?_)
  refine take_of_short ?_
  rw [List.length_take]
  omega

theorem reads_text {s : String} (small : Enumerable (Utf8.encode s).length) :
    Reads text bound [.text s] s := by
  have same : Layout.bytes [.text s] = digits 8 (Utf8.encode s).length ++ Utf8.encode s := by
    rw [Layout.bytes_cons, Layout.bytes_nil, List.append_nil, Piece.bytes, writeText, writeBytes,
      writeWord, List.append_nil]
  refine ⟨fun _ rest => text_eq_ok.2 ⟨small, ?_⟩, fun count short _ => ?_⟩
  · rw [same, List.append_assoc]
    rfl
  · have missing : Layout.shortage [.text s] count = Piece.shortage (.text s) count := by
      rw [Layout.shortage, if_pos (by simpa using short)]
    rw [same, List.length_append, digits_length] at short
    rw [missing, same, List.take_append, digits_length, Piece.shortage]
    split
    · rename_i early
      refine bind_of_error (word_of_short ?_)
      rw [List.length_append, List.length_take, List.length_take, digits_length]
      omega
    · rename_i late
      rw [List.take_of_length_le (by rw [digits_length]; omega)]
      have announced (left : Bytes) : word 8 (digits 8 (Utf8.encode s).length ++ left) =
          .ok ((Utf8.encode s).length, left) := word_eq_ok.2 ⟨small, rfl⟩
      refine (bind_of_ok (announced _)).trans (bind_of_error (take_of_short ?_))
      rw [List.length_take]
      omega

/-- Items one after the other, each of which is read as far as `bound` bytes. -/
theorem reads_timesOnto {item : Decoder α} {layoutOf : α → Layout} (taken items : List α)
    (reads : ∀ a ∈ items, Reads item bound (layoutOf a) a) :
    Reads (timesOnto item taken items.length) bound (items.flatMap layoutOf)
      (taken.reverse ++ items) := by
  induction items generalizing taken bound with
  | nil =>
    rw [List.append_nil]
    exact .pure _
  | cons a items ih =>
    obtain ⟨first, others⟩ := List.forall_mem_cons.1 reads
    have next := ih (a :: taken) fun a' mem =>
      (others a' mem).mono (Nat.sub_le bound (layoutOf a).bytes.length)
    rw [List.reverse_cons, List.append_assoc] at next
    exact first.bind (f := fun a => timesOnto item (a :: taken) items.length) next

theorem reads_sequence {item : Decoder α} {layoutOf : α → Layout} {items : List α}
    (small : Enumerable items.length)
    (reads : ∀ a ∈ items, Reads item (bound - 8) (layoutOf a) a) :
    Reads (sequence item) bound (.plain (digits 8 items.length) :: items.flatMap layoutOf)
      items := by
  have length : (Layout.bytes [.plain (digits 8 items.length)]).length = 8 := by
    simp [Piece.bytes]
  refine (reads_word small).bind ?_
  rw [length]
  exact reads_timesOnto [] items reads

end Decoder

end Wire

open Wire Decoder

namespace Token

theorem reads (token : Token) (bound : Nat) : Reads read bound token.layout token :=
  (reads_int32 token.callerOid).bind ((reads_word32 token.requestId).map _)

end Token

namespace Value

/-- A list that is cut short is itself longer than what is left for its items, so the depth that
is left is enough for them. -/
theorem reads {v : Value} (fits : v.Fits) (depth : Nat) : Reads (read depth) depth v.layout v := by
  induction depth generalizing v with
  | zero =>
    have length : v.layout.bytes.length = (v.write []).length := by
      rw [← v.bytes_layout, List.append_nil]
    have tall := v.one_le_height
    have long := v.height_le_length []
    refine ⟨fun none => by omega, fun count _ within => ?_⟩
    obtain rfl := Nat.le_zero.1 within
    rw [List.take_zero, Layout.shortage_zero]
    rfl
  | succ depth ih =>
    have nine : 9 < 256 ^ 4 := by decide
    cases v with
    | null => exact (reads_variant nine (n := 0) (by decide)).bind (.pure _)
    | bool b => exact (reads_variant nine (n := 1) (by decide)).bind ((reads_boolean b).map _)
    | int n => exact (reads_variant nine (n := 2) (by decide)).bind ((reads_int32 n).map _)
    | long n => exact (reads_variant nine (n := 3) (by decide)).bind ((reads_int64 n).map _)
    | double bits =>
      exact (reads_variant nine (n := 4) (by decide)).bind ((reads_word64 bits).map _)
    | str s => exact (reads_variant nine (n := 5) (by decide)).bind ((reads_text fits).map _)
    | bytes data => exact (reads_variant nine (n := 6) (by decide)).bind ((reads_bytes fits).map _)
    | list items =>
      rw [layout, layoutAll_eq_flatMap]
      refine (reads_variant nine (n := 7) (by decide)).bind
        ((reads_sequence fits.1 fun v mem => ?_).map _)
      refine (ih (allFit_iff.1 fits.2 v mem)).mono ?_
      simp [Piece.bytes]
      omega
    | listener token =>
      exact (reads_variant nine (n := 8) (by decide)).bind ((token.reads _).map _)

end Value

namespace Arguments

theorem reads {args : Arguments} (fit : args.Fit) {depth bound : Nat} (le : bound ≤ depth) :
    Reads (read depth) bound args.layout args := by
  rw [layout, Value.layoutAll_eq_flatMap]
  exact reads_sequence fit.1 fun v mem => (Value.reads (fit.2 v mem) depth).mono (by omega)

end Arguments

namespace Request

theorem reads {request : Request} (fit : request.args.Fit) {depth bound : Nat}
    (le : bound ≤ depth) : Reads (read depth) bound request.layout request :=
  (reads_int32 request.target).bind ((reads_byte request.method).bind
    ((Arguments.reads fit (by omega)).map _))

end Request

namespace Response

theorem reads {response : Response} (fit : response.args.Fit) {depth bound : Nat}
    (le : bound ≤ depth) : Reads (read depth) bound response.layout response :=
  (response.token.reads _).bind ((reads_byte response.method).bind
    ((Arguments.reads fit (by omega)).map _))

end Response

namespace Binding

theorem reads {binding : Binding} (fits : binding.Fits) (bound : Nat) :
    Reads read bound binding.layout binding :=
  (reads_text fits).bind ((reads_int32 binding.oid).map _)

end Binding

namespace ObjectEvent

theorem reads {event : ObjectEvent} (fits : event.Fits) {depth bound : Nat} (le : bound ≤ depth) :
    Reads (read depth) bound event.layout event := by
  have two : 2 < 256 ^ 4 := by decide
  cases event with
  | attributeChanged target name value =>
    exact (reads_variant two (n := 0) (by decide)).bind ((reads_int32 target).bind
      ((reads_text fits.1).bind (((Value.reads fits.2 depth).mono (by omega)).map _)))
  | message target name args =>
    exact (reads_variant two (n := 1) (by decide)).bind ((reads_int32 target).bind
      ((reads_text fits.1).bind ((Arguments.reads fits.2 (by omega)).map _)))

end ObjectEvent

namespace Message

theorem reads {message : Message} (fits : message.Fits) (depth : Nat) :
    Reads (read depth) depth message.layout message := by
  have nine : 9 < 256 ^ 4 := by decide
  cases message with
  | logon version username =>
    exact (reads_variant nine (n := 0) (by decide)).bind
      ((reads_word32 version).bind ((reads_text fits).map _))
  | invocation request =>
    exact (reads_variant nine (n := 1) (by decide)).bind ((Request.reads fits (by omega)).map _)
  | ping time => exact (reads_variant nine (n := 2) (by decide)).bind ((reads_word64 time).map _)
  | logoff => exact (reads_variant nine (n := 3) (by decide)).bind (.pure _)
  | bootstrap clientOid services =>
    exact (reads_variant nine (n := 4) (by decide)).bind ((reads_int32 clientOid).bind
      ((reads_sequence fits.1 fun binding mem => Binding.reads (fits.2 binding mem) _).map _))
  | response response =>
    exact (reads_variant nine (n := 5) (by decide)).bind ((Response.reads fits (by omega)).map _)
  | event event =>
    exact (reads_variant nine (n := 6) (by decide)).bind ((ObjectEvent.reads fits (by omega)).map _)
  | pong time => exact (reads_variant nine (n := 7) (by decide)).bind ((reads_word64 time).map _)
  | failure reason =>
    exact (reads_variant nine (n := 8) (by decide)).bind ((reads_text fits).map _)

theorem decode_take {message : Message} (fits : message.Fits) {count : Nat}
    (short : count < message.encode.length) :
    decode (message.encode.take count) = .error (message.layout.shortage count) := by
  have length : (message.encode.take count).length = count :=
    List.length_take_of_le (Nat.le_of_lt short)
  rw [← message.bytes_layout] at short
  have missing := (reads fits count).cut count short (Nat.le_refl count)
  rw [message.bytes_layout] at missing
  rw [decode, length, missing]

/-- A message that is cut short anywhere is not read as a message, and nothing but its end is found
fault with. -/
theorem decode_of_cut (message : Message) (fits : message.Fits) {part : Bytes}
    (begins : part <+: message.encode) (proper : part ≠ message.encode) :
    ∃ error, decode part = .error error ∧ error.isTruncation = true ∧
      (message.layout.EndsInText part → error.text = "io error: ") ∧
      (¬ message.layout.EndsInText part → error.text = "io error: unexpected end of file") := by
  have front : message.encode.take part.length = part :=
    (List.prefix_iff_eq_take.1 begins).symm
  have short : part.length < message.encode.length :=
    Nat.lt_of_le_of_ne begins.length_le fun same => proper (begins.eq_of_length same)
  have missing := decode_take fits short
  rw [front] at missing
  have inText := Layout.shortage_eq_textTooShort_iff (message.bytes_layout ▸ short)
  rw [message.bytes_layout, front] at inText
  refine ⟨_, missing, ?_⟩
  obtain ended | tooShort := message.layout.shortage_eq_or part.length
  · rw [ended] at inText ⊢
    exact ⟨rfl, fun inside => (nomatch inText.2 inside), fun _ => rfl⟩
  · rw [tooShort] at inText ⊢
    exact ⟨rfl, fun _ => rfl, fun outside => (outside (inText.1 rfl)).elim⟩

/-- The cut goes through a letter of two bytes, in a text inside two lists. -/
theorem decode_of_cut_letter :
    let message : Message := .response ⟨⟨1000, 7⟩, 2, [.list [.list [.str "é"]], .bool true]⟩
    ∃ error, decode (message.encode.take 58) = .error error ∧ error.text = "io error: " := by
  intro message
  have fits : message.Fits := by
    simp [message, Fits, Arguments.Fit, Value.Fits, Value.AllFit]
    decide
  have proper : message.encode.take 58 ≠ message.encode := by decide +kernel
  have inside : message.layout.EndsInText (message.encode.take 58) :=
    ⟨message.layout.take 10, "é", message.layout.drop 11, [0xC3], by decide +kernel,
      by decide +kernel, by decide +kernel⟩
  obtain ⟨error, missing, -, inText, -⟩ := decode_of_cut message fits (List.take_prefix 58 _) proper
  exact ⟨error, missing, inText inside⟩

end Message

end Parley
