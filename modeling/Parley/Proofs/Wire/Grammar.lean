import Parley.Proofs.Wire.Decoder
import Parley.Wire.Frame

/-! The grammar of messages: which byte strings are messages, and which message each one is.
`Message.decode` yields a message just when the input begins with its encoding, and every message
whose lengths can be written down is read back from its encoding, whatever stands behind it. -/

namespace Parley

open Wire Decoder

namespace Wire

abbrev Enumerable (n : Nat) : Prop := n < 256 ^ 8

theorem writeWord_append (width n : Nat) (a b : Bytes) :
    writeWord width n (a ++ b) = writeWord width n a ++ b := by
  simp only [writeWord, List.append_assoc]

theorem writeBytes_append (data a b : Bytes) :
    writeBytes data (a ++ b) = writeBytes data a ++ b := by
  simp only [writeBytes, writeWord, List.append_assoc]

theorem writeText_append (s : String) (a b : Bytes) :
    writeText s (a ++ b) = writeText s a ++ b := writeBytes_append _ a b

theorem writeInt32_append (n : Int32) (a b : Bytes) :
    writeInt32 n (a ++ b) = writeInt32 n a ++ b := writeWord_append _ _ a b

theorem writeInt64_append (n : Int64) (a b : Bytes) :
    writeInt64 n (a ++ b) = writeInt64 n a ++ b := writeWord_append _ _ a b

theorem length_writeWord (width n : Nat) (rest : Bytes) :
    (writeWord width n rest).length = width + rest.length := by
  rw [writeWord, List.length_append, digits_length]

end Wire

namespace Token

theorem write_append (token : Token) (a b : Bytes) :
    token.write (a ++ b) = token.write a ++ b := by
  rw [write, writeWord_append, writeInt32_append, write]

theorem read_eq_ok {token : Token} {input rest : Bytes} :
    read input = .ok (token, rest) ↔ token.write rest = input := by
  simp only [read, bind_eq_ok, int32_eq_ok, word32_eq_ok, pure_eq_ok, write]
  refine ⟨fun h => ?_, fun h => ?_⟩
  · obtain ⟨callerOid, _, rfl, requestId, _, rfl, rfl, rfl⟩ := h
    rfl
  · exact ⟨token.callerOid, _, h, token.requestId, rest, rfl, rfl, rfl⟩

end Token

namespace Value

mutual

/-- All lengths inside a value can be written down. -/
def Fits : Value → Prop
  | .str s => Enumerable (Utf8.encode s).length
  | .bytes data => Enumerable data.length
  | .list items => Enumerable items.length ∧ AllFit items
  | _ => True

def AllFit : List Value → Prop
  | [] => True
  | v :: vs => v.Fits ∧ AllFit vs

end

mutual

/-- How many readers of values are under way at once while a value is read. -/
def height : Value → Nat
  | .list items => tallest items + 1
  | _ => 1

def tallest : List Value → Nat
  | [] => 0
  | v :: vs => max v.height (tallest vs)

end

theorem allFit_iff {vs : List Value} : AllFit vs ↔ ∀ v ∈ vs, v.Fits := by
  induction vs with
  | nil => simp [AllFit]
  | cons v vs ih => rw [AllFit, ih, List.forall_mem_cons]

theorem tallest_le_iff {vs : List Value} {n : Nat} : tallest vs ≤ n ↔ ∀ v ∈ vs, v.height ≤ n := by
  induction vs with
  | nil => simp [tallest]
  | cons v vs ih => rw [tallest, Nat.max_le, ih, List.forall_mem_cons]

theorem foldr_write (vs : List Value) (rest : Bytes) : vs.foldr write rest = writeAll vs rest := by
  induction vs with
  | nil => rw [writeAll, List.foldr_nil]
  | cons v vs ih => rw [writeAll, List.foldr_cons, ih]

theorem one_le_height (v : Value) : 1 ≤ v.height := by
  cases v <;> simp [height]

mutual

theorem write_append (v : Value) (a b : Bytes) : v.write (a ++ b) = v.write a ++ b := by
  cases v with
  | list items =>
    simp only [write, writeAll_append items a b, writeWord_append]
  | _ =>
    simp only [write, writeWord_append, writeInt32_append, writeInt64_append, writeText_append,
      writeBytes_append, Token.write_append]

theorem writeAll_append (vs : List Value) (a b : Bytes) :
    writeAll vs (a ++ b) = writeAll vs a ++ b := by
  cases vs with
  | nil => rw [writeAll, writeAll]
  | cons v vs => rw [writeAll, writeAll_append vs a b, write_append v, writeAll]

end

mutual

/-- Every reader that is under way has taken bytes, so a value is not taller than its encoding
is long. -/
theorem height_le_length (v : Value) (rest : Bytes) :
    v.height + rest.length ≤ (v.write rest).length := by
  cases v with
  | list items =>
    have inner := tallest_le_length items rest
    simp only [height, write, length_writeWord]
    omega
  | _ => simp [height, write, writeWord, writeBytes, writeText, writeInt32, writeInt64,
      Token.write] <;> omega

theorem tallest_le_length (vs : List Value) (rest : Bytes) :
    tallest vs + rest.length ≤ (writeAll vs rest).length := by
  cases vs with
  | nil => simp [tallest, writeAll]
  | cons v vs =>
    have first := height_le_length v (writeAll vs rest)
    have others := tallest_le_length vs rest
    rw [tallest, writeAll]
    omega

end

theorem length_write (v : Value) (rest : Bytes) :
    (v.write rest).length = (v.write []).length + rest.length := by
  rw [← List.length_append, ← write_append, List.nil_append]

theorem length_write_le_writeAll {v : Value} {vs : List Value} (mem : v ∈ vs) (rest : Bytes) :
    (v.write rest).length ≤ (writeAll vs rest).length := by
  induction vs with
  | nil => cases mem
  | cons w vs ih =>
    have behind := tallest_le_length vs rest
    rw [writeAll]
    obtain rfl | mem := List.mem_cons.1 mem
    · rw [length_write v rest, length_write v (writeAll vs rest)]
      omega
    · have first := height_le_length w (writeAll vs rest)
      have among := ih mem
      omega

section Deeper

variable {depth : Nat}
  (ih : ∀ {v : Value} {input rest : Bytes},
    read depth input = .ok (v, rest) ↔ (v.Fits ∧ v.height ≤ depth) ∧ v.write rest = input)

include ih

theorem of_read_succ {v : Value} {input rest : Bytes} (h : read (depth + 1) input = .ok (v, rest)) :
    (v.Fits ∧ v.height ≤ depth + 1) ∧ v.write rest = input := by
  have nine : 9 < 256 ^ 4 := by decide
  have low : 1 ≤ depth + 1 := by omega
  simp only [read, bind_eq_ok, variant_eq_ok nine] at h
  -- the number of the alternative decides which contents were read
  obtain ⟨n, mid, ⟨lt, rfl⟩, h⟩ := h
  match n, lt, h with
  | 0, _, h =>
    obtain ⟨rfl, rfl⟩ := pure_eq_ok.1 h
    exact ⟨⟨trivial, low⟩, by rw [write]⟩
  | 1, _, h =>
    simp only [bind_eq_ok, boolean_eq_ok, pure_eq_ok] at h
    obtain ⟨b, _, rfl, rfl, rfl⟩ := h
    exact ⟨⟨trivial, low⟩, by rw [write]⟩
  | 2, _, h =>
    simp only [bind_eq_ok, int32_eq_ok, pure_eq_ok] at h
    obtain ⟨m, _, rfl, rfl, rfl⟩ := h
    exact ⟨⟨trivial, low⟩, by rw [write]⟩
  | 3, _, h =>
    simp only [bind_eq_ok, int64_eq_ok, pure_eq_ok] at h
    obtain ⟨m, _, rfl, rfl, rfl⟩ := h
    exact ⟨⟨trivial, low⟩, by rw [write]⟩
  | 4, _, h =>
    simp only [bind_eq_ok, word64_eq_ok, pure_eq_ok] at h
    obtain ⟨bits, _, rfl, rfl, rfl⟩ := h
    exact ⟨⟨trivial, low⟩, by rw [write]⟩
  | 5, _, h =>
    simp only [bind_eq_ok, text_eq_ok, pure_eq_ok] at h
    obtain ⟨s, _, ⟨small, rfl⟩, rfl, rfl⟩ := h
    exact ⟨⟨small, low⟩, by rw [write]⟩
  | 6, _, h =>
    simp only [bind_eq_ok, bytes_eq_ok, pure_eq_ok] at h
    obtain ⟨data, _, ⟨small, rfl⟩, rfl, rfl⟩ := h
    exact ⟨⟨small, low⟩, by rw [write]⟩
  | 7, _, h =>
    simp only [bind_eq_ok, sequence_eq_ok ih, pure_eq_ok] at h
    obtain ⟨items, _, ⟨⟨small, fit⟩, rfl⟩, rfl, rfl⟩ := h
    have flat : tallest items ≤ depth := tallest_le_iff.2 fun v hv => (fit v hv).2
    refine ⟨⟨⟨small, allFit_iff.2 fun v hv => (fit v hv).1⟩, ?_⟩, ?_⟩
    · rw [height]
      omega
    · rw [write, foldr_write]
  | 8, _, h =>
    simp only [bind_eq_ok, Token.read_eq_ok, pure_eq_ok] at h
    obtain ⟨token, _, rfl, rfl, rfl⟩ := h
    exact ⟨⟨trivial, low⟩, by rw [write]⟩

theorem read_succ_write {v : Value} (rest : Bytes) (fits : v.Fits) (le : v.height ≤ depth + 1) :
    read (depth + 1) (v.write rest) = .ok (v, rest) := by
  have nine : 9 < 256 ^ 4 := by decide
  simp only [read, bind_eq_ok, variant_eq_ok nine]
  cases v with
  | null => exact ⟨0, _, ⟨by decide, rfl⟩, pure_eq_ok.2 ⟨rfl, rfl⟩⟩
  | bool b =>
    refine ⟨1, _, ⟨by decide, rfl⟩, ?_⟩
    simp only [bind_eq_ok, boolean_eq_ok, pure_eq_ok]
    exact ⟨b, rest, rfl, rfl, rfl⟩
  | int m =>
    refine ⟨2, _, ⟨by decide, rfl⟩, ?_⟩
    simp only [bind_eq_ok, int32_eq_ok, pure_eq_ok]
    exact ⟨m, rest, rfl, rfl, rfl⟩
  | long m =>
    refine ⟨3, _, ⟨by decide, rfl⟩, ?_⟩
    simp only [bind_eq_ok, int64_eq_ok, pure_eq_ok]
    exact ⟨m, rest, rfl, rfl, rfl⟩
  | double bits =>
    refine ⟨4, _, ⟨by decide, rfl⟩, ?_⟩
    simp only [bind_eq_ok, word64_eq_ok, pure_eq_ok]
    exact ⟨bits, rest, rfl, rfl, rfl⟩
  | str s =>
    refine ⟨5, _, ⟨by decide, rfl⟩, ?_⟩
    simp only [bind_eq_ok, text_eq_ok, pure_eq_ok]
    exact ⟨s, rest, ⟨fits, rfl⟩, rfl, rfl⟩
  | bytes data =>
    refine ⟨6, _, ⟨by decide, rfl⟩, ?_⟩
    simp only [bind_eq_ok, bytes_eq_ok, pure_eq_ok]
    exact ⟨data, rest, ⟨fits, rfl⟩, rfl, rfl⟩
  | list items =>
    have flat : tallest items ≤ depth := by
      rw [height] at le
      omega
    refine ⟨7, _, ⟨by decide, rfl⟩, ?_⟩
    simp only [bind_eq_ok, sequence_eq_ok ih, pure_eq_ok]
    refine ⟨items, rest, ⟨⟨fits.1, fun v hv => ?_⟩, ?_⟩, rfl, rfl⟩
    · exact ⟨allFit_iff.1 fits.2 v hv, tallest_le_iff.1 flat v hv⟩
    · rw [foldr_write]
  | listener token =>
    refine ⟨8, _, ⟨by decide, rfl⟩, ?_⟩
    simp only [bind_eq_ok, Token.read_eq_ok, pure_eq_ok]
    exact ⟨token, rest, rfl, rfl, rfl⟩

end Deeper

theorem read_eq_ok {depth : Nat} {v : Value} {input rest : Bytes} :
    read depth input = .ok (v, rest) ↔ (v.Fits ∧ v.height ≤ depth) ∧ v.write rest = input := by
  induction depth generalizing v input rest with
  | zero =>
    have tall := v.one_le_height
    rw [read, fail_eq_ok]
    refine ⟨False.elim, fun h => ?_⟩
    omega
  | succ depth ih =>
    refine ⟨of_read_succ ih, fun h => ?_⟩
    obtain ⟨⟨fits, le⟩, rfl⟩ := h
    exact read_succ_write ih rest fits le

end Value

namespace Arguments

def Fit (args : Arguments) : Prop := Enumerable args.length ∧ ∀ v ∈ args, v.Fits

theorem write_append (args : Arguments) (a b : Bytes) :
    args.write (a ++ b) = args.write a ++ b := by
  rw [write, Value.writeAll_append, writeWord_append, write]

theorem read_eq_ok {depth : Nat} {args : Arguments} {input rest : Bytes} :
    read depth input = .ok (args, rest) ↔
      (args.Fit ∧ ∀ v ∈ args, v.height ≤ depth) ∧ args.write rest = input := by
  rw [read, sequence_eq_ok Value.read_eq_ok, Value.foldr_write, Fit, write]
  simp only [imp_and, forall_and, and_assoc]

end Arguments

namespace Request

theorem write_append (request : Request) (a b : Bytes) :
    request.write (a ++ b) = request.write a ++ b := by
  rw [write, Arguments.write_append, writeWord_append, writeInt32_append, write]

theorem read_eq_ok {depth : Nat} {request : Request} {input rest : Bytes} :
    read depth input = .ok (request, rest) ↔
      (request.args.Fit ∧ ∀ v ∈ request.args, v.height ≤ depth) ∧ request.write rest = input := by
  simp only [read, bind_eq_ok, int32_eq_ok, byte_eq_ok, Arguments.read_eq_ok, pure_eq_ok, write]
  refine ⟨fun h => ?_, fun h => ?_⟩
  · obtain ⟨target, _, rfl, method, _, rfl, args, _, ⟨fit, rfl⟩, rfl, rfl⟩ := h
    exact ⟨fit, rfl⟩
  · exact ⟨request.target, _, h.2, request.method, _, rfl, request.args, rest, ⟨h.1, rfl⟩, rfl, rfl⟩

end Request

namespace Response

theorem write_append (response : Response) (a b : Bytes) :
    response.write (a ++ b) = response.write a ++ b := by
  rw [write, Arguments.write_append, writeWord_append, Token.write_append, write]

theorem read_eq_ok {depth : Nat} {response : Response} {input rest : Bytes} :
    read depth input = .ok (response, rest) ↔
      (response.args.Fit ∧ ∀ v ∈ response.args, v.height ≤ depth) ∧
        response.write rest = input := by
  simp only [read, bind_eq_ok, Token.read_eq_ok, byte_eq_ok, Arguments.read_eq_ok, pure_eq_ok,
    write]
  refine ⟨fun h => ?_, fun h => ?_⟩
  · obtain ⟨token, _, rfl, method, _, rfl, args, _, ⟨fit, rfl⟩, rfl, rfl⟩ := h
    exact ⟨fit, rfl⟩
  · exact ⟨response.token, _, h.2, response.method, _, rfl, response.args, rest, ⟨h.1, rfl⟩, rfl,
      rfl⟩

end Response

namespace Binding

def Fits (binding : Binding) : Prop := Enumerable (Utf8.encode binding.service).length

theorem write_append (binding : Binding) (a b : Bytes) :
    binding.write (a ++ b) = binding.write a ++ b := by
  rw [write, writeInt32_append, writeText_append, write]

theorem writeAll_append (bindings : List Binding) (a b : Bytes) :
    writeAll bindings (a ++ b) = writeAll bindings a ++ b := by
  induction bindings with
  | nil => rfl
  | cons first rest ih =>
    change first.write (writeAll rest (a ++ b)) = first.write (writeAll rest a) ++ b
    rw [ih, write_append]

theorem read_eq_ok {binding : Binding} {input rest : Bytes} :
    read input = .ok (binding, rest) ↔ binding.Fits ∧ binding.write rest = input := by
  simp only [read, bind_eq_ok, text_eq_ok, int32_eq_ok, pure_eq_ok, write]
  refine ⟨fun h => ?_, fun h => ?_⟩
  · obtain ⟨service, _, ⟨small, rfl⟩, oid, _, rfl, rfl, rfl⟩ := h
    exact ⟨small, rfl⟩
  · exact ⟨binding.service, _, h, binding.oid, rest, rfl, rfl, rfl⟩

end Binding

namespace ObjectEvent

def Fits : ObjectEvent → Prop
  | .attributeChanged _ name value => Enumerable (Utf8.encode name).length ∧ value.Fits
  | .message _ name args => Enumerable (Utf8.encode name).length ∧ args.Fit

def values : ObjectEvent → List Value
  | .attributeChanged _ _ value => [value]
  | .message _ _ args => args

theorem write_append (event : ObjectEvent) (a b : Bytes) :
    event.write (a ++ b) = event.write a ++ b := by
  cases event <;> simp only [write, Value.write_append, Arguments.write_append, writeText_append,
    writeInt32_append, writeWord_append]

theorem read_eq_ok {depth : Nat} {event : ObjectEvent} {input rest : Bytes} :
    read depth input = .ok (event, rest) ↔
      (event.Fits ∧ ∀ v ∈ event.values, v.height ≤ depth) ∧ event.write rest = input := by
  have two : 2 < 256 ^ 4 := by decide
  simp only [read, bind_eq_ok, variant_eq_ok two]
  refine ⟨fun h => ?_, fun h => ?_⟩
  · obtain ⟨n, mid, ⟨lt, rfl⟩, h⟩ := h
    match n, lt, h with
    | 0, _, h =>
      simp only [bind_eq_ok, int32_eq_ok, text_eq_ok, Value.read_eq_ok, pure_eq_ok] at h
      obtain ⟨target, _, rfl, name, _, ⟨small, rfl⟩, value, _, ⟨⟨fits, low⟩, rfl⟩, rfl, rfl⟩ := h
      exact ⟨⟨⟨small, fits⟩, by simpa only [values, List.forall_mem_singleton]⟩, rfl⟩
    | 1, _, h =>
      simp only [bind_eq_ok, int32_eq_ok, text_eq_ok, Arguments.read_eq_ok, pure_eq_ok] at h
      obtain ⟨target, _, rfl, name, _, ⟨small, rfl⟩, args, _, ⟨⟨fits, low⟩, rfl⟩, rfl, rfl⟩ := h
      exact ⟨⟨⟨small, fits⟩, low⟩, rfl⟩
  · obtain ⟨⟨fits, low⟩, rfl⟩ := h
    cases event with
    | attributeChanged target name value =>
      obtain ⟨small, fits⟩ := fits
      have low : value.height ≤ depth := low value (by simp [values])
      refine ⟨0, _, ⟨by decide, rfl⟩, ?_⟩
      simp only [bind_eq_ok, int32_eq_ok, text_eq_ok, Value.read_eq_ok, pure_eq_ok]
      exact ⟨target, _, rfl, name, _, ⟨small, rfl⟩, value, rest, ⟨⟨fits, low⟩, rfl⟩, rfl, rfl⟩
    | message target name args =>
      obtain ⟨small, fits⟩ := fits
      refine ⟨1, _, ⟨by decide, rfl⟩, ?_⟩
      simp only [bind_eq_ok, int32_eq_ok, text_eq_ok, Arguments.read_eq_ok, pure_eq_ok]
      exact ⟨target, _, rfl, name, _, ⟨small, rfl⟩, args, rest, ⟨⟨fits, low⟩, rfl⟩, rfl, rfl⟩

end ObjectEvent

namespace Message

/-- All lengths inside a message can be written down. -/
def Fits : Message → Prop
  | .logon _ username => Enumerable (Utf8.encode username).length
  | .invocation r => r.args.Fit
  | .bootstrap _ services => Enumerable services.length ∧ ∀ binding ∈ services, binding.Fits
  | .response r => r.args.Fit
  | .event e => e.Fits
  | .failure reason => Enumerable (Utf8.encode reason).length
  | _ => True

def values : Message → List Value
  | .invocation r => r.args
  | .response r => r.args
  | .event e => e.values
  | _ => []

theorem write_append (message : Message) (a b : Bytes) :
    message.write (a ++ b) = message.write a ++ b := by
  cases message <;> simp only [write, Request.write_append, Response.write_append,
    ObjectEvent.write_append, Binding.writeAll_append, writeText_append, writeInt32_append,
    writeWord_append]

theorem write_eq_append (message : Message) (rest : Bytes) :
    message.write rest = message.encode ++ rest := by
  rw [encode, ← write_append, List.nil_append]

theorem of_read {depth : Nat} {message : Message} {input rest : Bytes}
    (h : read depth input = .ok (message, rest)) :
    (message.Fits ∧ ∀ v ∈ message.values, v.height ≤ depth) ∧ message.write rest = input := by
  have nine : 9 < 256 ^ 4 := by decide
  have none (depth : Nat) : ∀ v ∈ ([] : List Value), v.height ≤ depth := by simp
  simp only [read, bind_eq_ok, variant_eq_ok nine] at h
  obtain ⟨n, mid, ⟨lt, rfl⟩, h⟩ := h
  match n, lt, h with
  | 0, _, h =>
    simp only [bind_eq_ok, word32_eq_ok, text_eq_ok, pure_eq_ok] at h
    obtain ⟨version, _, rfl, username, _, ⟨small, rfl⟩, rfl, rfl⟩ := h
    exact ⟨⟨small, none _⟩, rfl⟩
  | 1, _, h =>
    simp only [bind_eq_ok, Request.read_eq_ok, pure_eq_ok] at h
    obtain ⟨request, _, ⟨fits, rfl⟩, rfl, rfl⟩ := h
    exact ⟨fits, rfl⟩
  | 2, _, h =>
    simp only [bind_eq_ok, word64_eq_ok, pure_eq_ok] at h
    obtain ⟨time, _, rfl, rfl, rfl⟩ := h
    exact ⟨⟨trivial, none _⟩, rfl⟩
  | 3, _, h =>
    obtain ⟨rfl, rfl⟩ := pure_eq_ok.1 h
    exact ⟨⟨trivial, none _⟩, rfl⟩
  | 4, _, h =>
    simp only [bind_eq_ok, int32_eq_ok, sequence_eq_ok Binding.read_eq_ok, pure_eq_ok] at h
    obtain ⟨oid, _, rfl, services, _, ⟨fits, rfl⟩, rfl, rfl⟩ := h
    exact ⟨⟨fits, none _⟩, rfl⟩
  | 5, _, h =>
    simp only [bind_eq_ok, Response.read_eq_ok, pure_eq_ok] at h
    obtain ⟨response, _, ⟨fits, rfl⟩, rfl, rfl⟩ := h
    exact ⟨fits, rfl⟩
  | 6, _, h =>
    simp only [bind_eq_ok, ObjectEvent.read_eq_ok, pure_eq_ok] at h
    obtain ⟨event, _, ⟨fits, rfl⟩, rfl, rfl⟩ := h
    exact ⟨fits, rfl⟩
  | 7, _, h =>
    simp only [bind_eq_ok, word64_eq_ok, pure_eq_ok] at h
    obtain ⟨time, _, rfl, rfl, rfl⟩ := h
    exact ⟨⟨trivial, none _⟩, rfl⟩
  | 8, _, h =>
    simp only [bind_eq_ok, text_eq_ok, pure_eq_ok] at h
    obtain ⟨reason, _, ⟨small, rfl⟩, rfl, rfl⟩ := h
    exact ⟨⟨small, none _⟩, rfl⟩

theorem read_write {depth : Nat} {message : Message} (rest : Bytes) (fits : message.Fits)
    (low : ∀ v ∈ message.values, v.height ≤ depth) :
    read depth (message.write rest) = .ok (message, rest) := by
  have nine : 9 < 256 ^ 4 := by decide
  simp only [read, bind_eq_ok, variant_eq_ok nine]
  cases message with
  | logon version username =>
    refine ⟨0, _, ⟨by decide, rfl⟩, ?_⟩
    simp only [bind_eq_ok, word32_eq_ok, text_eq_ok, pure_eq_ok]
    exact ⟨version, _, rfl, username, rest, ⟨fits, rfl⟩, rfl, rfl⟩
  | invocation request =>
    refine ⟨1, _, ⟨by decide, rfl⟩, ?_⟩
    simp only [bind_eq_ok, Request.read_eq_ok, pure_eq_ok]
    exact ⟨request, rest, ⟨⟨fits, low⟩, rfl⟩, rfl, rfl⟩
  | ping time =>
    refine ⟨2, _, ⟨by decide, rfl⟩, ?_⟩
    simp only [bind_eq_ok, word64_eq_ok, pure_eq_ok]
    exact ⟨time, rest, rfl, rfl, rfl⟩
  | logoff => exact ⟨3, _, ⟨by decide, rfl⟩, pure_eq_ok.2 ⟨rfl, rfl⟩⟩
  | bootstrap oid services =>
    refine ⟨4, _, ⟨by decide, rfl⟩, ?_⟩
    simp only [bind_eq_ok, int32_eq_ok, sequence_eq_ok Binding.read_eq_ok, pure_eq_ok]
    exact ⟨oid, _, rfl, services, rest, ⟨fits, rfl⟩, rfl, rfl⟩
  | response response =>
    refine ⟨5, _, ⟨by decide, rfl⟩, ?_⟩
    simp only [bind_eq_ok, Response.read_eq_ok, pure_eq_ok]
    exact ⟨response, rest, ⟨⟨fits, low⟩, rfl⟩, rfl, rfl⟩
  | event event =>
    refine ⟨6, _, ⟨by decide, rfl⟩, ?_⟩
    simp only [bind_eq_ok, ObjectEvent.read_eq_ok, pure_eq_ok]
    exact ⟨event, rest, ⟨⟨fits, low⟩, rfl⟩, rfl, rfl⟩
  | pong time =>
    refine ⟨7, _, ⟨by decide, rfl⟩, ?_⟩
    simp only [bind_eq_ok, word64_eq_ok, pure_eq_ok]
    exact ⟨time, rest, rfl, rfl, rfl⟩
  | failure reason =>
    refine ⟨8, _, ⟨by decide, rfl⟩, ?_⟩
    simp only [bind_eq_ok, text_eq_ok, pure_eq_ok]
    exact ⟨reason, rest, ⟨fits, rfl⟩, rfl, rfl⟩

theorem read_eq_ok {depth : Nat} {message : Message} {input rest : Bytes} :
    read depth input = .ok (message, rest) ↔
      (message.Fits ∧ ∀ v ∈ message.values, v.height ≤ depth) ∧ message.write rest = input := by
  refine ⟨of_read, fun h => ?_⟩
  obtain ⟨⟨fits, low⟩, rfl⟩ := h
  exact read_write rest fits low

theorem length_write_le {message : Message} {v : Value} (mem : v ∈ message.values) :
    (v.write []).length ≤ message.encode.length := by
  have inArgs (args : Arguments) (mem : v ∈ args) :
      (v.write []).length ≤ (args.write []).length := by
    have among := Value.length_write_le_writeAll mem []
    rw [Arguments.write, length_writeWord]
    omega
  cases message with
  | invocation r =>
    have long := inArgs r.args mem
    simp only [encode, write, Request.write, writeInt32, length_writeWord]
    omega
  | response r =>
    have long := inArgs r.args mem
    simp only [encode, write, Response.write, Token.write, writeInt32, length_writeWord]
    omega
  | event e =>
    cases e with
    | attributeChanged target name value =>
      obtain rfl := List.mem_singleton.1 mem
      simp only [encode, write, ObjectEvent.write, writeText, writeBytes, writeInt32,
        length_writeWord, List.length_append]
      omega
    | message target name args =>
      have long := inArgs args mem
      simp only [encode, write, ObjectEvent.write, writeText, writeBytes, writeInt32,
        length_writeWord, List.length_append]
      omega
  | _ => cases mem

theorem height_le_length {message : Message} {v : Value} (mem : v ∈ message.values) :
    v.height ≤ message.encode.length :=
  Nat.le_trans (v.height_le_length []) (length_write_le mem)

theorem decode_eq_ok {body : Bytes} {message : Message} :
    decode body = .ok message ↔ message.Fits ∧ message.encode <+: body := by
  have reads : decode body = .ok message ↔
      ∃ rest, read body.length body = .ok (message, rest) := by
    unfold decode
    cases read body.length body with
    | ok r =>
      refine ⟨fun h => ⟨r.2, ?_⟩, fun h => ?_⟩
      · cases h
        rfl
      · obtain ⟨rest, h⟩ := h
        cases h
        rfl
    | error e => simp
  rw [reads]
  simp only [read_eq_ok]
  refine ⟨fun h => ?_, fun h => ?_⟩
  · obtain ⟨rest, ⟨fits, -⟩, rfl⟩ := h
    exact ⟨fits, rest, (message.write_eq_append rest).symm⟩
  · obtain ⟨fits, rest, rfl⟩ := h
    refine ⟨rest, ⟨fits, fun v mem => ?_⟩, message.write_eq_append rest⟩
    have low := height_le_length mem
    rw [List.length_append]
    omega

/-- No encoding goes on where another ends. -/
theorem eq_of_begins {message other : Message} (fits : message.Fits) (fits' : other.Fits)
    (begins : message.encode <+: other.encode) : message = other := by
  have first : decode other.encode = .ok message := decode_eq_ok.2 ⟨fits, begins⟩
  rw [decode_eq_ok.2 ⟨fits', List.prefix_refl _⟩] at first
  exact (Except.ok.inj first).symm

end Message

end Parley
