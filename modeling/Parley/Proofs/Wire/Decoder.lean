import Mathlib.Algebra.Group.Nat.Defs
import Parley.Wire.Value

/-! What each decoder accepts.
A decoder that yields a value has taken off exactly the bytes that the writer of such values puts
in front of the rest, and it yields every value that was written so. Both are said at once:
`d input = .ok (a, rest)` holds just when `a` can be written and `input` is `a` in front of
`rest`. -/

namespace Parley.Wire

theorem ofDigits_digits (width n : Nat) : ofDigits (digits width n) = n % 256 ^ width := by
  induction width generalizing n with
  | zero => simp [digits, ofDigits, Nat.mod_one]
  | succ width ih =>
    have h : n % 256 % 256 = n % 256 := Nat.mod_mod n 256
    simp [digits, ofDigits, ih, Nat.pow_succ, Nat.mul_comm (256 ^ width), Nat.mod_mul, h]

theorem ofDigits_lt (ds : Bytes) : ofDigits ds < 256 ^ ds.length := by
  induction ds with
  | nil => simp [ofDigits]
  | cons d ds ih =>
    have hd := d.toNat_lt
    simp only [ofDigits, List.length_cons, Nat.pow_succ]
    omega

namespace Decoder

theorem bind_eq_ok {d : Decoder α} {f : α → Decoder β} {input rest : Bytes} {b : β} :
    (d >>= f) input = .ok (b, rest) ↔
      ∃ a mid, d input = .ok (a, mid) ∧ f a mid = .ok (b, rest) := by
  change Decoder.bind d f input = _ ↔ _
  unfold Decoder.bind
  cases d input with
  | ok r =>
    constructor
    · intro h
      exact ⟨r.1, r.2, rfl, h⟩
    · rintro ⟨a, mid, first, h⟩
      cases first
      exact h
  | error e => simp

theorem pure_eq_ok {a b : α} {input rest : Bytes} :
    (pure a : Decoder α) input = .ok (b, rest) ↔ a = b ∧ input = rest := by
  change Except.ok (a, input) = Except.ok (b, rest) ↔ _
  simp

theorem fail_eq_ok {e : DecodeError} {b : α} {input rest : Bytes} :
    (fail e : Decoder α) input = .ok (b, rest) ↔ False := by
  simp [fail]

theorem take_eq_ok {count : Nat} {short : DecodeError} {input front rest : Bytes} :
    take count short input = .ok (front, rest) ↔ front.length = count ∧ front ++ rest = input := by
  simp only [take, List.splitAt_eq]
  constructor
  · intro h
    split at h
    · rename_i full
      simp only [Except.ok.injEq, Prod.mk.injEq] at h
      obtain ⟨rfl, rfl⟩ := h
      exact ⟨full, List.take_append_drop count input⟩
    · cases h
  · rintro ⟨rfl, rfl⟩
    simp

theorem word_eq_ok {width n : Nat} {input rest : Bytes} :
    word width input = .ok (n, rest) ↔ n < 256 ^ width ∧ writeWord width n rest = input := by
  simp only [word, bind_eq_ok, pure_eq_ok, take_eq_ok, writeWord]
  constructor
  · rintro ⟨front, mid, ⟨rfl, rfl⟩, rfl, rfl⟩
    exact ⟨ofDigits_lt front, by rw [digits_ofDigits]⟩
  · rintro ⟨small, rfl⟩
    exact ⟨digits width n, rest, ⟨digits_length width n, rfl⟩,
      by rw [ofDigits_digits, Nat.mod_eq_of_lt small], rfl⟩

theorem byte_eq_ok {b : UInt8} {input rest : Bytes} :
    byte input = .ok (b, rest) ↔ writeWord 1 b.toNat rest = input := by
  have hb : b.toNat % 256 = b.toNat := Nat.mod_eq_of_lt b.toNat_lt
  cases input with
  | nil => simp [byte, writeWord, digits]
  | cons c tail => simp [byte, writeWord, digits, hb, eq_comm]

theorem boolean_eq_ok {b : Bool} {input rest : Bytes} :
    boolean input = .ok (b, rest) ↔ writeWord 1 b.toNat rest = input := by
  simp only [boolean, bind_eq_ok, byte_eq_ok]
  constructor
  · rintro ⟨c, mid, rfl, h⟩
    split at h
    · obtain ⟨rfl, rfl⟩ := pure_eq_ok.1 h
      simp_all
    · split at h
      · obtain ⟨rfl, rfl⟩ := pure_eq_ok.1 h
        simp_all
      · exact (fail_eq_ok.1 h).elim
  · rintro rfl
    cases b
    · exact ⟨0, rest, rfl, rfl⟩
    · exact ⟨1, rest, rfl, rfl⟩

theorem variant_eq_ok {count n : Nat} {input rest : Bytes} (few : count < 256 ^ 4) :
    variant count input = .ok (n, rest) ↔ n < count ∧ writeWord 4 n rest = input := by
  simp only [variant, bind_eq_ok, word_eq_ok]
  constructor
  · rintro ⟨k, mid, ⟨-, rfl⟩, h⟩
    split at h
    · obtain ⟨rfl, rfl⟩ := pure_eq_ok.1 h
      exact ⟨‹_›, rfl⟩
    · exact (fail_eq_ok.1 h).elim
  · rintro ⟨lt, rfl⟩
    refine ⟨n, rest, ⟨by omega, rfl⟩, ?_⟩
    rw [if_pos lt, pure_eq_ok]
    exact ⟨rfl, rfl⟩

theorem word32_eq_ok {n : UInt32} {input rest : Bytes} :
    word32 input = .ok (n, rest) ↔ writeWord 4 n.toNat rest = input := by
  simp only [word32, bind_eq_ok, word_eq_ok, pure_eq_ok]
  constructor
  · rintro ⟨k, mid, ⟨small, rfl⟩, rfl, rfl⟩
    rw [UInt32.toNat_ofNat_of_lt' small]
  · rintro rfl
    exact ⟨n.toNat, rest, ⟨n.toNat_lt, rfl⟩, UInt32.ofNat_toNat, rfl⟩

theorem word64_eq_ok {n : UInt64} {input rest : Bytes} :
    word64 input = .ok (n, rest) ↔ writeWord 8 n.toNat rest = input := by
  simp only [word64, bind_eq_ok, word_eq_ok, pure_eq_ok]
  constructor
  · rintro ⟨k, mid, ⟨small, rfl⟩, rfl, rfl⟩
    rw [UInt64.toNat_ofNat_of_lt' small]
  · rintro rfl
    exact ⟨n.toNat, rest, ⟨n.toNat_lt, rfl⟩, UInt64.ofNat_toNat, rfl⟩

theorem int32_eq_ok {n : Int32} {input rest : Bytes} :
    int32 input = .ok (n, rest) ↔ writeInt32 n rest = input := by
  simp only [int32, bind_eq_ok, word32_eq_ok, pure_eq_ok, writeInt32]
  constructor
  · rintro ⟨u, mid, rfl, rfl, rfl⟩
    rw [UInt32.toUInt32_toInt32]
  · rintro rfl
    exact ⟨n.toUInt32, rest, rfl, Int32.toInt32_toUInt32 n, rfl⟩

theorem int64_eq_ok {n : Int64} {input rest : Bytes} :
    int64 input = .ok (n, rest) ↔ writeInt64 n rest = input := by
  simp only [int64, bind_eq_ok, word64_eq_ok, pure_eq_ok, writeInt64]
  constructor
  · rintro ⟨u, mid, rfl, rfl, rfl⟩
    rw [UInt64.toUInt64_toInt64]
  · rintro rfl
    exact ⟨n.toUInt64, rest, rfl, Int64.toInt64_toUInt64 n, rfl⟩

theorem bytes_eq_ok {data input rest : Bytes} :
    bytes input = .ok (data, rest) ↔ data.length < 256 ^ 8 ∧ writeBytes data rest = input := by
  simp only [bytes, bind_eq_ok, word_eq_ok, take_eq_ok, writeBytes]
  constructor
  · rintro ⟨count, mid, ⟨small, rfl⟩, rfl, rfl⟩
    exact ⟨small, rfl⟩
  · rintro ⟨small, rfl⟩
    exact ⟨data.length, data ++ rest, ⟨small, rfl⟩, rfl, rfl⟩

theorem text_eq_ok {s : String} {input rest : Bytes} :
    text input = .ok (s, rest) ↔
      (Utf8.encode s).length < 256 ^ 8 ∧ writeText s rest = input := by
  simp only [text, bind_eq_ok, word_eq_ok, take_eq_ok, writeText, writeBytes]
  constructor
  · rintro ⟨count, mid, ⟨small, rfl⟩, front, mid', ⟨rfl, rfl⟩, h⟩
    cases decoded : Utf8.decode front with
    | ok t =>
      rw [decoded] at h
      obtain ⟨rfl, rfl⟩ := pure_eq_ok.1 h
      rw [Utf8.encode_of_decode decoded]
      exact ⟨small, rfl⟩
    | error fault =>
      rw [decoded] at h
      exact (fail_eq_ok.1 h).elim
  · rintro ⟨small, rfl⟩
    refine ⟨_, _, ⟨small, rfl⟩, Utf8.encode s, rest, ⟨rfl, rfl⟩, ?_⟩
    rw [Utf8.decode_encode]
    exact pure_eq_ok.2 ⟨rfl, rfl⟩

section Sequence

variable {item : Decoder α} {write : α → Bytes → Bytes} {fits : α → Prop}
  (exact : ∀ {a input rest}, item input = .ok (a, rest) ↔ fits a ∧ write a rest = input)
include exact

theorem timesOnto_eq_ok {count : Nat} {taken as : List α} {input rest : Bytes} :
    timesOnto item taken count input = .ok (as, rest) ↔
      ∃ items, as = taken.reverse ++ items ∧ items.length = count ∧
        (∀ a ∈ items, fits a) ∧ items.foldr write rest = input := by
  induction count generalizing taken input with
  | zero =>
    simp only [timesOnto, List.length_eq_zero_iff]
    constructor
    · intro h
      cases h
      exact ⟨[], by simp, rfl, by simp, rfl⟩
    · rintro ⟨_, rfl, rfl, -, rfl⟩
      simp [Decoder.pure]
  | succ count ih =>
    simp only [timesOnto]
    constructor
    · intro h
      split at h
      · rename_i a mid first
        obtain ⟨items, rfl, rfl, fit, rfl⟩ := ih.1 h
        obtain ⟨fit', rfl⟩ := exact.1 first
        exact ⟨a :: items, by simp, rfl, by simpa using ⟨fit', fit⟩, rfl⟩
      · cases h
    · rintro ⟨items, rfl, len, fit, rfl⟩
      cases items with
      | nil => cases len
      | cons a items =>
        rw [List.forall_mem_cons] at fit
        have first : item (write a (items.foldr write rest)) = _ := exact.2 ⟨fit.1, rfl⟩
        simp only [List.foldr_cons, first]
        exact ih.2 ⟨items, by simp, by simpa using len, fit.2, rfl⟩

theorem sequence_eq_ok {as : List α} {input rest : Bytes} :
    sequence item input = .ok (as, rest) ↔
      (as.length < 256 ^ 8 ∧ ∀ a ∈ as, fits a) ∧
        writeWord 8 as.length (as.foldr write rest) = input := by
  simp only [sequence, bind_eq_ok, word_eq_ok, timesOnto_eq_ok exact]
  constructor
  · rintro ⟨count, mid, ⟨small, rfl⟩, items, rfl, rfl, fit, rfl⟩
    exact ⟨⟨small, fit⟩, rfl⟩
  · rintro ⟨⟨small, fit⟩, rfl⟩
    exact ⟨_, _, ⟨small, rfl⟩, as, rfl, rfl, fit, rfl⟩

end Sequence

end Decoder

end Parley.Wire
