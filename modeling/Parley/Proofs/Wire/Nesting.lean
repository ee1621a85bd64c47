import Parley.Proofs.Wire.Grammar

/-! How deep lists can be nested inside a message.
Every list takes twelve bytes in front of its items, the number of its alternative and its length,
so a message of `n` bytes holds no lists that are nested more than `n / 12` deep. There is no other
limit: lists of one item reach that depth but for a few bytes. -/

namespace Parley

open Wire

namespace Value

/-- The first value is the second or stands somewhere inside it. -/
inductive Within : Value → Value → Prop where
  | self (v : Value) : Within v v
  | item {v item : Value} {items : List Value} (mem : item ∈ items) (inner : Within v item) :
      Within v (.list items)

theorem depth_list (items : List Value) : (list items).depth = 1 + deepest 0 items := by
  rw [depth]

theorem deepest_le_iff {least n : Nat} {vs : List Value} :
    deepest least vs ≤ n ↔ least ≤ n ∧ ∀ v ∈ vs, v.depth ≤ n := by
  induction vs generalizing least with
  | nil => simp [deepest]
  | cons v vs ih => rw [deepest, ih, Nat.max_le, List.forall_mem_cons, and_assoc]

theorem Within.depth_le {v w : Value} (within : Within v w) : v.depth ≤ w.depth := by
  induction within with
  | self => exact Nat.le_refl _
  | @item item items mem inner ih =>
    have among := (deepest_le_iff.1 (Nat.le_refl (deepest 0 items))).2 item mem
    rw [depth_list]
    omega

mutual

theorem depth_le_length (v : Value) (rest : Bytes) :
    12 * v.depth + rest.length ≤ (v.write rest).length := by
  have long := length_write v rest
  cases v with
  | list items =>
    have inner := deepest_le_length 0 items rest
    have behind := tallest_le_length items rest
    rw [depth_list, write, length_writeWord, length_writeWord]
    omega
  | _ =>
    simp only [depth]
    omega

theorem deepest_le_length (least : Nat) (vs : List Value) (rest : Bytes) :
    12 * deepest least vs + rest.length ≤
      max (12 * least + rest.length) (writeAll vs rest).length := by
  cases vs with
  | nil =>
    rw [deepest]
    omega
  | cons v vs =>
    have first := depth_le_length v (writeAll vs rest)
    have others := deepest_le_length (max least v.depth) vs rest
    have behind := tallest_le_length vs rest
    rw [deepest, writeAll]
    omega

end

def nest : Nat → Value
  | 0 => .null
  | d + 1 => .list [nest d]

theorem depth_nest (d : Nat) : (nest d).depth = d := by
  induction d with
  | zero => rfl
  | succ d ih =>
    rw [nest, depth_list, deepest, deepest, ih]
    omega

theorem length_write_nest (d : Nat) (rest : Bytes) :
    ((nest d).write rest).length = 12 * d + 4 + rest.length := by
  induction d with
  | zero => rw [nest, write, length_writeWord]
  | succ d ih =>
    rw [nest, write, length_writeWord, length_writeWord, writeAll, writeAll, ih]
    omega

theorem fits_nest (d : Nat) : (nest d).Fits := by
  induction d with
  | zero => trivial
  | succ d ih => exact ⟨(by decide : Enumerable 1), ih, trivial⟩

end Value

namespace Message

theorem depth_le_length {message : Message} {v w : Value} (carried : w ∈ message.values)
    (within : v.Within w) : 12 * v.depth ≤ message.encode.length := by
  have inner := within.depth_le
  have outer := w.depth_le_length []
  have whole := length_write_le carried
  omega

def nestedCall (d : Nat) : Request := ⟨1, 1, [.nest d]⟩

theorem length_nestedCall (d : Nat) : (invocation (nestedCall d)).encode.length = 12 * d + 21 := by
  rw [encode, write, nestedCall, Request.write, writeInt32, Arguments.write, length_writeWord,
    length_writeWord, length_writeWord, length_writeWord, Value.writeAll, Value.writeAll,
    Value.length_write_nest, List.length_nil]
  omega

theorem decode_nestedCall (d : Nat) :
    decode (invocation (nestedCall d)).encode = .ok (.invocation (nestedCall d)) := by
  refine decode_eq_ok.2 ⟨⟨(by decide : Enumerable 1), ?_⟩, List.prefix_refl _⟩
  exact List.forall_mem_singleton.2 (Value.fits_nest d)

/-- Twelve times the depth of whatever a message carries is no more than the length of its body, and
that is the best bound but for a constant. -/
theorem nesting_bounded :
    (∀ body message, decode body = .ok message → ∀ w ∈ message.values, ∀ v : Value,
      v.Within w → 12 * v.depth ≤ body.length) ∧
    (∀ d, ∃ body request, decode body = .ok (.invocation request) ∧
      body.length ≤ 12 * d + 32 ∧ ∃ v ∈ request.args, d ≤ v.depth) ∧
    ∃ body request, decode body = .ok (.invocation request) ∧
      body.length ≤ defaultMaxFrame ∧ ∃ v ∈ request.args, 43000 < v.depth := by
  refine ⟨fun body message read w carried v within => ?_, fun d => ?_, ?_⟩
  · have bound := depth_le_length carried within
    have begins := (decode_eq_ok.1 read).2.length_le
    omega
  · refine ⟨_, nestedCall d, decode_nestedCall d, ?_, .nest d, List.mem_singleton_self _, ?_⟩
    · rw [length_nestedCall]
      omega
    · exact Nat.le_of_eq (Value.depth_nest d).symm
  · refine ⟨_, nestedCall 43001, decode_nestedCall 43001, ?_, .nest 43001,
      List.mem_singleton_self _, ?_⟩
    · rw [length_nestedCall, defaultMaxFrame]
      omega
    · rw [Value.depth_nest]
      omega

end Message

end Parley
