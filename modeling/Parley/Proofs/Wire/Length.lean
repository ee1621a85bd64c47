import Parley.Proofs.Wire.Grammar

/-! Lengths inside a message.
A text or a list is no longer than the encoding it stands in, so a message whose encoding has a
length that can be written down has no length inside that cannot. -/

namespace Parley

open Wire

namespace Wire

theorem length_writeInt32 (n : Int32) (rest : Bytes) :
    (writeInt32 n rest).length = 4 + rest.length := length_writeWord _ _ _

theorem length_writeBytes (data rest : Bytes) :
    (writeBytes data rest).length = 8 + data.length + rest.length := by
  rw [writeBytes, length_writeWord, List.length_append, Nat.add_assoc]

theorem length_writeText (s : String) (rest : Bytes) :
    (writeText s rest).length = 8 + (Utf8.encode s).length + rest.length := length_writeBytes _ _

end Wire

theorem Token.length_write (token : Token) (rest : Bytes) :
    (token.write rest).length = 8 + rest.length := by
  rw [write, length_writeInt32, length_writeWord]
  omega

namespace Value

mutual

theorem fits_of_length (v : Value) (rest : Bytes) (small : Enumerable (v.write rest).length) :
    v.Fits := by
  cases v with
  | str s =>
    rw [write, length_writeWord, length_writeText] at small
    rw [Fits, Enumerable]
    omega
  | bytes data =>
    rw [write, length_writeWord, length_writeBytes] at small
    rw [Fits, Enumerable]
    omega
  | list items =>
    rw [write, length_writeWord, length_writeWord] at small
    have count := length_le_writeAll items rest
    have inner : Enumerable (writeAll items rest).length := by
      rw [Enumerable]
      omega
    rw [Fits, Enumerable]
    exact ⟨by omega, allFit_of_length items rest inner⟩
  | _ => trivial

theorem allFit_of_length (vs : List Value) (rest : Bytes)
    (small : Enumerable (writeAll vs rest).length) : AllFit vs := by
  cases vs with
  | nil => trivial
  | cons v vs =>
    rw [writeAll] at small
    have tail := height_le_length v (writeAll vs rest)
    have inner : Enumerable (writeAll vs rest).length := by
      rw [Enumerable]
      omega
    exact ⟨fits_of_length v (writeAll vs rest) small, allFit_of_length vs rest inner⟩

theorem length_le_writeAll (vs : List Value) (rest : Bytes) :
    vs.length ≤ (writeAll vs rest).length := by
  cases vs with
  | nil => simp
  | cons v vs =>
    have first := height_le_length v (writeAll vs rest)
    have tall := one_le_height v
    have others := length_le_writeAll vs rest
    rw [writeAll, List.length_cons]
    omega

end

end Value

theorem Arguments.fit_of_length (args : Arguments) (rest : Bytes)
    (small : Enumerable (args.write rest).length) : args.Fit := by
  rw [write, length_writeWord] at small
  have count := Value.length_le_writeAll args rest
  have inner : Enumerable (Value.writeAll args rest).length := by
    rw [Enumerable]
    omega
  refine ⟨?_, Value.allFit_iff.1 (Value.allFit_of_length args rest inner)⟩
  rw [Enumerable]
  omega

namespace Binding

theorem length_writeAll_cons (first : Binding) (others : List Binding) (rest : Bytes) :
    (writeAll (first :: others) rest).length =
      12 + (Utf8.encode first.service).length + (writeAll others rest).length := by
  have step : writeAll (first :: others) rest = first.write (writeAll others rest) := rfl
  rw [step, write, length_writeText, length_writeInt32]
  omega

theorem length_le_writeAll (bindings : List Binding) (rest : Bytes) :
    bindings.length ≤ (writeAll bindings rest).length := by
  induction bindings with
  | nil => simp
  | cons first others ih =>
    rw [length_writeAll_cons, List.length_cons]
    omega

theorem fits_of_length (bindings : List Binding) (rest : Bytes)
    (small : Enumerable (writeAll bindings rest).length) :
    Enumerable bindings.length ∧ ∀ binding ∈ bindings, binding.Fits := by
  induction bindings with
  | nil => simp [Enumerable]
  | cons first others ih =>
    have count := length_le_writeAll (first :: others) rest
    rw [length_writeAll_cons] at small count
    have inner : Enumerable (writeAll others rest).length := by
      rw [Enumerable]
      omega
    refine ⟨?_, List.forall_mem_cons.2 ⟨?_, (ih inner).2⟩⟩
    · rw [Enumerable]
      omega
    · rw [Fits, Enumerable]
      omega

end Binding

theorem ObjectEvent.fits_of_length (event : ObjectEvent) (rest : Bytes)
    (small : Enumerable (event.write rest).length) : event.Fits := by
  cases event with
  | attributeChanged target name value =>
    rw [write, length_writeWord, length_writeInt32, length_writeText] at small
    have inner : Enumerable (value.write rest).length := by
      rw [Enumerable]
      omega
    refine ⟨?_, value.fits_of_length rest inner⟩
    rw [Enumerable]
    omega
  | message target name args =>
    rw [write, length_writeWord, length_writeInt32, length_writeText] at small
    have inner : Enumerable (args.write rest).length := by
      rw [Enumerable]
      omega
    refine ⟨?_, args.fit_of_length rest inner⟩
    rw [Enumerable]
    omega

theorem Message.fits_of_length (message : Message) (small : Enumerable message.encode.length) :
    message.Fits := by
  rw [encode, Enumerable] at small
  cases message with
  | logon version username =>
    rw [write, length_writeWord, length_writeWord, length_writeText] at small
    rw [Fits, Enumerable]
    omega
  | invocation request =>
    rw [write, length_writeWord, Request.write, length_writeInt32, length_writeWord] at small
    refine request.args.fit_of_length [] ?_
    rw [Enumerable]
    omega
  | bootstrap oid services =>
    rw [write, length_writeWord, length_writeInt32, length_writeWord] at small
    refine Binding.fits_of_length services [] ?_
    rw [Enumerable]
    omega
  | response response =>
    rw [write, length_writeWord, Response.write, Token.length_write, length_writeWord] at small
    refine response.args.fit_of_length [] ?_
    rw [Enumerable]
    omega
  | event event =>
    rw [write, length_writeWord] at small
    refine event.fits_of_length [] ?_
    rw [Enumerable]
    omega
  | failure reason =>
    rw [write, length_writeWord, length_writeText] at small
    rw [Fits, Enumerable]
    omega
  | _ => trivial

end Parley
