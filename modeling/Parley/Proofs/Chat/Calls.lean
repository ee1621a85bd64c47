import Mathlib.Data.List.Basic
import Parley.Chat.Service

/-! What the provider of a chat service is handed.
A call is taken apart before the provider sees it: it has the arguments of its method and no
others, or the provider is not asked and the call fails. -/

namespace Parley

namespace Arguments

variable {args : Arguments} {index : Nat}

theorem get_eq_ok {kind : Kind} {read : Value → Option α} {a : α} :
    args.get kind read index = .ok a ↔
      ∃ value, args[index]? = some value ∧ read value = some a := by
  unfold get
  cases args[index]? with
  | none => simp
  | some value =>
    cases found : read value with
    | none => simp [found]
    | some b => simp [found]

theorem string_eq_ok {s : String} : args.string index = .ok s ↔ args[index]? = some (.str s) := by
  rw [string, get_eq_ok]
  constructor
  · rintro ⟨value, found, read⟩
    cases value <;> simp_all
  · intro found
    exact ⟨.str s, found, rfl⟩

theorem listener_eq_ok {token : Token} :
    args.listener index = .ok token ↔ args[index]? = some (.listener token) := by
  rw [listener, get_eq_ok]
  constructor
  · rintro ⟨value, found, read⟩
    cases value <;> simp_all [Value.token?]
  · intro found
    exact ⟨.listener token, found, rfl⟩

theorem expectLength_eq_ok {expected : Nat} {u : Unit} :
    args.expectLength expected = .ok u ↔ args.length = expected := by
  unfold expectLength
  split
  · simp_all
  · simp_all

end Arguments

namespace Dispatch.Program

theorem ofExcept_ok_bind (a : α) (f : α → Program σ β) : (ofExcept (.ok a) >>= f) = f a := rfl

end Dispatch.Program

namespace Chat.Provider

open Dispatch

variable (provider : Provider σ) (caller : Caller) (args : Arguments)

theorem onTell_cases :
    (∃ error, provider.onTell caller args = .fail error) ∨
      ∃ target message token, args = [.str target, .str message, .listener token] ∧
        provider.onTell caller args = provider.tell caller target message 2 := by
  unfold onTell
  cases count : args.expectLength 3 with
  | error error => exact .inl ⟨error, rfl⟩
  | ok u =>
    rw [Program.ofExcept_ok_bind]
    cases third : args.listener 2 with
    | error error => exact .inl ⟨error, rfl⟩
    | ok token =>
      rw [Program.ofExcept_ok_bind]
      cases first : args.string 0 with
      | error error => exact .inl ⟨error, rfl⟩
      | ok target =>
        rw [Program.ofExcept_ok_bind]
        cases second : args.string 1 with
        | error error => exact .inl ⟨error, rfl⟩
        | ok message =>
          refine .inr ⟨target, message, token, ?_, rfl⟩
          obtain ⟨a, b, c, rfl⟩ := List.length_eq_three.1 (Arguments.expectLength_eq_ok.1 count)
          obtain rfl : a = .str target := Option.some.inj (Arguments.string_eq_ok.1 first)
          obtain rfl : b = .str message := Option.some.inj (Arguments.string_eq_ok.1 second)
          obtain rfl : c = .listener token := Option.some.inj (Arguments.listener_eq_ok.1 third)
          rfl

theorem onBroadcast_cases :
    (∃ error, provider.onBroadcast caller args = .fail error) ∨
      ∃ message token, args = [.str message, .listener token] ∧
        provider.onBroadcast caller args = provider.broadcast caller message 1 := by
  unfold onBroadcast
  cases count : args.expectLength 2 with
  | error error => exact .inl ⟨error, rfl⟩
  | ok u =>
    rw [Program.ofExcept_ok_bind]
    cases second : args.listener 1 with
    | error error => exact .inl ⟨error, rfl⟩
    | ok token =>
      rw [Program.ofExcept_ok_bind]
      cases first : args.string 0 with
      | error error => exact .inl ⟨error, rfl⟩
      | ok message =>
        refine .inr ⟨message, token, ?_, rfl⟩
        obtain ⟨a, b, rfl⟩ := List.length_eq_two.1 (Arguments.expectLength_eq_ok.1 count)
        obtain rfl : a = .str message := Option.some.inj (Arguments.string_eq_ok.1 first)
        obtain rfl : b = .listener token := Option.some.inj (Arguments.listener_eq_ok.1 second)
        rfl

theorem onAway_cases :
    (∃ error, provider.onAway caller args = .fail error) ∨
      ∃ message, args = [.str message] ∧
        provider.onAway caller args = provider.away caller message := by
  unfold onAway
  cases count : args.expectLength 1 with
  | error error => exact .inl ⟨error, rfl⟩
  | ok u =>
    rw [Program.ofExcept_ok_bind]
    cases first : args.string 0 with
    | error error => exact .inl ⟨error, rfl⟩
    | ok message =>
      refine .inr ⟨message, ?_, rfl⟩
      obtain ⟨a, rfl⟩ := List.length_eq_one_iff.1 (Arguments.expectLength_eq_ok.1 count)
      obtain rfl : a = .str message := Option.some.inj (Arguments.string_eq_ok.1 first)
      rfl

end Chat.Provider

end Parley
