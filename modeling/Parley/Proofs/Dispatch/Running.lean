import Parley.Dispatch.Registry

/-! What a program does, from what its parts do. -/

namespace Parley.Dispatch

def Exchange.answer (sink : Response → σ → σ) (x : Exchange σ) (position : Nat)
    (response : Response) : Exchange σ :=
  ⟨sink response x.state, ⟨position :: x.ledger.answered, x.ledger.posted ++ [response]⟩⟩

namespace Program

variable {sink : Response → σ → σ} {args : Arguments} {x : Exchange σ}

section

variable {position : Nat} {token : Token} {method : UInt8} {values : Arguments}
  {next : Bool → Program σ α}

theorem run_respond_of_none (h : args.listenerAt? position = none) :
    (respond position method values next).run sink args x = (next false).run sink args x := by
  rw [run, h]

theorem run_respond_of_some (h : args.listenerAt? position = some token) :
    (respond position method values next).run sink args x =
      let response : Response := ⟨token, method, values⟩
      let answered := x.ledger.respond position response
      (next answered.1).run sink args
        ⟨if answered.1 then sink response x.state else x.state, answered.2⟩ := by
  rw [run, h]
  dsimp only
  rcases x.ledger.respond position ⟨token, method, values⟩ with ⟨_ | _, ledger⟩ <;> rfl

theorem run_answer (h : args.listenerAt? position = some token)
    (unanswered : x.ledger.hasResponded position = false) :
    (answer position method values).run sink args x =
      (.returned true, x.answer sink position ⟨token, method, values⟩) := by
  rw [answer, run_respond_of_some h]
  simp only [Ledger.respond, unanswered]
  rfl

end

theorem run_bind (program : Program σ α) (f : α → Program σ β) (x : Exchange σ) :
    (program >>= f).run sink args x =
      match program.run sink args x with
      | (.returned a, y) => (f a).run sink args y
      | (.failed error, y) => (.failed error, y)
      | (.panicked text, y) => (.panicked text, y) := by
  induction program generalizing x with
  | done a => rfl
  | fail error => rfl
  | panic text => rfl
  | read next ih => exact ih x.state x
  | write state next ih => exact ih { x with state }
  | hasResponded position next ih => exact ih _ x
  | respond position method values next ih =>
    change Program.run sink args (.respond position method values fun b => next b >>= f) x = _
    cases found : args.listenerAt? position with
    | none =>
      rw [run_respond_of_none found, run_respond_of_none found]
      exact ih false x
    | some token =>
      rw [run_respond_of_some found, run_respond_of_some found]
      exact ih _ _

theorem run_bind_of_returned {program : Program σ α} {a : α} {y : Exchange σ}
    (h : program.run sink args x = (.returned a, y)) (f : α → Program σ β) :
    (program >>= f).run sink args x = (f a).run sink args y := by
  rw [run_bind, h]

theorem run_get_bind (f : σ → Program σ α) :
    (get >>= f).run sink args x = (f x.state).run sink args x := rfl

theorem run_answer_bind {position : Nat} {token : Token} {method : UInt8} {values : Arguments}
    (h : args.listenerAt? position = some token)
    (unanswered : x.ledger.hasResponded position = false) :
    (do let _ ← answer position method values : Program σ Unit).run sink args x =
      (.returned (), x.answer sink position ⟨token, method, values⟩) :=
  run_bind_of_returned (run_answer h unanswered) _

/-- Run on the second part of a larger state, a program does there what it does on its own, and
leaves the first part alone. -/
theorem run_onShared (program : Program σ α) (kept : τ) (x : Exchange σ) :
    (program.onShared : Program (τ × σ) α).run
        (fun response state => (state.1, sink response state.2)) args
        ⟨(kept, x.state), x.ledger⟩ =
      ((program.run sink args x).1,
        ⟨(kept, (program.run sink args x).2.state), (program.run sink args x).2.ledger⟩) := by
  induction program generalizing x with
  | done a => rfl
  | fail error => rfl
  | panic text => rfl
  | read next ih => exact ih x.state x
  | write state next ih => exact ih { x with state }
  | hasResponded position next ih => exact ih _ x
  | respond position method values next ih =>
    rw [onShared]
    cases found : args.listenerAt? position with
    | none =>
      rw [run_respond_of_none found, run_respond_of_none found]
      exact ih false x
    | some token =>
      rw [run_respond_of_some found, run_respond_of_some found]
      dsimp only
      rw [← ih]
      rcases x.ledger.respond position ⟨token, method, values⟩ with ⟨_ | _, ledger⟩ <;> rfl

end Program

end Parley.Dispatch
