import Parley.Proofs.Dispatch.Report

/-! What a handler tries to answer, and what of it is posted.
The first answer that a handler tries to give to a listener is posted, and no other. With one
listener among the arguments of a call, that is the only answer; if the handler tries none, its
failure is. -/

namespace Parley

namespace Ledger

variable {ledger : Ledger} {slot : Nat} {response : Response}

theorem respond_of_answered (h : ledger.hasResponded slot = true) :
    ledger.respond slot response = (false, ledger) := by
  rw [respond, if_pos h]

theorem respond_of_unanswered (h : ledger.hasResponded slot = false) :
    ledger.respond slot response =
      (true, ⟨slot :: ledger.answered, ledger.posted ++ [response]⟩) := by
  rw [respond, h, if_neg Bool.false_ne_true]

theorem hasResponded_respond {other : Nat} :
    (ledger.respond slot response).2.hasResponded other = true ↔
      ledger.hasResponded other = true ∨ slot = other := by
  cases before : ledger.hasResponded slot with
  | true =>
    rw [respond_of_answered before]
    refine ⟨.inl, fun either => either.elim id fun same => ?_⟩
    exact same ▸ before
  | false =>
    rw [respond_of_unanswered before]
    simp only [hasResponded, decide_eq_true_iff, List.mem_cons]
    exact ⟨fun either => either.symm.imp_right Eq.symm, fun either => either.symm.imp_left Eq.symm⟩

end Ledger

namespace Dispatch

/-- An answer that a program tries to give, to the listener at a position. -/
structure Attempt where
  position : Nat
  method : UInt8
  values : Arguments
  deriving DecidableEq, Repr

def Attempt.response (attempt : Attempt) (token : Token) : Response :=
  ⟨token, attempt.method, attempt.values⟩

/-- The attempts that count, with `answered` having been answered before: the first through each
listener. -/
def counted (args : Arguments) : List Nat → List Attempt → List Response
  | _, [] => []
  | answered, attempt :: rest =>
    match args.listenerAt? attempt.position with
    | none => counted args answered rest
    | some token =>
      if attempt.position ∈ answered then counted args answered rest
      else attempt.response token :: counted args (attempt.position :: answered) rest

theorem posted_counted_cons {args : Arguments} {token : Token} (attempt : Attempt)
    (found : args.listenerAt? attempt.position = some token) (ledger : Ledger)
    (rest : List Attempt) :
    let answered := (ledger.respond attempt.position (attempt.response token)).2
    answered.posted ++ counted args answered.answered rest =
      ledger.posted ++ counted args ledger.answered (attempt :: rest) := by
  intro answered
  rw [counted, found]
  dsimp only
  cases before : ledger.hasResponded attempt.position with
  | true =>
    rw [if_pos (of_decide_eq_true before)]
    dsimp only [answered]
    rw [Ledger.respond_of_answered before]
  | false =>
    rw [if_neg (of_decide_eq_false before)]
    dsimp only [answered]
    rw [Ledger.respond_of_unanswered before, List.append_assoc, List.singleton_append]

theorem counted_of_only {args : Arguments} {position : Nat} {token : Token}
    (here : args.listenerAt? position = some token)
    (only : ∀ other t, args.listenerAt? other = some t → other = position) (answered : List Nat)
    (tries : List Attempt) :
    counted args answered tries = if position ∈ answered then [] else
      ((tries.filter (·.position = position)).head?.map (·.response token)).toList := by
  induction tries generalizing answered with
  | nil => exact (ite_self _).symm
  | cons attempt rest ih =>
    cases found : args.listenerAt? attempt.position with
    | none =>
      have apart : attempt.position ≠ position := by
        intro same
        rw [same, here] at found
        cases found
      rw [counted, found, List.filter_cons_of_neg (by simpa using apart)]
      exact ih answered
    | some t =>
      obtain rfl := only attempt.position t found
      obtain rfl := Option.some.inj (found.symm.trans here)
      rw [counted, found, List.filter_cons_of_pos (by simp)]
      dsimp only
      rw [ih, ih, if_pos List.mem_cons_self]
      split <;> rfl

namespace Program

/-- The answers that a program tries to give when it runs, whether they count or not. -/
def attempts (sink : Response → σ → σ) (args : Arguments) :
    Program σ α → Exchange σ → List Attempt
  | done _, _ => []
  | fail _, _ => []
  | panic _, _ => []
  | read next, x => (next x.state).attempts sink args x
  | write state next, x => next.attempts sink args { x with state }
  | hasResponded position next, x => (next (x.ledger.hasResponded position)).attempts sink args x
  | respond position method values next, x =>
    ⟨position, method, values⟩ ::
      match args.listenerAt? position with
      | none => (next false).attempts sink args x
      | some token =>
        let response : Response := ⟨token, method, values⟩
        match x.ledger.respond position response with
        | (true, ledger) => (next true).attempts sink args ⟨sink response x.state, ledger⟩
        | (false, ledger) => (next false).attempts sink args { x with ledger }

section

variable {sink : Response → σ → σ} {args : Arguments} {position : Nat} {token : Token}
  {method : UInt8} {values : Arguments} {next : Bool → Program σ α} {x : Exchange σ}

theorem attempts_respond_of_none (h : args.listenerAt? position = none) :
    (respond position method values next).attempts sink args x =
      ⟨position, method, values⟩ :: (next false).attempts sink args x := by
  rw [attempts, h]

theorem attempts_respond_of_some (h : args.listenerAt? position = some token) :
    (respond position method values next).attempts sink args x =
      let response : Response := ⟨token, method, values⟩
      let answered := x.ledger.respond position response
      ⟨position, method, values⟩ :: (next answered.1).attempts sink args
        ⟨if answered.1 then sink response x.state else x.state, answered.2⟩ := by
  rw [attempts, h]
  dsimp only
  rcases x.ledger.respond position ⟨token, method, values⟩ with ⟨_ | _, ledger⟩ <;> rfl

end

section

variable (sink : Response → σ → σ)

/-- What a handler posts are the attempts that count, in their order, and a listener has been
answered if one of them was for it. -/
theorem ledger_of_attempts (args : Arguments) (program : Program σ α) (x : Exchange σ) :
    let tries := program.attempts sink args x
    let after := (program.run sink args x).2.ledger
    after.posted = x.ledger.posted ++ counted args x.ledger.answered tries ∧
      ∀ position token, args.listenerAt? position = some token →
        (after.hasResponded position = true ↔
          x.ledger.hasResponded position = true ∨
            ∃ attempt ∈ tries, attempt.position = position) := by
  induction program generalizing x with
  | done a => exact ⟨(List.append_nil _).symm, by simp [attempts, run]⟩
  | fail error => exact ⟨(List.append_nil _).symm, by simp [attempts, run]⟩
  | panic text => exact ⟨(List.append_nil _).symm, by simp [attempts, run]⟩
  | read next ih => exact ih x.state x
  | write state next ih => exact ih { x with state }
  | hasResponded other next ih => exact ih _ x
  | respond other method values next ih =>
    cases found : args.listenerAt? other with
    | none =>
      obtain ⟨posted, answered⟩ := ih false x
      rw [attempts_respond_of_none found, run_respond_of_none found]
      refine ⟨?_, fun position token here => ?_⟩
      · rw [counted, found]
        exact posted
      · have apart : other ≠ position := by
          rintro rfl
          cases found.symm.trans here
        simp [answered position token here, apart]
    | some t =>
      rw [attempts_respond_of_some found, run_respond_of_some found]
      obtain ⟨posted, answered⟩ := ih _ _
      refine ⟨posted.trans ?_, fun position token here => ?_⟩
      · exact posted_counted_cons ⟨other, method, values⟩ found x.ledger _
      · rw [answered position token here, Ledger.hasResponded_respond, List.exists_mem_cons_iff,
          or_assoc]

theorem posted_of_attempts {args : Arguments} {position : Nat} {token : Token}
    (here : args.listenerAt? position = some token)
    (only : ∀ other t, args.listenerAt? other = some t → other = position)
    (program : Program σ α) (x : Exchange σ) :
    let tries := (program.attempts sink args x).filter (·.position = position)
    let after := (program.run sink args x).2.ledger
    after.posted = x.ledger.posted ++
        (if x.ledger.hasResponded position then []
          else (tries.head?.map (·.response token)).toList) ∧
      after.hasResponded position = (x.ledger.hasResponded position || !tries.isEmpty) := by
  obtain ⟨posted, answered⟩ := program.ledger_of_attempts sink args x
  refine ⟨?_, Bool.eq_iff_iff.2 ?_⟩
  · rw [posted, counted_of_only here only]
    simp only [Ledger.hasResponded, decide_eq_true_iff]
  · rw [answered position token here]
    simp

end

end Program

def Entry.attempts (sink : Response → σ → σ) (caller : Caller) (request : Request)
    (x : Exchange σ) (entry : Entry τ σ) : List Attempt :=
  (entry.handler caller request.args).attempts
    (fun response state => (state.1, sink response state.2)) request.args
    ⟨(entry.state, x.state), x.ledger⟩

namespace Registry

variable {sink : Response → σ → σ} {registry : Registry τ σ} {caller : Caller} {request : Request}
  {state : σ}

theorem handle_of_onShared {entry : Entry τ σ} {program : Program σ Unit}
    (found : registry.taker? request.target request.method = some entry)
    (shared : entry.handler caller request.args = program.onShared) :
    let ran := program.run sink request.args { state }
    ∃ registry', registry.handle sink caller request { state } = (ran.1, registry', ran.2) := by
  obtain ⟨registry', handled, -⟩ := handle_of_entry sink caller { state } found
  refine ⟨registry', ?_⟩
  rw [handled, Entry.handle, shared, Program.run_onShared]

theorem dispatch_of_onShared {entry : Entry τ σ} {program : Program σ Unit}
    (found : registry.taker? request.target request.method = some entry)
    (shared : entry.handler caller request.args = program.onShared) :
    let ran := program.run sink request.args { state }
    ∃ registry', registry.dispatch sink caller request state =
      (ran.1, registry', match ran.1 with
        | .failed error => report sink request.args error ran.2
        | _ => ran.2) := by
  intro ran
  obtain ⟨registry', handled⟩ := handle_of_onShared found shared
  refine ⟨registry', ?_⟩
  rewrite [dispatch_eq, handled]
  rfl

theorem dispatch_of_unheard {entry : Entry τ σ} {program : Program σ Unit}
    (none : request.args.firstListener? = none)
    (found : registry.taker? request.target request.method = some entry)
    (shared : entry.handler caller request.args = program.onShared) :
    let ran := program.run sink request.args { state }
    ∃ registry', registry.dispatch sink caller request state = (ran.1, registry', ran.2) := by
  intro ran
  obtain ⟨registry', handled⟩ := handle_of_onShared found shared
  refine ⟨registry', ?_⟩
  rw [dispatch_eq, handled]
  dsimp only
  split
  · rw [report_of_none none]
  · rfl

/-- What is posted in a call with one listener: the first answer that the handler tries to give, or
the failure of a handler that gives none. -/
theorem posted_dispatch_of_attempts {position : Nat} {token : Token} {program : Program σ Unit}
    {registry' : Registry τ σ} (first : request.args.firstListener? = some (position, token))
    (only : ∀ other t, request.args.listenerAt? other = some t → other = position)
    (handled : registry.handle sink caller request { state } =
      ((program.run sink request.args { state }).1, registry',
        (program.run sink request.args { state }).2)) :
    let attempts := program.attempts sink request.args { state }
    let posted := (registry.dispatch sink caller request state).2.2.ledger.posted
    (∀ attempt, attempts.head? = some attempt → attempt.position = position →
      posted = [attempt.response token]) ∧
    (attempts = [] → posted = match (program.run sink request.args { state }).1 with
      | .failed error => [.failed token error.text]
      | _ => []) := by
  have here := Arguments.listenerAt?_of_firstListener? first
  obtain ⟨posted, responded⟩ := Program.posted_of_attempts sink here only program { state }
  dsimp only
  rw [dispatch_eq, handled]
  dsimp only
  generalize program.run sink request.args { state } = ran at posted responded ⊢
  generalize program.attempts sink request.args { state } = attempts at posted responded ⊢
  refine ⟨fun attempt head own => ?_, fun none => ?_⟩
  · obtain ⟨rest, rfl⟩ : ∃ rest, attempts = attempt :: rest := by
      cases attempts with
      | nil => cases head
      | cons a rest => exact ⟨rest, by rw [Option.some.inj head]⟩
    rw [List.filter_cons_of_pos (by simpa using own)] at posted responded
    have once : ran.2.ledger.posted = [attempt.response token] := posted
    split
    · rename_i error _
      rw [report_of_first first, Ledger.respond_of_answered responded]
      exact once
    · exact once
  · subst none
    have unanswered : ran.2.ledger.posted = [] := posted
    cases ran.1 with
    | failed error =>
      dsimp only
      rw [posted_report first responded, unanswered]
      rfl
    | returned u => exact unanswered
    | panicked text => exact unanswered

end Registry

end Dispatch

end Parley
