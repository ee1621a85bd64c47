import Parley.Proofs.Dispatch.Answers

/-! Who hears how a call ended.
A listener that the handler has not answered hears of it when the handler fails, and hears nothing
when it returns or panics. A panic comes out of the call as it came out of the handler; the calls
behind it reach the same handlers as if it had not been. -/

namespace Parley.Dispatch

variable {sink : Response → σ → σ} {caller : Caller} {request : Request} {args : Arguments}
  {position : Nat} {token : Token}

namespace Registry

variable {registry : Registry τ σ}

/-- Every call is handled as before, though perhaps by a handler in another state. -/
theorem handler_handle (registry : Registry τ σ) (x : Exchange σ) (oid : Oid) (method : UInt8) :
    ((registry.handle sink caller request x).2.1.taker? oid method).map (·.handler) =
      (registry.taker? oid method).map (·.handler) := by
  cases found : registry.taker? request.target request.method with
  | none =>
    obtain ⟨registry', handled, same⟩ := handle_of_none sink caller x found
    rw [handled, taker?, same oid]
    rfl
  | some entry =>
    obtain ⟨registry', handled, others⟩ := handle_of_entry sink caller x found
    rw [handled, others]
    split
    · rename_i here
      rw [here.1, here.2, found]
      rfl
    · rfl

theorem report_eq_answer (first : args.firstListener? = some (position, token))
    {x : Exchange σ} (unanswered : x.ledger.hasResponded position = false)
    (error : InvocationError) :
    report sink args error x = x.answer sink position (.failed token error.text) := by
  rw [report, first]
  dsimp only
  rw [Ledger.respond, unanswered]
  rfl

theorem posted_report (first : args.firstListener? = some (position, token))
    {x : Exchange σ} (unanswered : x.ledger.hasResponded position = false)
    (error : InvocationError) :
    (report sink args error x).ledger.posted = x.ledger.posted ++ [.failed token error.text] := by
  rw [report_eq_answer first unanswered]
  rfl

/-- No answer has gone to a token if none has been given through the one listener that has it. -/
theorem posted_of_unanswered {ledger : Ledger} (fair : ledger.Fair args)
    (unanswered : ledger.hasResponded position = false)
    (only : ∀ other, args.listenerAt? other = some token → other = position) :
    ledger.posted.filter (·.token = token) = [] := by
  refine List.filter_eq_nil_iff.2 fun response mem => ?_
  have heard : response.token ∈ ledger.answered.reverse.filterMap args.listenerAt? := by
    rw [← fair.tokens]
    exact List.mem_map_of_mem mem
  -- whoever was answered under this token would be the listener that was not
  obtain ⟨other, answered, found⟩ := List.mem_filterMap.1 heard
  intro same
  rw [of_decide_eq_true same] at found
  rw [only other found, List.mem_reverse] at answered
  rw [Ledger.hasResponded, decide_eq_false_iff_not] at unanswered
  exact unanswered answered

/-- What the first listener hears of a call in which the handler has not answered it: the text of a
failure, and of a panic nothing at all. -/
theorem told_of_unanswered (sink : Response → σ → σ) (registry : Registry τ σ) (caller : Caller)
    (state : σ) (first : request.args.firstListener? = some (position, token))
    (unanswered : (registry.handle sink caller request { state }).2.2.ledger.hasResponded position =
      false) :
    let handled := registry.handle sink caller request { state }
    let after := registry.dispatch sink caller request state
    after.1 = handled.1 ∧
    (after.2.2.ledger.posted = handled.2.2.ledger.posted ++
      match handled.1 with
      | .failed error => [.failed token error.text]
      | _ => []) ∧
    ((∀ other, request.args.listenerAt? other = some token → other = position) →
      handled.2.2.ledger.posted.filter (·.token = token) = []) ∧
    ∀ oid method, (after.2.1.taker? oid method).map (·.handler) =
      (registry.taker? oid method).map (·.handler) := by
  intro handled after
  have fair : handled.2.2.ledger.Fair request.args :=
    ledger_handle (fun _ _ _ fair found => fair.respond found) (.empty request.args)
  have whole : after = _ := dispatch_eq sink registry caller request state
  refine ⟨by rw [whole], ?_, posted_of_unanswered fair unanswered, fun oid method => ?_⟩
  · rw [whole]
    dsimp only [handled]
    cases (registry.handle sink caller request { state }).1 with
    | failed error => exact posted_report first unanswered error
    | returned _ => exact (List.append_nil _).symm
    | panicked _ => exact (List.append_nil _).symm
  · rw [whole]
    exact handler_handle registry { state } oid method

/-- A handler that panics at once: its caller hears nothing, and the call panics. -/
theorem told_of_unanswered_panic :
    let request : Request := ⟨1, 1, [.listener ⟨1000, 1⟩]⟩
    let registry : Registry Unit Unit := sole fun _ _ => .panic "boom"
    let after := registry.dispatch (fun _ state => state) ⟨1000, "alice"⟩ request ()
    request.args.firstListener? = some (0, ⟨1000, 1⟩) ∧ after.1 = .panicked "boom" ∧
      after.2.2.ledger.posted = [] := by
  intro request registry after
  have first : request.args.firstListener? = some (0, ⟨1000, 1⟩) := rfl
  have told := told_of_unanswered (fun _ state => state) registry ⟨1000, "alice"⟩ () first rfl
  exact ⟨first, told.1, told.2.1⟩

end Registry

end Parley.Dispatch
