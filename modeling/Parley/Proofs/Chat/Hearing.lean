import Parley.Proofs.Chat.Conversation
import Parley.Proofs.Descriptor

/-! What a typed listener hears of an answer.
An answer is looked at twice before the listener is called: its id must be one that the kind declares,
and its arguments must be those of that id. Whatever the answer, the listener is called once, with
an outcome that is a function of the id and the arguments; and since ids that the kind does not
declare are sorted out first, no answer is left over that nobody knows how to deliver. -/

namespace Parley.Chat

open Client

variable {listen : κ → Dispatcher κ ω} {name : κ} {desk : Client.Desk κ ω} {response : Response}
  {method : UInt8} {args : Arguments}

/-! Listeners of any kind. -/

section

variable (kind : ListenerDescriptor) (read : UInt8 → Arguments → Except InvocationError ο)
  (failed : String → ο)

def orFailed : Except InvocationError ο → ο
  | .ok outcome => outcome
  | .error error => failed error.text

/-- The outcome that a listener of a kind hears of an answer. -/
def verdict (method : UInt8) (args : Arguments) : ο :=
  if kind.methodName method = none then failed (Desk.unknownResponse method)
  else if method = requestFailed then
    failed ((args.string 0).toOption.getD Desk.unknownCause)
  else orFailed failed (read method args)

variable {kind read failed}

theorem verdict_of_unknown (unknown : kind.methodName method = none) :
    verdict kind read failed method args = failed (Desk.unknownResponse method) := if_pos unknown

theorem verdict_of_failure (known : kind.methodName requestFailed ≠ none) :
    verdict kind read failed requestFailed args =
      failed ((args.string 0).toOption.getD Desk.unknownCause) := by
  rw [verdict, if_neg known, if_pos rfl]

theorem verdict_of_known (known : kind.methodName method ≠ none) (proper : method ≠ requestFailed) :
    verdict kind read failed method args = orFailed failed (read method args) := by
  rw [verdict, if_neg known, if_neg proper]

theorem dispatch_of_typed {hear : ο → Callback κ ω}
    (kept : listen name = typed kind read failed hear) (sure : Sure listen hear)
    (parked : desk.director.pending.lookup response.token = some name) :
    desk.dispatch listen response =
      (hear (verdict kind read failed response.method response.args)).run listen
        { desk with director := desk.director.withdraw [response.token] } := by
  obtain ⟨token, method, args⟩ := response
  rw [dispatch_of_parked parked, kept]
  by_cases unknown : kind.methodName method = none
  · have undeclared : ((typed kind read failed hear).kind.methodName method).isNone :=
      Option.isNone_iff_eq_none.2 unknown
    rw [verdict_of_unknown unknown, Desk.deliver, if_pos undeclared]
    rfl
  have known : ((typed kind read failed hear).kind.methodName method).isNone = false :=
    Option.isNone_eq_false_iff.2 (Option.isSome_iff_ne_none.2 unknown)
  by_cases failure : method = requestFailed
  · subst failure
    rw [verdict_of_failure unknown, Desk.deliver, known, if_neg Bool.false_ne_true, if_pos rfl]
    rfl
  rw [verdict_of_known unknown failure]
  cases reads : read method args with
  | ok outcome =>
    -- the listener itself is called, and what it does is no refusal
    have heard : (typed kind read failed hear).respond method args = hear outcome := by
      simp only [typed, reads]
    rw [deliver_of_sure known failure (heard ▸ sure outcome), heard]
    rfl
  | error error =>
    have refused : (typed kind read failed hear).respond method args = .fail error := by
      simp only [typed, reads]
    rw [Desk.deliver, known, if_neg Bool.false_ne_true, if_neg failure, refused]
    rfl

end

/-! The two kinds of the service. -/

def statedCause : Arguments → String
  | .str cause :: _ => cause
  | _ => "m.internal_error"

def TellOutcome.ofTime : Arguments → TellOutcome
  | [.long milliseconds] => .succeededIdle milliseconds
  | [.int milliseconds] => .succeededIdle milliseconds.toInt64
  | [other] => .failed (InvocationError.badArguments 0 (.mismatch .long other.kind)).text
  | args => .failed (InvocationError.badArity 1 args.length).text

def TellOutcome.heard (method : UInt8) (args : Arguments) : TellOutcome :=
  if method = 0 then .failed (statedCause args)
  else if method = 1 then .succeeded
  else if method = 2 then .ofTime args
  else .failed ("m.unknown_response_" ++ toString method.toNat)

def ConfirmOutcome.heard (method : UInt8) (args : Arguments) : ConfirmOutcome :=
  if method = 0 then .failed (statedCause args)
  else if method = 1 then .processed
  else .failed ("m.unknown_response_" ++ toString method.toNat)

def wholeNumber? : Value → Option Int
  | .int n => some n.toInt
  | .long n => some n.toInt
  | _ => none

theorem string_getD_eq (args : Arguments) :
    (args.string 0).toOption.getD Desk.unknownCause = statedCause args := by
  rcases args with _ | ⟨value, rest⟩
  · rfl
  · cases value <;> rfl

theorem ofTime_eq (args : Arguments) :
    TellOutcome.ofTime args =
      orFailed .failed (TellOutcome.ofResponse tellSucceededIdle args) := by
  rcases args with _ | ⟨value, _ | ⟨second, rest⟩⟩
  · rfl
  · cases value <;> rfl
  · have arity : Arguments.expectLength (value :: second :: rest) 1 =
        .error (.badArity 1 (rest.length + 2)) := if_neg (by simp)
    have refused : TellOutcome.ofResponse tellSucceededIdle (value :: second :: rest) =
        .error (.badArity 1 (rest.length + 2)) := by
      rw [TellOutcome.ofResponse, if_neg (by decide), if_pos rfl, arity]
      rfl
    rw [refused]
    cases value <;> rfl

theorem methodName_tell_eq_none_iff :
    tellListener.methodName method = none ↔ method ≠ 0 ∧ method ≠ 1 ∧ method ≠ 2 := by
  rw [ListenerDescriptor.methodName_eq_none_iff]
  simp [tellListener, MethodTable.ids, tellSucceeded, tellSucceededIdle, requestFailed, and_comm]

theorem methodName_confirm_eq_none_iff :
    confirmListener.methodName method = none ↔ method ≠ 0 ∧ method ≠ 1 := by
  rw [ListenerDescriptor.methodName_eq_none_iff]
  simp [confirmListener, MethodTable.ids, requestProcessed, requestFailed, and_comm]

theorem verdict_tell (method : UInt8) (args : Arguments) :
    verdict tellListener TellOutcome.ofResponse .failed method args = .heard method args := by
  unfold TellOutcome.heard
  split
  · rename_i failure
    subst failure
    rw [← string_getD_eq]
    exact verdict_of_failure (by decide)
  split
  · rename_i success
    subst success
    exact verdict_of_known (by decide) (by decide)
  split
  · rename_i idle
    subst idle
    rw [ofTime_eq]
    exact verdict_of_known (by decide) (by decide)
  · rename_i failure success idle
    exact verdict_of_unknown (methodName_tell_eq_none_iff.2 ⟨failure, success, idle⟩)

theorem verdict_confirm (method : UInt8) (args : Arguments) :
    verdict confirmListener (fun method _ => ConfirmOutcome.ofResponse method) .failed method args =
      .heard method args := by
  unfold ConfirmOutcome.heard
  split
  · rename_i failure
    subst failure
    rw [← string_getD_eq]
    exact verdict_of_failure (by decide)
  split
  · rename_i success
    subst success
    exact verdict_of_known (by decide) (by decide)
  · rename_i failure success
    exact verdict_of_unknown (methodName_confirm_eq_none_iff.2 ⟨failure, success⟩)

theorem ofTime_eq_succeededIdle_iff {milliseconds : Int64} :
    TellOutcome.ofTime args = .succeededIdle milliseconds ↔
      ∃ value, args = [value] ∧ wholeNumber? value = some milliseconds.toInt := by
  rcases args with _ | ⟨value, _ | ⟨second, rest⟩⟩
  · simp [TellOutcome.ofTime]
  · cases value with
    | long n => simp [TellOutcome.ofTime, wholeNumber?, Int64.toInt_inj]
    | int n => simp [TellOutcome.ofTime, wholeNumber?, ← Int64.toInt_inj]
    | _ => simp [TellOutcome.ofTime, wholeNumber?]
  · cases value <;> simp [TellOutcome.ofTime]

/-! The text for an answer that nobody knows how to deliver. -/

theorem internal_ne_unhandled (suffix : String) :
    "m.internal_error" ≠ "m.unhandled_response_" ++ suffix := by
  intro same
  have chars := congrArg String.toList same
  simp at chars

theorem unknown_ne_unhandled (number suffix : String) :
    "m.unknown_response_" ++ number ≠ "m.unhandled_response_" ++ suffix := by
  intro same
  have chars := congrArg String.toList same
  simp at chars

theorem badArguments_ne_unhandled (index : Nat) (fault : ArgumentFault) (suffix : String) :
    (InvocationError.badArguments index fault).text ≠ "m.unhandled_response_" ++ suffix := by
  intro same
  unfold InvocationError.text at same
  generalize toString index = number at same
  have chars := congrArg String.toList same
  simp at chars

/-- No failure has that text but one that the server has worded so. -/
theorem statedCause_of_unhandled {suffix : String}
    (same : statedCause args = "m.unhandled_response_" ++ suffix) :
    args.head? = some (.str ("m.unhandled_response_" ++ suffix)) := by
  unfold statedCause at same
  split at same
  · exact congrArg (fun cause => some (Value.str cause)) same
  · exact (internal_ne_unhandled suffix same).elim

theorem ofTime_ne_unhandled (args : Arguments) (suffix : String) :
    TellOutcome.ofTime args ≠ .failed ("m.unhandled_response_" ++ suffix) := by
  unfold TellOutcome.ofTime
  split
  · exact nofun
  · exact nofun
  · exact fun same => badArguments_ne_unhandled _ _ suffix (TellOutcome.failed.inj same)
  · exact fun same => badArguments_ne_unhandled _ _ suffix (TellOutcome.failed.inj same)

theorem tell_of_unhandled {suffix : String}
    (same : TellOutcome.heard method args = .failed ("m.unhandled_response_" ++ suffix)) :
    method = 0 ∧ args.head? = some (.str ("m.unhandled_response_" ++ suffix)) := by
  unfold TellOutcome.heard at same
  split at same
  · rename_i failure
    exact ⟨failure, statedCause_of_unhandled (TellOutcome.failed.inj same)⟩
  split at same
  · cases same
  split at same
  · exact (ofTime_ne_unhandled args suffix same).elim
  · exact (unknown_ne_unhandled _ suffix (TellOutcome.failed.inj same)).elim

theorem confirm_of_unhandled {suffix : String}
    (same : ConfirmOutcome.heard method args = .failed ("m.unhandled_response_" ++ suffix)) :
    method = 0 ∧ args.head? = some (.str ("m.unhandled_response_" ++ suffix)) := by
  unfold ConfirmOutcome.heard at same
  split at same
  · rename_i failure
    exact ⟨failure, statedCause_of_unhandled (ConfirmOutcome.failed.inj same)⟩
  split at same
  · cases same
  · exact (unknown_ne_unhandled _ suffix (ConfirmOutcome.failed.inj same)).elim

theorem heard_eq_succeededIdle_iff {milliseconds : Int64} :
    TellOutcome.heard method args = .succeededIdle milliseconds ↔ method = 2 ∧
      ∃ value, args = [value] ∧ wholeNumber? value = some milliseconds.toInt := by
  rw [← ofTime_eq_succeededIdle_iff]
  unfold TellOutcome.heard
  by_cases idle : method = 2
  · simp [idle]
  · rw [if_neg idle]
    split
    · simp [idle]
    · split <;> simp [idle]

/-- A parked listener is called once for an answer, whatever the answer's id and arguments. -/
theorem heard_of_answer (listen : κ → Dispatcher κ ω) (desk : Client.Desk κ ω)
    (response : Response) (name : κ)
    (parked : desk.director.pending.lookup response.token = some name) :
    let taken := { desk with director := desk.director.withdraw [response.token] }
    let told := TellOutcome.heard response.method response.args
    let confirmed := ConfirmOutcome.heard response.method response.args
    (∀ hear : TellOutcome → Callback κ ω, listen name = onTell hear → Sure listen hear →
      desk.dispatch listen response = (hear told).run listen taken) ∧
    (∀ hear : ConfirmOutcome → Callback κ ω, listen name = onConfirm hear → Sure listen hear →
      desk.dispatch listen response = (hear confirmed).run listen taken) ∧
    (∀ milliseconds, told = .succeededIdle milliseconds ↔ response.method = 2 ∧
      ∃ value, response.args = [value] ∧ wholeNumber? value = some milliseconds.toInt) ∧
    ∀ suffix, told = .failed ("m.unhandled_response_" ++ suffix) ∨
        confirmed = .failed ("m.unhandled_response_" ++ suffix) →
      response.method = 0 ∧
        response.args.head? = some (.str ("m.unhandled_response_" ++ suffix)) := by
  refine ⟨fun hear kept sure => ?_, fun hear kept sure => ?_, fun milliseconds => ?_,
    fun suffix => (·.elim tell_of_unhandled confirm_of_unhandled)⟩
  · rw [onTell_eq_typed] at kept
    rw [dispatch_of_typed kept sure parked, verdict_tell]
  · rw [onConfirm_eq_typed] at kept
    rw [dispatch_of_typed kept sure parked, verdict_confirm]
  · exact heard_eq_succeededIdle_iff

/-- Listeners of both kinds that write down what they hear. -/
def scribes : Bool → Dispatcher Bool (List TellOutcome × List ConfirmOutcome)
  | true => onTell fun outcome => .modify fun notes => (notes.1 ++ [outcome], notes.2)
  | false => onConfirm fun outcome => .modify fun notes => (notes.1, notes.2 ++ [outcome])

def study : Client.Desk Bool (List TellOutcome × List ConfirmOutcome) where
  director := { oid := 1000, pending := [(⟨1000, 1⟩, true), (⟨1000, 2⟩, false)] }
  state := ([], [])

theorem sure_modify {κ ω ο : Type} {listen : κ → Dispatcher κ ω} (note : ο → ω → ω) :
    Sure listen fun outcome => .modify (note outcome) := by
  intro outcome desk error desk' failed
  cases failed

/-- An idle time that is no number, and an answer of no known id. -/
theorem heard_of_answer_scribes :
    (study.dispatch scribes ⟨⟨1000, 1⟩, tellSucceededIdle, [.str "soon"]⟩).2.state =
      ([.failed "bad argument 0: expected long, found string"], []) ∧
    (study.dispatch scribes ⟨⟨1000, 2⟩, 42, [.null, .null]⟩).2.state =
      ([], [.failed "m.unknown_response_42"]) := by
  obtain ⟨told, -⟩ := heard_of_answer scribes study
    ⟨⟨1000, 1⟩, tellSucceededIdle, [.str "soon"]⟩ true rfl
  obtain ⟨-, confirmed, -⟩ := heard_of_answer scribes study
    ⟨⟨1000, 2⟩, 42, [.null, .null]⟩ false rfl
  constructor
  · rw [told _ rfl (sure_modify _)]
    decide +kernel
  · rw [confirmed _ rfl (sure_modify _)]
    decide +kernel

end Parley.Chat
