import Mathlib.Data.List.Nodup
import Mathlib.Data.List.Perm.Subperm
import Parley.Proofs.Dispatch.Program
import Parley.Proofs.Dispatch.Routing
import Parley.Proofs.Dispatch.Running

/-! How often a listener is answered.
A listener is named by its position among the arguments, and each position answers once. So no
token gets more answers than there are positions that hold it: one at most, if no token stands at
two positions, and two if one does and the handler answers both. -/

namespace Parley

namespace Arguments

variable {args : Arguments} {position : Nat} {token : Token}

theorem listenerAt?_cons_succ (value : Value) (rest : Arguments) (position : Nat) :
    listenerAt? (value :: rest) (position + 1) = rest.listenerAt? position := rfl

theorem tokens_eq_filterMap (args : Arguments) :
    args.tokens = (List.range args.length).filterMap args.listenerAt? := by
  induction args with
  | nil => rfl
  | cons value rest ih =>
    have later : tokens rest =
        ((List.range rest.length).map Nat.succ).filterMap (listenerAt? (value :: rest)) := by
      rw [ih, List.filterMap_map]
      rfl
    rw [List.length_cons, List.range_succ_eq_map, List.filterMap_cons, ← later, tokens,
      List.filterMap_cons]
    rfl

theorem lt_length_of_listenerAt? (h : args.listenerAt? position = some token) :
    position < args.length := by
  obtain ⟨value, found, -⟩ := Option.bind_eq_some_iff.1 h
  exact (List.getElem?_eq_some_iff.1 found).1

theorem nodup_tokens_iff (args : Arguments) :
    args.tokens.Nodup ↔ ∀ position other token, args.listenerAt? position = some token →
      args.listenerAt? other = some token → position = other := by
  rw [tokens_eq_filterMap, List.Nodup, List.pairwise_filterMap]
  refine ⟨fun apart position other token here there => ?_, fun apart => ?_⟩
  · by_contra ne
    have ordered : ∀ p q, args.listenerAt? p = some token → args.listenerAt? q = some token →
        ¬ p < q := by
      intro p q at_p at_q lt
      have both := List.pairwise_iff_getElem.1 apart p q
        (by simpa using lt_length_of_listenerAt? at_p)
        (by simpa using lt_length_of_listenerAt? at_q) lt
      simp only [List.getElem_range] at both
      exact both token at_p token at_q rfl
    have below := ordered position other here there
    have above := ordered other position there here
    omega
  · refine List.pairwise_lt_range.imp fun {p q} lt token at_p token' at_q same => ?_
    rw [← same] at at_q
    exact Nat.ne_of_lt lt (apart p q token at_p at_q)

theorem listenerAt?_of_mem {start : Nat} (mem : (position, token) ∈ args.listenersFrom start) :
    start ≤ position ∧ args.listenerAt? (position - start) = some token := by
  induction args generalizing start with
  | nil => cases mem
  | cons value rest ih =>
    have later : (position, token) ∈ listenersFrom (start + 1) rest →
        start ≤ position ∧ listenerAt? (value :: rest) (position - start) = some token := by
      intro mem
      obtain ⟨le, found⟩ := ih mem
      have next : position - start = position - (start + 1) + 1 := by omega
      rw [next, listenerAt?_cons_succ]
      exact ⟨by omega, found⟩
    unfold listenersFrom at mem
    split at mem
    · rename_i here
      obtain same | mem := List.mem_cons.1 mem
      · cases same
        rw [Nat.sub_self]
        exact ⟨Nat.le_refl _, here⟩
      · exact later mem
    · exact later mem

theorem head?_listenersFrom_eq_some_iff (args : Arguments) (start : Nat) :
    (args.listenersFrom start).head? = some (start + position, token) ↔
      args.listenerAt? position = some token ∧
        ∀ other < position, args.listenerAt? other = none := by
  induction args generalizing start position with
  | nil => exact ⟨nofun, fun h => nomatch h.1⟩
  | cons value rest ih =>
    have here : listenerAt? (value :: rest) 0 = value.token? := rfl
    unfold listenersFrom
    split
    · rename_i first own
      rw [List.head?_cons]
      constructor
      · intro same
        obtain ⟨at_start, rfl⟩ := Prod.mk.inj (Option.some.inj same)
        obtain rfl : position = 0 := by omega
        exact ⟨here.trans own, fun other less => absurd less (Nat.not_lt_zero other)⟩
      · rintro ⟨found, before⟩
        cases position with
        | zero =>
          rw [here, own] at found
          rw [Option.some.inj found]
          rfl
        | succ position =>
          have absent := before 0 (Nat.succ_pos position)
          rw [here, own] at absent
          cases absent
    · rename_i own
      cases position with
      | zero =>
        rw [here, own]
        refine ⟨fun head => ?_, fun found => nomatch found.1⟩
        have beyond := (listenerAt?_of_mem (List.mem_of_mem_head? head)).1
        omega
      | succ position =>
        have shifted : start + (position + 1) = start + 1 + position := by omega
        rw [shifted, ih, listenerAt?_cons_succ]
        refine and_congr_right fun _ => ⟨fun before other less => ?_, fun before other less => ?_⟩
        · cases other with
          | zero => exact here.trans own
          | succ other => exact before other (Nat.lt_of_succ_lt_succ less)
        · exact before (other + 1) (Nat.succ_lt_succ less)

theorem firstListener?_eq_some_iff : args.firstListener? = some (position, token) ↔
    args.listenerAt? position = some token ∧
      ∀ other < position, args.listenerAt? other = none := by
  have head : (args.listenersFrom 0).head? = some (0 + position, token) ↔ _ :=
    head?_listenersFrom_eq_some_iff args 0
  rwa [Nat.zero_add] at head

theorem listenerAt?_of_firstListener? (h : args.firstListener? = some (position, token)) :
    args.listenerAt? position = some token :=
  (firstListener?_eq_some_iff.1 h).1

end Arguments

namespace Ledger

variable {args : Arguments} {ledger : Ledger} {position : Nat} {response : Response}

/-- The answers in the ledger are those of different listeners among the arguments. -/
structure Fair (args : Arguments) (ledger : Ledger) : Prop where
  tokens : ledger.posted.map (·.token) = ledger.answered.reverse.filterMap args.listenerAt?
  distinct : ledger.answered.Nodup

theorem Fair.empty (args : Arguments) : Fair args {} := ⟨rfl, List.nodup_nil⟩

theorem Fair.respond (fair : ledger.Fair args)
    (found : args.listenerAt? position = some response.token) :
    (ledger.respond position response).2.Fair args := by
  unfold Ledger.respond
  split
  · exact fair
  · rename_i unanswered
    refine ⟨?_, List.nodup_cons.2 ⟨by simpa [hasResponded] using unanswered, fair.distinct⟩⟩
    rw [List.map_append, fair.tokens, List.reverse_cons, List.filterMap_append, List.map_singleton,
      List.filterMap_cons, found]
    rfl

/-- A token has no more answers than there are listeners with that token. -/
theorem Fair.subperm (fair : ledger.Fair args) :
    (ledger.posted.map (·.token)).Subperm args.tokens := by
  -- positions behind the last argument hold no token, so only the others count
  have inside : ledger.answered.reverse.filterMap args.listenerAt? =
      (ledger.answered.reverse.filter (· < args.length)).filterMap args.listenerAt? := by
    rw [List.filterMap_filter]
    refine List.filterMap_congr fun position _ => ?_
    cases found : args.listenerAt? position with
    | none => simp
    | some token => simp [Arguments.lt_length_of_listenerAt? found]
  have distinct : (ledger.answered.reverse.filter (· < args.length)).Nodup :=
    (List.nodup_reverse.2 fair.distinct).filter _
  have among : ledger.answered.reverse.filter (· < args.length) ⊆ List.range args.length := by
    intro position mem
    simpa using (List.mem_filter.1 mem).2
  obtain ⟨positions, perm, sublist⟩ := distinct.subperm among
  rw [fair.tokens, inside, Arguments.tokens_eq_filterMap]
  exact ⟨_, perm.filterMap _, sublist.filterMap _⟩

end Ledger

namespace Dispatch

section

variable {sink : Response → σ → σ} {args : Arguments} {P : Ledger → Prop}

theorem Program.ledger_run
    (step : ∀ ledger position (response : Response), P ledger →
      args.listenerAt? position = some response.token → P (ledger.respond position response).2)
    (program : Program σ α) {x : Exchange σ} (start : P x.ledger) :
    P (program.run sink args x).2.ledger := by
  induction program generalizing x with
  | done a => exact start
  | fail error => exact start
  | panic text => exact start
  | read next ih => exact ih x.state start
  | write state next ih => exact ih (x := { x with state }) start
  | hasResponded position next ih => exact ih _ start
  | respond position method values next ih =>
    cases found : args.listenerAt? position with
    | none =>
      rw [run_respond_of_none found]
      exact ih false start
    | some token =>
      rw [run_respond_of_some found]
      exact ih _ (step x.ledger position ⟨token, method, values⟩ start found)

namespace Registry

variable {registry : Registry τ σ} {caller : Caller} {request : Request}

theorem ledger_handle
    (step : ∀ ledger position (response : Response), P ledger →
      request.args.listenerAt? position = some response.token →
        P (ledger.respond position response).2)
    {x : Exchange σ} (start : P x.ledger) :
    P (registry.handle sink caller request x).2.2.ledger := by
  cases found : registry.taker? request.target request.method with
  | none =>
    obtain ⟨registry', handled, -⟩ := handle_of_none sink caller x found
    rw [handled]
    exact start
  | some entry =>
    obtain ⟨registry', handled, -⟩ := handle_of_entry sink caller x found
    rw [handled]
    exact Program.ledger_run step (entry.handler caller request.args) start

theorem report_of_none (h : args.firstListener? = none) (error : InvocationError)
    (x : Exchange σ) : report sink args error x = x := by
  rw [report, h]

theorem report_of_first {position : Nat} {token : Token}
    (h : args.firstListener? = some (position, token)) (error : InvocationError)
    (x : Exchange σ) :
    (report sink args error x).ledger =
      (x.ledger.respond position (.failed token error.text)).2 := by
  rw [report, h]
  dsimp only
  rcases x.ledger.respond position (.failed token error.text) with ⟨_ | _, ledger⟩ <;> rfl

theorem ledger_report
    (step : ∀ ledger position (response : Response), P ledger →
      args.listenerAt? position = some response.token → P (ledger.respond position response).2)
    (error : InvocationError) {x : Exchange σ} (start : P x.ledger) :
    P (report sink args error x).ledger := by
  cases first : args.firstListener? with
  | none =>
    rw [report_of_none first]
    exact start
  | some listener =>
    rw [report_of_first first]
    exact step _ _ _ start (Arguments.listenerAt?_of_firstListener? first)

/-- A call is handled, and its failure is reported; a panic is not. -/
theorem dispatch_eq (sink : Response → σ → σ) (registry : Registry τ σ) (caller : Caller)
    (request : Request) (state : σ) :
    registry.dispatch sink caller request state =
      ((registry.handle sink caller request { state }).1,
        (registry.handle sink caller request { state }).2.1,
        match (registry.handle sink caller request { state }).1 with
        | .failed error =>
          report sink request.args error (registry.handle sink caller request { state }).2.2
        | _ => (registry.handle sink caller request { state }).2.2) := by
  unfold dispatch
  rcases registry.handle sink caller request { state } with ⟨outcome, registry', x⟩
  cases outcome <;> rfl

theorem ledger_dispatch
    (step : ∀ ledger position (response : Response), P ledger →
      request.args.listenerAt? position = some response.token →
        P (ledger.respond position response).2)
    (state : σ) (start : P {}) :
    P (registry.dispatch sink caller request state).2.2.ledger := by
  have handled : P (registry.handle sink caller request { state }).2.2.ledger :=
    ledger_handle step start
  rw [dispatch_eq]
  dsimp only
  split
  · rename_i error _
    exact ledger_report step error handled
  · exact handled

theorem fair_dispatch (sink : Response → σ → σ) (registry : Registry τ σ) (caller : Caller)
    (request : Request) (state : σ) :
    (registry.dispatch sink caller request state).2.2.ledger.Fair request.args :=
  ledger_dispatch (fun _ _ _ fair found => fair.respond found) state (.empty request.args)

/-- A host with one object, which does the same whatever is asked of it. -/
def sole [Inhabited τ] (handler : Handler τ σ) : Registry τ σ :=
  (register {} ⟨⟨⟨"echo", [⟨"echo", 1⟩]⟩, [⟨1, default, handler⟩]⟩, []⟩).2

/-- Answers through two listeners. -/
def twice (position other : Nat) : Handler τ σ := fun _ _ =>
  .respond position requestProcessed [] fun _ =>
    .respond other requestProcessed [] fun _ => .done ()

theorem posted_twice [Inhabited τ] (sink : Response → σ → σ) (caller : Caller) (state : σ)
    {position other : Nat} {token : Token} (ne : position ≠ other)
    (here : args.listenerAt? position = some token)
    (there : args.listenerAt? other = some token) :
    ((sole (twice position other) : Registry τ σ).dispatch sink caller ⟨1, 1, args⟩
      state).2.2.ledger.posted = [.processed token, .processed token] := by
  let request : Request := ⟨1, 1, args⟩
  have found : (sole (twice position other) : Registry τ σ).taker? request.target request.method =
      some ⟨1, default, twice position other⟩ := rfl
  obtain ⟨registry', handled, -⟩ := handle_of_entry sink caller { state } found
  rw [dispatch_eq, handled]
  simp [Entry.handle, twice, Program.run, request, here, there, Ledger.respond, Ledger.hasResponded,
    Ne.symm ne, Response.processed]

/-- In every call each token is answered once at most, whatever handles the call, just when no
token stands twice among the arguments. -/
theorem answers_nodup_iff [Inhabited τ] [Inhabited σ] (args : Arguments) :
    (∀ (registry : Registry τ σ) (sink : Response → σ → σ) (caller : Caller) (target : Oid)
      (method : UInt8) (state : σ),
      ((registry.dispatch sink caller ⟨target, method, args⟩ state).2.2.ledger.posted.map
        (·.token)).Nodup) ↔ args.tokens.Nodup := by
  refine ⟨fun once => ?_, fun distinct registry sink caller target method state => ?_⟩
  · -- a handler that answers both positions of one token would post it twice
    refine (args.nodup_tokens_iff).2 fun position other token here there => ?_
    by_contra ne
    have twofold := once (sole (twice position other)) (fun _ state => state) ⟨0, ""⟩ 1 1 default
    rw [posted_twice _ _ _ ne here there] at twofold
    exact (List.nodup_cons.1 twofold).1 (List.mem_singleton_self _)
  · obtain ⟨tokens, perm, sublist⟩ :=
      (fair_dispatch sink registry caller ⟨target, method, args⟩ state).subperm
    exact perm.nodup_iff.1 (distinct.sublist sublist)

end Registry

end

end Dispatch

end Parley
