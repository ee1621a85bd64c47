import Parley.Proofs.Dispatch.Attempts
import Parley.Proofs.Dispatch.Registration
import Parley.Proofs.Dispatch.Resolution

/-! What is left of a call that fails.
Of the answers that a handler tries to give, the first through each listener is posted. Behind them
the failure is told to the first listener, if the handler has not tried to answer that one. The
handler's own state and the shared one are as it left them; nothing else in the registry has
changed, so the calls behind go as they would have gone without this one. -/

namespace Parley.Dispatch

section

variable {sink : Response → σ → σ} {caller : Caller} {request : Request} {x : Exchange σ}

namespace Registry

variable {registry registry' : Registry τ σ} {place : Nat} {entry : Entry τ σ}

def entryAt? (registry : Registry τ σ) (oid : Oid) (place : Nat) (method : UInt8) :
    Option (Entry τ σ) :=
  (registry.find? oid).bind fun chain => Dispatch.entryAt? chain.tables place method

def services? (registry : Registry τ σ) (oid : Oid) : Option (List ServiceDescriptor) :=
  (registry.find? oid).map fun chain => chain.tables.map (·.service)

/-- The entry is the first that an object has for the method. -/
structure Selects (registry : Registry τ σ) (target : Oid) (method : UInt8) (place : Nat)
    (entry : Entry τ σ) : Prop where
  found : registry.entryAt? target place method = some entry
  first : ∀ other < place, registry.entryAt? target other method = none

/-- The same objects are registered, and the next one will get the same oid. -/
structure SameObjects (registry registry' : Registry τ σ) : Prop where
  cursor : registry'.cursor = registry.cursor
  services : ∀ oid, registry'.services? oid = registry.services? oid
  bindings : registry.Ascending → registry'.bindings = registry.bindings

def refit (handler : Handler τ σ) (registry : Registry τ σ) : Registry τ σ :=
  { registry with targets := registry.targets.map fun (oid, chain) => (oid, chain.refit handler) }

def attempts (sink : Response → σ → σ) (registry : Registry τ σ) (caller : Caller)
    (request : Request) (state : σ) : List Attempt :=
  match registry.taker? request.target request.method with
  | none => []
  | some entry => entry.attempts sink caller request { state }

theorem entryAt?_of_find? {oid : Oid} {chain : Chain τ σ}
    (found : registry.find? oid = some chain) :
    registry.entryAt? oid = Dispatch.entryAt? chain.tables := by
  funext place method
  rw [entryAt?, found, Option.bind_some]

theorem selects_iff_of_find? {target : Oid} {method : UInt8} {chain : Chain τ σ}
    (found : registry.find? target = some chain) :
    registry.Selects target method place entry ↔
      Dispatch.entryAt? chain.tables place method = some entry ∧
        ∀ other < place, Dispatch.entryAt? chain.tables other method = none := by
  rw [← entryAt?_of_find? found]
  exact ⟨fun selects => ⟨selects.found, selects.first⟩, fun both => ⟨both.1, both.2⟩⟩

theorem taker?_eq_some_iff {target : Oid} {method : UInt8} :
    registry.taker? target method = some entry ↔
      ∃ place, registry.Selects target method place entry := by
  cases found : registry.find? target with
  | none =>
    rw [taker?, found]
    constructor
    · intro taken
      cases taken
    · rintro ⟨place, selects⟩
      have here := selects.found
      rw [entryAt?, found] at here
      cases here
  | some chain =>
    rw [taker?, found, Option.bind_some, Chain.taker?_eq_some_iff]
    exact exists_congr fun place => (selects_iff_of_find? found).symm

theorem taker?_eq_none_iff {target : Oid} {method : UInt8} :
    registry.taker? target method = none ↔
      ∀ place, registry.entryAt? target place method = none := by
  refine ⟨fun nobody place => ?_, fun nobody => ?_⟩
  · cases found : registry.find? target with
    | none => rw [entryAt?, found, Option.bind_none]
    | some chain =>
      rw [taker?, found, Option.bind_some] at nobody
      rw [entryAt?, found, Option.bind_some, Dispatch.entryAt?]
      cases here : chain.tables[place]? with
      | none => rfl
      | some table =>
        exact List.findSome?_eq_none_iff.1 nobody table (List.mem_of_getElem? here)
  · cases taken : registry.taker? target method with
    | none => rfl
    | some entry =>
      obtain ⟨place, selects⟩ := taker?_eq_some_iff.1 taken
      have here := selects.found
      rw [nobody place] at here
      cases here

theorem contains_of_services {oid : Oid} (same : registry'.services? oid = registry.services? oid) :
    registry'.contains oid = registry.contains oid := by
  have held := congrArg Option.isSome same
  rwa [services?, services?, Option.isSome_map, Option.isSome_map] at held

theorem map_place {f : Oid × Chain τ σ → β} {oid : Oid} {chain old : Chain τ σ}
    {targets : List (Oid × Chain τ σ)} (ascending : (targets.map (·.1)).Pairwise (· < ·))
    (found : targets.lookup oid = some old) (same : f (oid, chain) = f (oid, old)) :
    (Registry.place oid chain targets).map f = targets.map f := by
  induction targets with
  | nil => cases found
  | cons first rest ih =>
    rw [List.map_cons, List.pairwise_cons] at ascending
    obtain ⟨least, others⟩ := ascending
    rw [lookup_cons_eq] at found
    unfold Registry.place
    split
    · rename_i less
      rw [if_neg (Int32.ne_of_lt less)] at found
      have mem := (lookup_eq_some_iff_mem (others.imp Int32.ne_of_lt)).1 found
      exact absurd (least oid (List.mem_map_of_mem mem)) (Int32.lt_asymm less)
    · split
      · rename_i here
        rw [if_pos here] at found
        obtain rfl := here
        rw [List.map_cons, List.map_cons, same, ← Option.some.inj found]
      · rename_i apart
        rw [if_neg apart] at found
        rw [List.map_cons, List.map_cons, ih others found]

theorem report_of_answered {args : Arguments} {position : Nat} {token : Token} {y : Exchange σ}
    (first : args.firstListener? = some (position, token))
    (heard : y.ledger.hasResponded position = true) (error : InvocationError) :
    report sink args error y = y := by
  rw [report, first]
  dsimp only
  rw [Ledger.respond_of_answered heard]

theorem handle_of_find?_none (absent : registry.find? request.target = none) :
    registry.handle sink caller request x =
      (.failed (.noSuchTarget request.target), registry, x) := by
  rw [handle, absent]

theorem handle_of_find?_some {chain : Chain τ σ}
    (found : registry.find? request.target = some chain) :
    let ended := chain.dispatch sink caller request x
    let targets := Registry.place request.target ended.2.1 registry.targets
    registry.handle sink caller request x =
      (ended.1, { registry with targets }, ended.2.2) := by
  rw [handle, found]

variable (sink caller request x) in
theorem sameObjects_handle (registry : Registry τ σ) :
    registry.SameObjects (registry.handle sink caller request x).2.1 := by
  cases found : registry.find? request.target with
  | none =>
    rw [handle_of_find?_none found]
    exact ⟨rfl, fun _ => rfl, fun _ => rfl⟩
  | some chain =>
    rw [handle_of_find?_some found]
    have services := chain.services_dispatch sink caller request x
    refine ⟨rfl, fun oid => ?_, fun ascending => map_place ascending found ?_⟩
    · rw [services?, services?, find?_place]
      split
      · rename_i same
        rw [same, found, Option.map_some, Option.map_some, services]
      · rfl
    · have service : (chain.dispatch sink caller request x).2.1.service = chain.service :=
        (List.cons.inj services).1
      exact congrArg (fun own => Binding.mk own.name request.target) service

variable (sink caller x) in
theorem entryAt?_handle (selects : registry.Selects request.target request.method place entry)
    (oid : Oid) (other : Nat) (method : UInt8) :
    (registry.handle sink caller request x).2.1.entryAt? oid other method =
      if oid = request.target ∧ other = place ∧ method = request.method then
        some (entry.handle sink caller request x).2.1
      else registry.entryAt? oid other method := by
  obtain ⟨chain, found, -⟩ := Option.bind_eq_some_iff.1 selects.found
  obtain ⟨here, first⟩ := (selects_iff_of_find? found).1 selects
  obtain ⟨chain', handled, -, entries⟩ := Chain.dispatch_of_place sink caller x here first
  rw [handle_of_find?_some found, handled, entryAt?, find?_place]
  by_cases same : oid = request.target
  · rw [if_pos same, Option.bind_some, entries, entryAt?, same, found, Option.bind_some]
    simp only [true_and]
  · rw [if_neg same, if_neg fun both => same both.1, entryAt?]

variable (sink caller x) in
theorem entryAt?_handle_of_none (nobody : registry.taker? request.target request.method = none)
    (oid : Oid) (place : Nat) (method : UInt8) :
    (registry.handle sink caller request x).2.1.entryAt? oid place method =
      registry.entryAt? oid place method := by
  obtain ⟨registry', handled, same⟩ := handle_of_none sink caller x nobody
  rw [handled, entryAt?, entryAt?, same]

variable (sink caller x) in
theorem taker?_handle_of_apart {oid : Oid} {method : UInt8}
    (apart : registry.taker? request.target request.method = none ∨
      ¬ (oid = request.target ∧ method = request.method)) :
    (registry.handle sink caller request x).2.1.taker? oid method =
      registry.taker? oid method := by
  cases found : registry.taker? request.target request.method with
  | none =>
    obtain ⟨last, handled, same⟩ := handle_of_none sink caller x found
    rw [handled, taker?, same, taker?]
  | some entry =>
    obtain ⟨last, handled, others⟩ := handle_of_entry sink caller x found
    rw [handled, others, if_neg (apart.resolve_left fun none => ?_)]
    rw [found] at none
    cases none

/-- What becomes of a call depends only on the entry that it reaches and on its target being
there. -/
theorem dispatch_congr
    (taker : registry'.taker? request.target request.method =
      registry.taker? request.target request.method)
    (held : registry'.contains request.target = registry.contains request.target) (state : σ) :
    (registry'.dispatch sink caller request state).1 =
        (registry.dispatch sink caller request state).1 ∧
      (registry'.dispatch sink caller request state).2.2 =
        (registry.dispatch sink caller request state).2.2 := by
  have handled : (registry'.handle sink caller request { state }).1 =
        (registry.handle sink caller request { state }).1 ∧
      (registry'.handle sink caller request { state }).2.2 =
        (registry.handle sink caller request { state }).2.2 := by
    cases found : registry.taker? request.target request.method with
    | none =>
      obtain ⟨last, handled, -⟩ := handle_of_none sink caller { state } found
      obtain ⟨last', handled', -⟩ := handle_of_none sink caller { state } (taker.trans found)
      have why : registry'.refusal request = registry.refusal request := by
        rw [refusal, refusal, held]
      rw [handled, handled', why]
      exact ⟨rfl, rfl⟩
    | some entry =>
      obtain ⟨last, handled, -⟩ := handle_of_entry sink caller { state } found
      obtain ⟨last', handled', -⟩ := handle_of_entry sink caller { state } (taker.trans found)
      rw [handled, handled']
      exact ⟨rfl, rfl⟩
  rw [dispatch_eq, dispatch_eq, handled.1, handled.2]
  exact ⟨rfl, rfl⟩

theorem find?_refit (handler : Handler τ σ) (registry : Registry τ σ) (oid : Oid) :
    (registry.refit handler).find? oid = (registry.find? oid).map (·.refit handler) := by
  obtain ⟨targets, cursor⟩ := registry
  unfold find? refit
  dsimp only
  induction targets with
  | nil => rfl
  | cons first rest ih =>
    rw [List.map_cons, lookup_cons_eq, lookup_cons_eq, ih]
    split <;> rfl

theorem taker?_refit (handler : Handler τ σ) (registry : Registry τ σ) (target : Oid)
    (method : UInt8) :
    (registry.refit handler).taker? target method =
      (registry.taker? target method).map fun entry => { entry with handler } := by
  rw [taker?, taker?, find?_refit]
  cases registry.find? target with
  | none => rfl
  | some chain => exact chain.taker?_refit handler method

theorem refusal_refit (handler : Handler τ σ) (registry : Registry τ σ) (request : Request) :
    (registry.refit handler).refusal request = registry.refusal request := by
  rw [refusal, refusal, contains, contains, find?_refit, Option.isSome_map]

theorem taker?_eq_none_iff_refused (state : σ) :
    registry.taker? request.target request.method = none ↔ ∀ handler,
      ((registry.refit handler).dispatch sink caller request state).1 =
        .failed (registry.refusal request) := by
  refine ⟨fun nobody handler => ?_, fun refused => ?_⟩
  · have nobody' : (registry.refit handler).taker? request.target request.method = none := by
      rw [taker?_refit, nobody]
      rfl
    obtain ⟨last, handled, -⟩ := handle_of_none sink caller { state } nobody'
    rw [dispatch_eq, handled, refusal_refit]
  · -- a handler that returns would make the call return
    cases found : registry.taker? request.target request.method with
    | none => rfl
    | some entry =>
      let idle : Handler τ σ := fun _ _ => .done ()
      have found' : (registry.refit idle).taker? request.target request.method =
          some { entry with handler := idle } := by
        rw [taker?_refit, found]
        rfl
      obtain ⟨last, handled, -⟩ := handle_of_entry sink caller { state } found'
      have ended := refused idle
      rw [dispatch_eq, handled] at ended
      cases ended

end Registry

/-- The answer that a call owes for its failure: to the listener at the lowest position, with the
text of the error, unless its handler has tried to answer that one. -/
def Owed (args : Arguments) (tries : List Attempt) (outcome : Outcome Unit)
    (response : Response) : Prop :=
  ∃ error position token, outcome = .failed error ∧ args.listenerAt? position = some token ∧
    (∀ other < position, args.listenerAt? other = none) ∧
    (∀ attempt ∈ tries, attempt.position ≠ position) ∧ response = .failed token error.text

/-- Between two states of a call that ended with `outcome`, these answers were told, and they are
just what it owes. -/
structure Told (sink : Response → σ → σ) (args : Arguments) (tries : List Attempt)
    (outcome : Outcome Unit) (x y : Exchange σ) (reports : List Response) : Prop where
  once : reports.length ≤ 1
  owed : ∀ response, reports = [response] ↔ Owed args tries outcome response
  posted : y.ledger.posted = x.ledger.posted ++ reports
  state : y.state = reports.foldl (fun state response => sink response state) x.state

theorem Told.nothing {args : Arguments} {tries : List Attempt} {outcome : Outcome Unit}
    (x : Exchange σ) (free : ∀ response, ¬ Owed args tries outcome response) :
    Told sink args tries outcome x x [] :=
  ⟨Nat.zero_le 1, fun response => ⟨nofun, fun owed => (free response owed).elim⟩,
    (List.append_nil _).symm, rfl⟩

namespace Registry

theorem told_report {args : Arguments} {tries : List Attempt} (error : InvocationError)
    (x : Exchange σ) (answered : ∀ position token, args.listenerAt? position = some token →
      (x.ledger.hasResponded position = true ↔
        ∃ attempt ∈ tries, attempt.position = position)) :
    ∃ reports, Told sink args tries (.failed error) x (report sink args error x) reports := by
  cases first : args.firstListener? with
  | none =>
    rw [report_of_none first]
    refine ⟨[], .nothing x fun response ⟨_, position, token, _, here, before, _⟩ => ?_⟩
    rw [Arguments.firstListener?_eq_some_iff.2 ⟨here, before⟩] at first
    cases first
  | some listener =>
    obtain ⟨position, token⟩ := listener
    obtain ⟨here, before⟩ := Arguments.firstListener?_eq_some_iff.1 first
    have same : ∀ other t, args.listenerAt? other = some t →
        (∀ earlier < other, args.listenerAt? earlier = none) → other = position ∧ t = token := by
      intro other t there before'
      rw [Arguments.firstListener?_eq_some_iff.2 ⟨there, before'⟩] at first
      exact Prod.mk.inj (Option.some.inj first)
    cases heard : x.ledger.hasResponded position with
    | true =>
      rw [report_of_answered first heard]
      obtain ⟨attempt, mem, own⟩ := (answered position token here).1 heard
      refine ⟨[], .nothing x fun response ⟨_, other, t, _, there, before', apart, _⟩ => ?_⟩
      obtain ⟨rfl, -⟩ := same other t there before'
      exact apart attempt mem own
    | false =>
      rw [report_eq_answer first heard]
      refine ⟨[.failed token error.text], Nat.le_refl 1, fun response => ?_, rfl, rfl⟩
      constructor
      · intro owed
        refine ⟨error, position, token, rfl, here, before, fun attempt mem own => ?_,
          (List.singleton_inj.1 owed).symm⟩
        have tried := (answered position token here).2 ⟨attempt, mem, own⟩
        rw [heard] at tried
        cases tried
      · rintro ⟨error', other, t, ended, there, before', -, rfl⟩
        obtain ⟨-, rfl⟩ := same other t there before'
        cases ended
        rfl

theorem ledger_handle_of_attempts (sink : Response → σ → σ) (registry : Registry τ σ)
    (caller : Caller) (request : Request) (state : σ) :
    let tries := registry.attempts sink caller request state
    let after := (registry.handle sink caller request { state }).2.2.ledger
    after.posted = counted request.args [] tries ∧
      ∀ position token, request.args.listenerAt? position = some token →
        (after.hasResponded position = true ↔ ∃ attempt ∈ tries, attempt.position = position) := by
  unfold attempts
  cases found : registry.taker? request.target request.method with
  | none =>
    obtain ⟨last, handled, -⟩ := handle_of_none sink caller { state } found
    rw [handled]
    exact ⟨rfl, by simp [Ledger.hasResponded]⟩
  | some entry =>
    obtain ⟨last, handled, -⟩ := handle_of_entry sink caller { state } found
    obtain ⟨posted, answered⟩ := Program.ledger_of_attempts
      (fun response state => (state.1, sink response state.2)) request.args
      (entry.handler caller request.args) ⟨(entry.state, state), {}⟩
    rw [handled]
    refine ⟨posted.trans (List.nil_append _), fun position token here => ?_⟩
    refine (answered position token here).trans (or_iff_right ?_)
    simp [Ledger.hasResponded]

theorem told_dispatch (sink : Response → σ → σ) (registry : Registry τ σ) (caller : Caller)
    (request : Request) (state : σ) :
    let handled := registry.handle sink caller request { state }
    ∃ reports, Told sink request.args (registry.attempts sink caller request state) handled.1
      handled.2.2 (registry.dispatch sink caller request state).2.2 reports := by
  obtain ⟨-, answered⟩ := ledger_handle_of_attempts sink registry caller request state
  dsimp only
  rw [dispatch_eq]
  dsimp only
  cases (registry.handle sink caller request { state }).1 with
  | returned a => exact ⟨[], .nothing _ fun response ⟨_, _, _, failed, _⟩ => nomatch failed⟩
  | panicked text => exact ⟨[], .nothing _ fun response ⟨_, _, _, failed, _⟩ => nomatch failed⟩
  | failed error => exact told_report error _ answered

/-- What is left of a call that fails: the answers of the handler that count, and behind them the
failure, if it is owed to a listener. -/
theorem failure_of_dispatch (sink : Response → σ → σ) (registry : Registry τ σ) (caller : Caller)
    (request : Request) (state : σ) :
    let handled := registry.handle sink caller request { state }
    let after := registry.dispatch sink caller request state
    let tries := registry.attempts sink caller request state
    let nobody := ∀ place, registry.entryAt? request.target place request.method = none
    (∃ reports : List Response, reports.length ≤ 1 ∧
      (∀ response, reports = [response] ↔ Owed request.args tries after.1 response) ∧
      after.2.2.ledger.posted = counted request.args [] tries ++ reports ∧
      after.2.2.state = reports.foldl (fun s response => sink response s) handled.2.2.state) ∧
    (nobody → tries = [] ∧ after.1 = .failed (registry.refusal request) ∧
      handled.2.2.state = state ∧ ∀ oid place method,
        after.2.1.entryAt? oid place method = registry.entryAt? oid place method) ∧
    (nobody ↔ ∀ handler, ((registry.refit handler).dispatch sink caller request state).1 =
      .failed (registry.refusal request)) ∧
    (¬ nobody → ∃ place entry,
      registry.Selects request.target request.method place entry) ∧
    (∀ place entry, registry.Selects request.target request.method place entry →
      let ran := entry.handle sink caller request { state }
      tries = entry.attempts sink caller request { state } ∧ after.1 = ran.1 ∧
      handled.2.2 = ran.2.2 ∧ ∀ oid other method, after.2.1.entryAt? oid other method =
        if oid = request.target ∧ other = place ∧ method = request.method then some ran.2.1
        else registry.entryAt? oid other method) ∧
    registry.SameObjects after.2.1 ∧
    ∀ (later : Request) (other : Caller) (s : σ),
      nobody ∨ ¬ (later.target = request.target ∧ later.method = request.method) →
      (after.2.1.dispatch sink other later s).1 = (registry.dispatch sink other later s).1 ∧
      (after.2.1.dispatch sink other later s).2.2 =
        (registry.dispatch sink other later s).2.2 := by
  intro handled after tries nobody
  have whole : after = _ := dispatch_eq sink registry caller request state
  have registered : after.2.1 = handled.2.1 := by rw [whole]
  have ended : after.1 = handled.1 := by rw [whole]
  have objects : registry.SameObjects handled.2.1 :=
    registry.sameObjects_handle sink caller request { state }
  have stray : registry.taker? request.target request.method = none ↔ nobody := taker?_eq_none_iff
  obtain ⟨posted, -⟩ := ledger_handle_of_attempts sink registry caller request state
  obtain ⟨reports, told⟩ := told_dispatch sink registry caller request state
  refine ⟨⟨reports, told.once, ended ▸ told.owed, ?_, told.state⟩, fun none => ?_, ?_, ?_,
    fun place entry selects => ?_, registered ▸ objects, fun later other s apart => ?_⟩
  · rw [← posted]
    exact told.posted
  · obtain ⟨last, refused, -⟩ := handle_of_none sink caller { state } (stray.2 none)
    refine ⟨?_, ?_, ?_, fun oid place method => ?_⟩
    · unfold tries attempts
      rw [stray.2 none]
    · rw [ended]
      exact congrArg (·.1) refused
    · exact congrArg (·.2.2.state) refused
    · rw [registered]
      exact entryAt?_handle_of_none sink caller { state } (stray.2 none) oid place method
  · exact stray.symm.trans (taker?_eq_none_iff_refused state)
  · intro somebody
    obtain ⟨entry, found⟩ := Option.ne_none_iff_exists'.1 (mt stray.1 somebody)
    obtain ⟨place, selects⟩ := taker?_eq_some_iff.1 found
    exact ⟨place, entry, selects⟩
  · have found := taker?_eq_some_iff.2 ⟨place, selects⟩
    obtain ⟨last, ran, -⟩ := handle_of_entry sink caller { state } found
    refine ⟨?_, ?_, congrArg (·.2.2) ran, fun oid other method => ?_⟩
    · unfold tries attempts
      rw [found]
    · rw [ended]
      exact congrArg (·.1) ran
    · rw [registered]
      exact entryAt?_handle sink caller { state } selects oid other method
  · refine dispatch_congr ?_ ?_ s
    · rw [registered]
      exact taker?_handle_of_apart sink caller { state } (apart.imp_left stray.2)
    · rw [registered]
      exact contains_of_services (objects.services later.target)

/-- A handler answers the second listener and then fails: the first one hears of it. -/
example :
    let failing : Handler Unit Unit := fun _ _ =>
      .respond 1 requestProcessed [] fun _ => .fail (.failed "later")
    ((sole failing).dispatch (fun _ state => state) ⟨1000, "alice"⟩
      ⟨1, 1, [.listener ⟨1000, 7⟩, .listener ⟨1000, 8⟩]⟩ ()).2.2.ledger.posted =
      [.processed ⟨1000, 8⟩, .failed ⟨1000, 7⟩ "later"] := rfl

end Registry

end

end Parley.Dispatch
