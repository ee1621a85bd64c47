import Parley.Proofs.Dispatch.Program

/-! What becomes of a call, whatever is registered.
Handling a call posts answers to listeners among its arguments only, the report of a failure
included, and a registry of steady handlers stays one. -/

namespace Parley.Dispatch

/-- Between two states of a call, listeners among its arguments were answered, and the state has
changed as `R` allows if the posting of these answers does so. -/
structure Handled (R : σ → σ → Prop) (sink : Response → σ → σ) (args : Arguments)
    (x y : Exchange σ) : Prop where
  posted : ∃ more, y.ledger.posted = x.ledger.posted ++ more ∧
    ∀ response ∈ more, response.token ∈ args.tokens
  state : (∀ response ∈ y.ledger.posted, ∀ s, R s (sink response s)) → R x.state y.state

section

variable {R : σ → σ → Prop} {sink : Response → σ → σ} {caller : Caller} {request : Request}
  {x y : Exchange σ} {outcome : Outcome Unit}

theorem Handled.refl (refl : ∀ s, R s s) (args : Arguments) (x : Exchange σ) :
    Handled R sink args x x :=
  ⟨⟨[], by simp, by simp⟩, fun _ => refl x.state⟩

theorem Handled.trans (trans : ∀ s t u, R s t → R t u → R s u) {args : Arguments}
    {x y z : Exchange σ} (early : Handled R sink args x y) (late : Handled R sink args y z) :
    Handled R sink args x z := by
  obtain ⟨some, posted, good⟩ := early.posted
  obtain ⟨more, posted', good'⟩ := late.posted
  refine ⟨⟨some ++ more, ?_, fun response mem => ?_⟩, fun posts => ?_⟩
  · rw [posted', posted, List.append_assoc]
  · exact (List.mem_append.1 mem).elim (good response) (good' response)
  · have before := early.state fun response mem => posts response (by simp [posted', mem])
    exact trans _ _ _ before (late.state posts)

/-- All handlers of the table change the shared state only as `R` allows. -/
def DispatchTable.Steady (R : σ → σ → Prop) (table : DispatchTable τ σ) : Prop :=
  ∀ entry ∈ table.entries, ∀ caller args,
    (entry.handler caller args).Steady fun s t => R s.2 t.2

namespace DispatchTable

theorem mem_put {entry e : Entry τ σ} {entries : List (Entry τ σ)} (mem : e ∈ put entry entries) :
    e = entry ∨ e ∈ entries := by
  induction entries with
  | nil => exact .inl (List.mem_singleton.1 mem)
  | cons first rest ih =>
    unfold put at mem
    split at mem
    · obtain same | mem := List.mem_cons.1 mem
      · exact .inl same
      · exact .inr (List.mem_cons_of_mem _ mem)
    · obtain rfl | mem := List.mem_cons.1 mem
      · exact .inr List.mem_cons_self
      · exact (ih mem).imp_right (List.mem_cons_of_mem _)

variable {table table' : DispatchTable τ σ}

theorem Steady.dispatch? (refl : ∀ s, R s s) (trans : ∀ s t u, R s t → R t u → R s u)
    (steady : table.Steady R)
    (h : table.dispatch? sink caller request x = some (outcome, table', y)) :
    table'.Steady R ∧ Handled R sink request.args x y := by
  obtain ⟨entry, found, h⟩ := Option.map_eq_some_iff.1 h
  have mem : entry ∈ table.entries := List.mem_of_find?_eq_some found
  rcases ran : (entry.handler caller request.args).run
    (fun response state => (state.1, sink response state.2)) request.args
    ⟨(entry.state, x.state), x.ledger⟩ with ⟨ended, last⟩
  rw [ran] at h
  cases h
  have posted := Program.run_posted ran
  refine ⟨fun e mem' => ?_, posted, fun posts => ?_⟩
  · obtain rfl | old := mem_put mem'
    · exact steady entry mem
    · exact steady e old
  · have keeps := steady entry mem caller request.args (entry.state, x.state)
    have changed := keeps.run (fun s => refl s.2) (fun s t u => trans s.2 t.2 u.2) ran
      fun response mem s => posts response mem s.2
    exact changed

end DispatchTable

def Chain.Steady (R : σ → σ → Prop) (chain : Chain τ σ) : Prop :=
  ∀ table ∈ chain.tables, table.Steady R

namespace Chain

theorem dispatchAmong?_steady (refl : ∀ s, R s s) (trans : ∀ s t u, R s t → R t u → R s u)
    {tables tables' : List (DispatchTable τ σ)} (steady : ∀ table ∈ tables, table.Steady R)
    (h : dispatchAmong? sink caller request x tables = some (outcome, tables', y)) :
    (∀ table ∈ tables', table.Steady R) ∧ Handled R sink request.args x y := by
  induction tables generalizing tables' with
  | nil => cases h
  | cons table rest ih =>
    have first := List.forall_mem_cons.1 steady
    unfold dispatchAmong? at h
    split at h
    · rename_i handled
      cases h
      obtain ⟨stays, done⟩ := first.1.dispatch? refl trans handled
      exact ⟨List.forall_mem_cons.2 ⟨stays, first.2⟩, done⟩
    · obtain ⟨⟨ended, rest', last⟩, found, h⟩ := Option.map_eq_some_iff.1 h
      cases h
      obtain ⟨stay, done⟩ := ih first.2 found
      exact ⟨List.forall_mem_cons.2 ⟨first.1, stay⟩, done⟩

theorem Steady.dispatch (refl : ∀ s, R s s) (trans : ∀ s t u, R s t → R t u → R s u)
    {chain chain' : Chain τ σ} (steady : chain.Steady R)
    (h : chain.dispatch sink caller request x = (outcome, chain', y)) :
    chain'.Steady R ∧ Handled R sink request.args x y := by
  have parts := List.forall_mem_cons.1 steady
  unfold Chain.dispatch at h
  split at h
  · rename_i handled
    cases h
    obtain ⟨stays, done⟩ := parts.1.dispatch? refl trans handled
    exact ⟨List.forall_mem_cons.2 ⟨stays, parts.2⟩, done⟩
  · split at h
    · rename_i handled
      cases h
      obtain ⟨stay, done⟩ := dispatchAmong?_steady refl trans parts.2 handled
      exact ⟨List.forall_mem_cons.2 ⟨parts.1, stay⟩, done⟩
    · cases h
      exact ⟨steady, .refl refl request.args x⟩

end Chain

def Registry.Steady (R : σ → σ → Prop) (registry : Registry τ σ) : Prop :=
  ∀ target ∈ registry.targets, target.2.Steady R

namespace Registry

theorem mem_place {oid : Oid} {chain : Chain τ σ} {target : Oid × Chain τ σ}
    {targets : List (Oid × Chain τ σ)} (mem : target ∈ place oid chain targets) :
    target = (oid, chain) ∨ target ∈ targets := by
  induction targets with
  | nil => exact .inl (List.mem_singleton.1 mem)
  | cons first rest ih =>
    unfold place at mem
    split at mem
    · exact List.mem_cons.1 mem
    · split at mem
      · obtain same | mem := List.mem_cons.1 mem
        · exact .inl same
        · exact .inr (List.mem_cons_of_mem _ mem)
      · obtain rfl | mem := List.mem_cons.1 mem
        · exact .inr List.mem_cons_self
        · exact (ih mem).imp_right (List.mem_cons_of_mem _)

theorem Steady.handle (refl : ∀ s, R s s) (trans : ∀ s t u, R s t → R t u → R s u)
    {registry registry' : Registry τ σ} (steady : registry.Steady R)
    (h : registry.handle sink caller request x = (outcome, registry', y)) :
    registry'.Steady R ∧ Handled R sink request.args x y := by
  unfold Registry.handle at h
  split at h
  · cases h
    exact ⟨steady, .refl refl request.args x⟩
  · rename_i chain found
    rcases handled : chain.dispatch sink caller request x with ⟨ended, chain', last⟩
    rw [handled] at h
    cases h
    obtain ⟨front, back, split, -⟩ := List.lookup_eq_some_iff.1 found
    have here : chain.Steady R := steady (request.target, chain) (by simp [split])
    obtain ⟨stays, done⟩ := here.dispatch refl trans handled
    refine ⟨fun target mem => ?_, done⟩
    obtain rfl | old := mem_place mem
    · exact stays
    · exact steady target old

theorem Steady.mono {S : σ → σ → Prop} (weaker : ∀ s t, R s t → S s t)
    {registry : Registry τ σ} (steady : registry.Steady R) : registry.Steady S :=
  fun target mem table mem' entry mem'' caller args s =>
    (steady target mem table mem' entry mem'' caller args s).mono fun s t => weaker s.2 t.2

theorem handled_report (refl : ∀ s, R s s) (args : Arguments) (error : InvocationError)
    (x : Exchange σ) : Handled R sink args x (report sink args error x) := by
  unfold report
  split
  · exact .refl refl args x
  · rename_i position token found
    dsimp only
    split
    · rename_i ledger counted
      have posted := Ledger.respond_posted counted
      refine ⟨⟨_, posted, ?_⟩, fun posts => posts _ ?_ x.state⟩
      · exact List.forall_mem_singleton.2 (Arguments.mem_tokens_of_firstListener? found)
      · simp [posted]
    · rename_i ledger refused
      obtain rfl := Ledger.respond_refused refused
      exact .refl refl args x

theorem Steady.dispatch (refl : ∀ s, R s s) (trans : ∀ s t u, R s t → R t u → R s u)
    {registry registry' : Registry τ σ} {state : σ} (steady : registry.Steady R)
    (h : registry.dispatch sink caller request state = (outcome, registry', y)) :
    registry'.Steady R ∧ Handled R sink request.args { state } y := by
  unfold Registry.dispatch at h
  split at h
  · rename_i error registry'' z handled
    cases h
    obtain ⟨stays, done⟩ := steady.handle refl trans handled
    exact ⟨stays, done.trans trans (handled_report refl request.args error z)⟩
  · exact steady.handle refl trans h

end Registry

end

end Parley.Dispatch
