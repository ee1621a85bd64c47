import Parley.Dispatch.Registry

/-! Which handler a call reaches.
A call reaches the entry for its method in the first table that has one, among those of the chain
at its target. That handler runs and may change its own state; all other entries stay as they are,
so later calls reach the handlers that they would have reached before. -/

namespace Parley.Dispatch

variable {sink : Response → σ → σ} {caller : Caller} {request : Request} {x : Exchange σ}

namespace Entry

def handle (sink : Response → σ → σ) (caller : Caller) (request : Request) (x : Exchange σ)
    (entry : Entry τ σ) : Outcome Unit × Entry τ σ × Exchange σ :=
  let (outcome, y) := (entry.handler caller request.args).run
    (fun response state => (state.1, sink response state.2)) request.args
    ⟨(entry.state, x.state), x.ledger⟩
  (outcome, { entry with state := y.state.1 }, ⟨y.state.2, y.ledger⟩)

@[simp] theorem method_handle (entry : Entry τ σ) :
    (entry.handle sink caller request x).2.1.method = entry.method := rfl

end Entry

namespace DispatchTable

variable {table : DispatchTable τ σ} {entry : Entry τ σ} {method : UInt8}

theorem method_of_entry? (h : table.entry? method = some entry) : entry.method = method := by
  have found := List.find?_some h
  simpa using found

theorem find?_put (entry : Entry τ σ) (entries : List (Entry τ σ)) (method : UInt8) :
    (put entry entries).find? (·.method = method) =
      if method = entry.method then some entry else entries.find? (·.method = method) := by
  induction entries with
  | nil =>
    by_cases same : method = entry.method
    · simp [put, same]
    · simp [put, same, Ne.symm same]
  | cons first rest ih =>
    unfold put
    split
    · rename_i here
      by_cases same : method = entry.method
      · simp [same]
      · simp [same, here, Ne.symm same]
    · rename_i away
      rw [List.find?_cons, List.find?_cons, ih]
      by_cases same : method = entry.method
      · simp [same, away]
      · simp [same]

theorem entry?_put (entry : Entry τ σ) (table : DispatchTable τ σ) (method : UInt8) :
    DispatchTable.entry? { table with entries := put entry table.entries } method =
      if method = entry.method then some entry else table.entry? method :=
  find?_put entry table.entries method

theorem dispatch?_of_none (h : table.entry? request.method = none) :
    table.dispatch? sink caller request x = none := by
  rw [dispatch?, h]
  rfl

theorem dispatch?_of_entry (h : table.entry? request.method = some entry) :
    table.dispatch? sink caller request x =
      some ((entry.handle sink caller request x).1,
        { table with entries := put (entry.handle sink caller request x).2.1 table.entries },
        (entry.handle sink caller request x).2.2) := by
  rw [dispatch?, h]
  rfl

end DispatchTable

/-- The entry for a method in the first of the tables that has one. -/
def takerAmong? (tables : List (DispatchTable τ σ)) (method : UInt8) : Option (Entry τ σ) :=
  tables.findSome? fun table => table.entry? method

theorem takerAmong?_cons (table : DispatchTable τ σ) (rest : List (DispatchTable τ σ))
    (method : UInt8) :
    takerAmong? (table :: rest) method = (table.entry? method).or (takerAmong? rest method) := by
  rw [takerAmong?, List.findSome?_cons]
  cases table.entry? method <;> rfl

namespace Chain

variable {chain : Chain τ σ} {tables : List (DispatchTable τ σ)} {entry : Entry τ σ}

def taker? (chain : Chain τ σ) (method : UInt8) : Option (Entry τ σ) :=
  takerAmong? chain.tables method

theorem dispatchAmong?_of_none (h : takerAmong? tables request.method = none) :
    dispatchAmong? sink caller request x tables = none := by
  induction tables with
  | nil => rfl
  | cons table rest ih =>
    rw [takerAmong?_cons, Option.or_eq_none_iff] at h
    rw [dispatchAmong?, DispatchTable.dispatch?_of_none h.1]
    dsimp only
    rw [ih h.2]
    rfl

variable (sink caller x) in
theorem dispatchAmong?_of_split {front : List (DispatchTable τ σ)} {table : DispatchTable τ σ}
    (absent : ∀ other ∈ front, other.entry? request.method = none)
    (found : table.entry? request.method = some entry) (back : List (DispatchTable τ σ)) :
    dispatchAmong? sink caller request x (front ++ table :: back) =
      some ((entry.handle sink caller request x).1,
        front ++ { table with
          entries := DispatchTable.put (entry.handle sink caller request x).2.1 table.entries } ::
            back,
        (entry.handle sink caller request x).2.2) := by
  induction front with
  | nil =>
    rw [List.nil_append, dispatchAmong?, DispatchTable.dispatch?_of_entry found]
    rfl
  | cons other rest ih =>
    obtain ⟨first, others⟩ := List.forall_mem_cons.1 absent
    rw [List.cons_append, dispatchAmong?, DispatchTable.dispatch?_of_none first]
    dsimp only
    rw [ih others]
    rfl

variable (sink caller x) in
theorem dispatchAmong?_of_entry (h : takerAmong? tables request.method = some entry) :
    ∃ tables', dispatchAmong? sink caller request x tables =
        some ((entry.handle sink caller request x).1, tables',
          (entry.handle sink caller request x).2.2) ∧
      ∀ method, takerAmong? tables' method =
        if method = request.method then some (entry.handle sink caller request x).2.1
        else takerAmong? tables method := by
  obtain ⟨front, table, back, rfl, found, absent⟩ := List.findSome?_eq_some_iff.1 h
  refine ⟨_, dispatchAmong?_of_split sink caller x absent found back, fun method => ?_⟩
  unfold takerAmong?
  rw [List.findSome?_append, List.findSome?_append, List.findSome?_cons, List.findSome?_cons,
    DispatchTable.entry?_put, Entry.method_handle, DispatchTable.method_of_entry? found]
  by_cases same : method = request.method
  · rw [if_pos same, if_pos same, same, List.findSome?_eq_none_iff.2 absent]
    rfl
  · rw [if_neg same, if_neg same]

theorem dispatch_of_none (h : chain.taker? request.method = none) :
    chain.dispatch sink caller request x =
      (.failed (.unknownMethod request.target request.method), chain, x) := by
  rw [taker?, tables, takerAmong?_cons, Option.or_eq_none_iff] at h
  rw [dispatch, DispatchTable.dispatch?_of_none h.1, dispatchAmong?_of_none h.2]

theorem dispatch_of_among {outcome : Outcome Unit} {tables' : List (DispatchTable τ σ)}
    {y : Exchange σ}
    (h : dispatchAmong? sink caller request x chain.tables = some (outcome, tables', y)) :
    ∃ chain', chain.dispatch sink caller request x = (outcome, chain', y) ∧
      chain'.tables = tables' := by
  rw [tables, dispatchAmong?] at h
  cases found : chain.primary.dispatch? sink caller request x with
  | some result =>
    rw [found] at h
    cases h
    exact ⟨⟨_, chain.bases⟩, by rw [dispatch, found], rfl⟩
  | none =>
    rw [found] at h
    obtain ⟨⟨outcome, bases, y⟩, among, same⟩ := Option.map_eq_some_iff.1 h
    cases same
    refine ⟨⟨chain.primary, bases⟩, ?_, rfl⟩
    rw [dispatch, found]
    dsimp only
    rw [among]

variable (sink caller x) in
/-- A call runs the handler of the entry that it reaches, and no entry changes but that one. -/
theorem dispatch_of_entry (h : chain.taker? request.method = some entry) :
    ∃ chain', chain.dispatch sink caller request x =
        ((entry.handle sink caller request x).1, chain',
          (entry.handle sink caller request x).2.2) ∧
      ∀ method, chain'.taker? method =
        if method = request.method then some (entry.handle sink caller request x).2.1
        else chain.taker? method := by
  obtain ⟨tables', among, others⟩ := dispatchAmong?_of_entry sink caller x h
  obtain ⟨chain', handled, rfl⟩ := dispatch_of_among among
  exact ⟨chain', handled, others⟩

end Chain

namespace Registry

variable {registry : Registry τ σ} {entry : Entry τ σ}

def taker? (registry : Registry τ σ) (target : Oid) (method : UInt8) : Option (Entry τ σ) :=
  (registry.find? target).bind (·.taker? method)

theorem lookup_cons_eq (oid : Oid) (chain : Chain τ σ) (rest : List (Oid × Chain τ σ))
    (other : Oid) :
    ((oid, chain) :: rest).lookup other =
      if other = oid then some chain else rest.lookup other := by
  by_cases same : other = oid
  · rw [same, List.lookup_cons_self, if_pos rfl]
  · rw [List.lookup_cons, beq_false_of_ne same, if_neg same]

theorem lookup_place (oid : Oid) (chain : Chain τ σ) (targets : List (Oid × Chain τ σ))
    (other : Oid) :
    (place oid chain targets).lookup other =
      if other = oid then some chain else targets.lookup other := by
  induction targets with
  | nil => exact lookup_cons_eq oid chain [] other
  | cons first rest ih =>
    obtain ⟨oid', chain'⟩ := first
    unfold place
    split
    · exact lookup_cons_eq ..
    · split
      · rename_i same
        obtain rfl : oid = oid' := same
        rw [lookup_cons_eq, lookup_cons_eq]
        split <;> rfl
      · rename_i apart
        rw [lookup_cons_eq, lookup_cons_eq, ih]
        by_cases here : other = oid
        · obtain rfl := here
          rw [if_pos rfl, if_pos rfl, if_neg apart]
        · rw [if_neg here, if_neg here]

theorem find?_place (registry : Registry τ σ) (oid : Oid) (chain : Chain τ σ) (other : Oid) :
    ({ registry with targets := place oid chain registry.targets } : Registry τ σ).find? other =
      if other = oid then some chain else registry.find? other :=
  lookup_place oid chain registry.targets other

def refusal (registry : Registry τ σ) (request : Request) : InvocationError :=
  if registry.contains request.target then .unknownMethod request.target request.method
  else .noSuchTarget request.target

variable (sink caller x) in
theorem handle_of_none (h : registry.taker? request.target request.method = none) :
    ∃ registry', registry.handle sink caller request x =
        (.failed (registry.refusal request), registry', x) ∧
      ∀ oid, registry'.find? oid = registry.find? oid := by
  unfold handle
  cases found : registry.find? request.target with
  | none =>
    refine ⟨registry, ?_, fun oid => rfl⟩
    simp [refusal, contains, found]
  | some chain =>
    rw [taker?, found, Option.bind_some] at h
    dsimp only
    rw [Chain.dispatch_of_none h]
    -- the chain is put back as it was found, perhaps in another place
    refine ⟨{ registry with targets := place request.target chain registry.targets }, ?_,
      fun oid => ?_⟩
    · simp [refusal, contains, found]
    · rw [find?_place]
      split
      · rename_i same
        rw [same, found]
      · rfl

variable (sink caller x) in
theorem handle_of_entry (h : registry.taker? request.target request.method = some entry) :
    ∃ registry', registry.handle sink caller request x =
        ((entry.handle sink caller request x).1, registry',
          (entry.handle sink caller request x).2.2) ∧
      ∀ oid method, registry'.taker? oid method =
        if oid = request.target ∧ method = request.method then
          some (entry.handle sink caller request x).2.1
        else registry.taker? oid method := by
  obtain ⟨chain, found, here⟩ := Option.bind_eq_some_iff.1 h
  obtain ⟨chain', handled, others⟩ := Chain.dispatch_of_entry sink caller x here
  unfold handle
  rw [found]
  dsimp only
  rw [handled]
  refine ⟨_, rfl, fun oid method => ?_⟩
  rw [taker?, find?_place]
  by_cases same : oid = request.target
  · rw [if_pos same, Option.bind_some, others, same, taker?, found, Option.bind_some]
    simp only [true_and]
  · rw [if_neg same, if_neg (fun both => same both.1)]
    rfl

end Registry

end Parley.Dispatch
