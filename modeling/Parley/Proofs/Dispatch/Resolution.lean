import Mathlib.Data.List.Forall2
import Parley.Proofs.Dispatch.Routing

/-! Which table of a chain answers for a method.
A chain is put together from the services' tables, each declared handler by handler; of several
handlers for one method of a table the last counts. The search that runs a handler and the search
that names a method stop at the same table, the first that has the method. No other handler runs,
and no state but that handler's own changes, also where a later table has the method as well. -/

namespace Parley.Dispatch

/-- The part of a service in a chain: its handlers, in the order in which they are given. -/
structure Declaration (τ σ : Type) where
  service : ServiceDescriptor
  entries : List (Entry τ σ)

namespace Declaration

def table (declared : Declaration τ σ) : Except UndeclaredMethod (DispatchTable τ σ) :=
  declared.entries.foldlM DispatchTable.declare ⟨declared.service, []⟩

def entry? (declared : Declaration τ σ) (method : UInt8) : Option (Entry τ σ) :=
  declared.entries.reverse.find? (·.method = method)

end Declaration

/-- The chain of a service and of those it is based on. -/
def Chain.assemble (primary : Declaration τ σ) (bases : List (Declaration τ σ)) :
    Except UndeclaredMethod (Chain τ σ) := do
  return ⟨← primary.table, ← bases.mapM (·.table)⟩

/-- The entry for a method in one of the tables, whether calls reach it or not. -/
def entryAt? (tables : List (DispatchTable τ σ)) (place : Nat) (method : UInt8) :
    Option (Entry τ σ) :=
  tables[place]?.bind fun table => table.entry? method

def DispatchTable.refit (handler : Handler τ σ) (table : DispatchTable τ σ) : DispatchTable τ σ :=
  { table with entries := table.entries.map fun entry => { entry with handler } }

def Chain.refit (handler : Handler τ σ) (chain : Chain τ σ) : Chain τ σ :=
  ⟨chain.primary.refit handler, chain.bases.map (·.refit handler)⟩

namespace DispatchTable

variable {table table' : DispatchTable τ σ} {entry : Entry τ σ} {entries : List (Entry τ σ)}

theorem declare_eq_ok (h : table.declare entry = .ok table') :
    (table.service.methodName entry.method).isSome ∧
      table' = { table with entries := put entry table.entries } := by
  unfold declare at h
  split at h
  · rename_i name named
    cases h
    exact ⟨by rw [named]; rfl, rfl⟩
  · cases h

theorem foldlM_declare_eq_ok (h : entries.foldlM declare table = .ok table') :
    table'.service = table.service ∧
      (∀ method, table'.entry? method =
        (entries.reverse.find? (·.method = method)).or (table.entry? method)) ∧
      ∀ entry ∈ entries, (table.service.methodName entry.method).isSome := by
  induction entries generalizing table with
  | nil =>
    cases h
    exact ⟨rfl, fun method => rfl, by simp⟩
  | cons first rest ih =>
    rw [List.foldlM_cons] at h
    cases declared : table.declare first with
    | error fault =>
      rw [declared] at h
      cases h
    | ok next =>
      rw [declared] at h
      obtain ⟨named, rfl⟩ := declare_eq_ok declared
      obtain ⟨service, found, others⟩ := ih h
      refine ⟨service, fun method => ?_, List.forall_mem_cons.2 ⟨named, others⟩⟩
      rw [found, entry?_put, List.reverse_cons, List.find?_append, List.find?_singleton]
      by_cases same : method = first.method
      · simp [same]
      · simp [same, Ne.symm same]

end DispatchTable

namespace Declaration

variable {declared : Declaration τ σ} {table : DispatchTable τ σ}

theorem table_eq_ok (h : declared.table = .ok table) :
    table.service = declared.service ∧
      (∀ method, table.entry? method = declared.entry? method) ∧
      ∀ entry ∈ declared.entries, (declared.service.methodName entry.method).isSome := by
  obtain ⟨service, found, named⟩ := DispatchTable.foldlM_declare_eq_ok h
  refine ⟨service, fun method => ?_, named⟩
  rw [found]
  exact Option.or_none

theorem methodName_of_entry? (h : declared.table = .ok table) {method : UInt8} {entry : Entry τ σ}
    (found : declared.entry? method = some entry) :
    ∃ name, declared.service.methodName method = some name := by
  have mem := List.mem_reverse.1 (List.mem_of_find?_eq_some found)
  have own : entry.method = method := by simpa using List.find?_some found
  have named := (table_eq_ok h).2.2 entry mem
  rw [own] at named
  exact Option.isSome_iff_exists.1 named

end Declaration

namespace Chain

variable {sink : Response → σ → σ} {caller : Caller} {request : Request} {x : Exchange σ}
  {chain : Chain τ σ} {tables : List (DispatchTable τ σ)} {entry : Entry τ σ} {place : Nat}

theorem mapM_table_eq_ok {bases : List (Declaration τ σ)}
    (h : bases.mapM (·.table) = .ok tables) :
    List.Forall₂ (fun declared table => declared.table = .ok table) bases tables := by
  induction bases generalizing tables with
  | nil =>
    cases h
    exact .nil
  | cons base rest ih =>
    rw [List.mapM_cons] at h
    cases first : base.table with
    | error fault =>
      rw [first] at h
      cases h
    | ok table =>
      rw [first] at h
      cases others : rest.mapM (·.table) with
      | error fault =>
        rw [others] at h
        cases h
      | ok tables' =>
        rw [others] at h
        cases h
        exact .cons first (ih others)

theorem assemble_eq_ok {primary : Declaration τ σ} {bases : List (Declaration τ σ)}
    (h : assemble primary bases = .ok chain) :
    List.Forall₂ (fun declared table => declared.table = .ok table) (primary :: bases)
      chain.tables := by
  unfold assemble at h
  cases first : primary.table with
  | error fault =>
    rw [first] at h
    cases h
  | ok table =>
    rw [first] at h
    cases others : bases.mapM (·.table) with
    | error fault =>
      rw [others] at h
      cases h
    | ok tables =>
      rw [others] at h
      cases h
      exact .cons first (mapM_table_eq_ok others)

theorem entryAt?_replace {front back : List (DispatchTable τ σ)} (table table' : DispatchTable τ σ)
    (other : Nat) (method : UInt8) :
    entryAt? (front ++ table' :: back) other method =
      if other = front.length then table'.entry? method
      else entryAt? (front ++ table :: back) other method := by
  unfold entryAt?
  by_cases here : other = front.length
  · subst here
    simp
  · rw [if_neg here, List.getElem?_append, List.getElem?_append]
    split
    · rfl
    · obtain ⟨later, next⟩ : ∃ later, other - front.length = later + 1 :=
        ⟨other - front.length - 1, by omega⟩
      rw [next, List.getElem?_cons_succ, List.getElem?_cons_succ]

theorem exists_split_of_place {method : UInt8}
    (found : entryAt? tables place method = some entry)
    (first : ∀ other < place, entryAt? tables other method = none) :
    ∃ front table back, tables = front ++ table :: back ∧ front.length = place ∧
      table.entry? method = some entry ∧ ∀ other ∈ front, other.entry? method = none := by
  obtain ⟨table, here, own⟩ := Option.bind_eq_some_iff.1 found
  obtain ⟨inside, rfl⟩ := List.getElem?_eq_some_iff.1 here
  refine ⟨tables.take place, tables[place], tables.drop (place + 1), ?_, ?_, own,
    fun other mem => ?_⟩
  · rw [← List.drop_eq_getElem_cons inside, List.take_append_drop]
  · rw [List.length_take]
    omega
  · obtain ⟨i, small, rfl⟩ := List.mem_take_iff_getElem.1 mem
    have absent := first i (by omega)
    rwa [entryAt?, List.getElem?_eq_getElem (by omega)] at absent

variable (sink caller x) in
/-- The first table with an entry for the method runs its handler, and no entry changes but that
one. -/
theorem dispatch_of_place (found : entryAt? chain.tables place request.method = some entry)
    (first : ∀ other < place, entryAt? chain.tables other request.method = none) :
    ∃ chain', chain.dispatch sink caller request x =
        ((entry.handle sink caller request x).1, chain',
          (entry.handle sink caller request x).2.2) ∧
      chain'.tables.map (·.service) = chain.tables.map (·.service) ∧
      ∀ other method, entryAt? chain'.tables other method =
        if other = place ∧ method = request.method then
          some (entry.handle sink caller request x).2.1
        else entryAt? chain.tables other method := by
  obtain ⟨front, table, back, whole, rfl, own, absent⟩ := exists_split_of_place found first
  have among := dispatchAmong?_of_split sink caller x absent own back
  rw [← whole] at among
  obtain ⟨chain', dispatched, after⟩ := dispatch_of_among among
  refine ⟨chain', dispatched, ?_, fun other method => ?_⟩
  · rw [after, whole, List.map_append, List.map_append]
    rfl
  · rw [after, whole, entryAt?_replace table, DispatchTable.entry?_put, Entry.method_handle,
      DispatchTable.method_of_entry? own]
    by_cases same : other = front.length
    · subst same
      simp [entryAt?]
    · rw [if_neg same, if_neg fun both => same both.1]

theorem taker?_eq_some_iff {method : UInt8} : chain.taker? method = some entry ↔
    ∃ place, entryAt? chain.tables place method = some entry ∧
      ∀ other < place, entryAt? chain.tables other method = none := by
  rw [taker?, takerAmong?, List.findSome?_eq_some_iff]
  constructor
  · rintro ⟨front, table, back, whole, found, absent⟩
    refine ⟨front.length, ?_, fun other less => ?_⟩
    · simp [entryAt?, whole, found]
    · rw [entryAt?, whole, List.getElem?_append_left less, List.getElem?_eq_getElem less]
      exact absent _ (List.getElem_mem less)
  · rintro ⟨place, found, first⟩
    obtain ⟨front, table, back, whole, -, own, absent⟩ := exists_split_of_place found first
    exact ⟨front, table, back, whole, own, absent⟩

variable (sink caller request x) in
theorem services_dispatch (chain : Chain τ σ) :
    (chain.dispatch sink caller request x).2.1.tables.map (·.service) =
      chain.tables.map (·.service) := by
  cases found : chain.taker? request.method with
  | none => rw [dispatch_of_none found]
  | some entry =>
    obtain ⟨place, here, first⟩ := taker?_eq_some_iff.1 found
    obtain ⟨chain', handled, services, -⟩ := dispatch_of_place sink caller x here first
    rw [handled, services]

theorem methodName_of_place {method : UInt8} {table : DispatchTable τ σ}
    (here : chain.tables[place]? = some table)
    (found : entryAt? chain.tables place method = some entry)
    (first : ∀ other < place, entryAt? chain.tables other method = none) :
    chain.methodName method = table.service.methodName method := by
  obtain ⟨front, table', back, whole, rfl, own, absent⟩ := exists_split_of_place found first
  rw [whole, List.getElem?_append_right (Nat.le_refl _), Nat.sub_self] at here
  obtain rfl : table' = table := Option.some.inj here
  have passed : front.find? (·.handles method) = none := by
    refine List.find?_eq_none.2 fun other mem => ?_
    rw [DispatchTable.handles, absent other mem]
    exact Bool.false_ne_true
  have taken : table'.handles method = true := by
    rw [DispatchTable.handles, own]
    rfl
  rw [methodName, whole, List.find?_append, passed, Option.none_or, List.find?_cons,
    taken]
  rfl

theorem methodName_of_none {method : UInt8} (stray : chain.taker? method = none) :
    chain.methodName method = none := by
  have passed : chain.tables.find? (·.handles method) = none := by
    refine List.find?_eq_none.2 fun other mem => ?_
    rw [DispatchTable.handles, List.findSome?_eq_none_iff.1 stray other mem]
    exact Bool.false_ne_true
  rw [methodName, passed]
  rfl

theorem taker?_refit (handler : Handler τ σ) (chain : Chain τ σ) (method : UInt8) :
    (chain.refit handler).taker? method =
      (chain.taker? method).map fun entry => { entry with handler } := by
  have tables : (chain.refit handler).tables = chain.tables.map (·.refit handler) := rfl
  have entries : ∀ table : DispatchTable τ σ, DispatchTable.entry? (table.refit handler) method =
      (table.entry? method).map fun entry => { entry with handler } := by
    intro table
    unfold DispatchTable.entry? DispatchTable.refit
    rw [List.find?_map]
    rfl
  rw [taker?, taker?, tables, takerAmong?, takerAmong?, List.findSome?_map, List.map_findSome?]
  exact congrArg (List.findSome? · chain.tables) (funext entries)

/-- A call runs no handler, whatever the handlers are, just when it reaches none. -/
theorem taker?_eq_none_iff : chain.taker? request.method = none ↔ ∀ handler,
    ((chain.refit handler).dispatch sink caller request x).1 =
      .failed (.unknownMethod request.target request.method) := by
  refine ⟨fun stray handler => ?_, fun refused => ?_⟩
  · have stray' : (chain.refit handler).taker? request.method = none := by
      rw [taker?_refit, stray]
      rfl
    rw [dispatch_of_none stray']
  · -- a handler that returns would make the call return
    cases found : chain.taker? request.method with
    | none => rfl
    | some entry =>
      let idle : Handler τ σ := fun _ _ => .done ()
      have found' : (chain.refit idle).taker? request.method =
          some { entry with handler := idle } := by
        rw [taker?_refit, found]
        rfl
      obtain ⟨chain', handled, -⟩ := dispatch_of_entry sink caller x found'
      have ended := refused idle
      rw [handled] at ended
      cases ended

end Chain

section

variable {declared : List (Declaration τ σ)} {tables : List (DispatchTable τ σ)}

theorem exists_table_of_place {place : Nat} {taking : Declaration τ σ}
    (h : List.Forall₂ (fun part table => part.table = .ok table) declared tables)
    (here : declared[place]? = some taking) :
    ∃ table, tables[place]? = some table ∧ taking.table = .ok table := by
  induction h generalizing place with
  | nil => cases here
  | cons first rest ih =>
    cases place with
    | zero =>
      cases here
      exact ⟨_, rfl, first⟩
    | succ place => exact ih here

theorem entryAt?_of_declared
    (h : List.Forall₂ (fun part table => part.table = .ok table) declared tables) (place : Nat)
    (method : UInt8) :
    entryAt? tables place method = declared[place]?.bind fun part => part.entry? method := by
  induction h generalizing place with
  | nil => rfl
  | cons first rest ih =>
    cases place with
    | zero => exact (Declaration.table_eq_ok first).2.1 method
    | succ place => exact ih place

theorem services_of_declared
    (h : List.Forall₂ (fun part table => part.table = .ok table) declared tables) :
    tables.map (·.service) = declared.map (·.service) := by
  induction h with
  | nil => rfl
  | cons first rest ih => rw [List.map_cons, List.map_cons, ih, (Declaration.table_eq_ok first).1]

theorem takerAmong?_of_declared
    (h : List.Forall₂ (fun part table => part.table = .ok table) declared tables)
    (method : UInt8) :
    takerAmong? tables method = declared.findSome? fun part => part.entry? method := by
  induction h with
  | nil => rfl
  | cons first rest ih =>
    rw [takerAmong?_cons, ih, (Declaration.table_eq_ok first).2.1, List.findSome?_cons]
    split
    · rename_i found
      rw [found, Option.some_or]
    · rename_i absent
      rw [absent, Option.none_or]

/-- The part at a place is the first that has a handler for the method. -/
structure Takes (declared : List (Declaration τ σ)) (method : UInt8) (place : Nat)
    (part : Declaration τ σ) (entry : Entry τ σ) : Prop where
  here : declared[place]? = some part
  found : part.entry? method = some entry
  first : ∀ other ∈ declared.take place, other.entry? method = none

variable {method : UInt8} {place : Nat} {part : Declaration τ σ} {entry : Entry τ σ}

theorem exists_takes (h : ¬ ∀ part ∈ declared, part.entry? method = none) :
    ∃ place part entry, Takes declared method place part entry := by
  cases taken : declared.findSome? fun part => part.entry? method with
  | none => exact absurd (List.findSome?_eq_none_iff.1 taken) h
  | some entry =>
    obtain ⟨front, part, back, rfl, found, absent⟩ := List.findSome?_eq_some_iff.1 taken
    refine ⟨front.length, part, entry, ?_, found, ?_⟩
    · rw [List.getElem?_append_right (Nat.le_refl _), Nat.sub_self]
      rfl
    · rwa [List.take_left]

theorem Takes.entryAt? (takes : Takes declared method place part entry)
    (h : List.Forall₂ (fun part table => part.table = .ok table) declared tables) :
    Dispatch.entryAt? tables place method = some entry ∧
      ∀ other < place, Dispatch.entryAt? tables other method = none := by
  refine ⟨?_, fun other less => ?_⟩
  · rw [entryAt?_of_declared h, takes.here]
    exact takes.found
  · rw [entryAt?_of_declared h]
    cases there : declared[other]? with
    | none => rfl
    | some earlier =>
      exact takes.first earlier (List.mem_of_getElem? ((List.getElem?_take_of_lt less).trans there))

end

namespace Chain

variable {primary : Declaration τ σ} {bases : List (Declaration τ σ)} {chain : Chain τ σ}
  {method : UInt8} {place : Nat} {part : Declaration τ σ} {entry : Entry τ σ}

theorem methodName_of_takes (assembled : assemble primary bases = .ok chain)
    (takes : Takes (primary :: bases) method place part entry) :
    ∃ name, part.service.methodName method = some name ∧ chain.methodName method = some name := by
  have whole := assemble_eq_ok assembled
  obtain ⟨found, first⟩ := takes.entryAt? whole
  obtain ⟨table, here, made⟩ := exists_table_of_place whole takes.here
  obtain ⟨name, named⟩ := Declaration.methodName_of_entry? made takes.found
  refine ⟨name, named, ?_⟩
  rw [methodName_of_place here found first, (Declaration.table_eq_ok made).1, named]

theorem taker?_eq_none_iff_of_assembled (assembled : assemble primary bases = .ok chain)
    (method : UInt8) :
    chain.taker? method = none ↔ ∀ part ∈ primary :: bases, part.entry? method = none := by
  rw [taker?, takerAmong?_of_declared (assemble_eq_ok assembled), List.findSome?_eq_none_iff]

theorem methodName_eq_none_iff (assembled : assemble primary bases = .ok chain) :
    chain.methodName method = none ↔ ∀ part ∈ primary :: bases, part.entry? method = none := by
  refine ⟨fun unnamed => ?_, fun nobody => ?_⟩
  · by_contra somebody
    obtain ⟨place, part, entry, takes⟩ := exists_takes somebody
    obtain ⟨name, -, named⟩ := methodName_of_takes assembled takes
    rw [unnamed] at named
    cases named
  · exact methodName_of_none ((taker?_eq_none_iff_of_assembled assembled method).2 nobody)

/-- In an assembled chain a call is taken by the first part that has a handler for the method, and
there by the last that was given. -/
theorem resolution_of_assembled (assembled : assemble primary bases = .ok chain)
    (sink : Response → σ → σ) (caller : Caller) (request : Request) (x : Exchange σ) :
    let declared := primary :: bases
    let nobody := ∀ part ∈ declared, part.entry? request.method = none
    (∀ place part entry, Takes declared request.method place part entry →
      let ran := entry.handle sink caller request x
      ∃ chain', chain.dispatch sink caller request x = (ran.1, chain', ran.2.2) ∧
        chain'.tables.map (·.service) = declared.map (·.service) ∧
        (∀ other method, entryAt? chain'.tables other method =
          if other = place ∧ method = request.method then some ran.2.1
          else declared[other]?.bind fun part => part.entry? method) ∧
        ∃ name, part.service.methodName request.method = some name ∧
          chain.methodName request.method = some name) ∧
    (nobody → chain.dispatch sink caller request x =
      (.failed (.unknownMethod request.target request.method), chain, x)) ∧
    (nobody ↔ ∀ handler, ((chain.refit handler).dispatch sink caller request x).1 =
      .failed (.unknownMethod request.target request.method)) ∧
    (nobody ↔ chain.methodName request.method = none) ∧
    (¬ nobody → ∃ place part entry, Takes declared request.method place part entry) := by
  intro declared nobody
  have whole := assemble_eq_ok assembled
  have stray := taker?_eq_none_iff_of_assembled assembled request.method
  refine ⟨fun place part entry takes => ?_, fun none => dispatch_of_none (stray.2 none),
    stray.symm.trans taker?_eq_none_iff, (methodName_eq_none_iff assembled).symm, exists_takes⟩
  obtain ⟨found, first⟩ := takes.entryAt? whole
  obtain ⟨chain', handled, services, entries⟩ := dispatch_of_place sink caller x found first
  refine ⟨chain', handled, services.trans (services_of_declared whole), fun other method => ?_,
    methodName_of_takes assembled takes⟩
  rw [entries, entryAt?_of_declared whole]

/-- A method that two parts have, and for which the first was given two handlers. -/
theorem resolution_of_assembled_twice :
    let count : Handler Nat Unit := fun _ _ => .modify fun s => (s.1 + 1, s.2)
    let primary : Declaration Nat Unit := ⟨⟨"echo", [⟨"echo", 1⟩]⟩,
      [⟨1, 0, fun _ _ => .fail (.failed "replaced")⟩, ⟨1, 5, count⟩]⟩
    let base : Declaration Nat Unit := ⟨⟨"base", [⟨"ping", 1⟩, ⟨"pong", 9⟩]⟩,
      [⟨1, 7, count⟩, ⟨9, 8, count⟩]⟩
    ∃ chain chain', assemble primary [base] = .ok chain ∧
      chain.dispatch (fun _ s => s) ⟨1000, "alice"⟩ ⟨1, 1, []⟩ ⟨(), {}⟩ =
        (.returned (), chain', ⟨(), {}⟩) ∧
      (entryAt? chain'.tables 0 1).map (·.state) = some 6 ∧
      (entryAt? chain'.tables 1 1).map (·.state) = some 7 ∧
      chain.methodName 1 = some "echo" := by
  intro count primary base
  have assembled : assemble primary [base] = .ok _ := rfl
  have takes : Takes [primary, base] 1 0 primary ⟨1, 5, count⟩ := ⟨rfl, rfl, by simp⟩
  obtain ⟨chain', handled, -, entries, name, named, same⟩ :=
    (resolution_of_assembled assembled (fun _ s => s) ⟨1000, "alice"⟩ ⟨1, 1, []⟩ ⟨(), {}⟩).1
      0 primary ⟨1, 5, count⟩ takes
  refine ⟨_, chain', assembled, handled, ?_, ?_, same.trans named.symm⟩
  · rw [entries]
    rfl
  · rw [entries]
    rfl

end Chain

end Parley.Dispatch
