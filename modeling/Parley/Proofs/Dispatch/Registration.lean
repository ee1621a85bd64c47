import Mathlib.Data.List.Dedup
import Parley.Proofs.Dispatch.Routing
import Parley.Proofs.Dispatch.Registry
import Parley.Proofs.Oids

/-! Under which oids objects are registered.
The cursor of a registry only moves up, and every number that it has passed has been taken at some
time. So, while fewer oids have been taken than there are, the search for a free one ends, and an
oid that it has given out is not given out again, also when the object is cleared. -/

namespace Parley.Dispatch.Registry

inductive Operation (τ σ : Type) where
  | register (chain : Chain τ σ)
  | registerAt (oid : Oid) (chain : Chain τ σ)
  | clear (oid : Oid)

/-- What was asked, for which oid, and the answer. -/
inductive Deed where
  | issued (oid : Oid)
  | placed (oid : Oid) (free : Bool)
  | cleared (oid : Oid) (found : Bool)
  deriving DecidableEq, Repr

namespace Deed

def oid : Deed → Oid
  | issued oid => oid
  | placed oid _ => oid
  | cleared oid _ => oid

def issued? : Deed → Option Oid
  | issued oid => some oid
  | _ => none

def taken? : Deed → Option Oid
  | issued oid => some oid
  | placed oid true => some oid
  | _ => none

end Deed

def Operation.leaves (old : Option (Chain τ σ)) : Operation τ σ → Option (Chain τ σ)
  | register chain => some chain
  | registerAt _ chain => some (old.getD chain)
  | clear _ => none

def perform (registry : Registry τ σ) : Operation τ σ → Deed × Registry τ σ
  | .register chain => (.issued (registry.register chain).1, (registry.register chain).2)
  | .registerAt oid chain =>
    (.placed oid (registry.registerAt oid chain).1, (registry.registerAt oid chain).2)
  | .clear oid => (.cleared oid (registry.clear oid).1, (registry.clear oid).2)

def run (registry : Registry τ σ) : List (Operation τ σ) → List Deed × Registry τ σ
  | [] => ([], registry)
  | operation :: rest =>
    let (deed, registry) := registry.perform operation
    let (deeds, registry) := registry.run rest
    (deed :: deeds, registry)

def issuedOids (deeds : List Deed) : List Oid := deeds.filterMap Deed.issued?

def takenOids (deeds : List Deed) : List Oid := deeds.filterMap Deed.taken?

/-- Fewer different oids have ever been taken than there are positive ones. -/
def Few (deeds : List Deed) : Prop := (takenOids deeds).dedup.length < 2 ^ 31 - 1

section

variable {registry : Registry τ σ} {deeds : List Deed}

theorem freeFrom_spec (registry : Registry τ σ) (cursor tries : Nat) :
    cursor ≤ registry.freeFrom cursor tries ∧
      (∀ n, cursor ≤ n → n < registry.freeFrom cursor tries →
        registry.contains (.ofNat n) = true) ∧
      (registry.contains (.ofNat (registry.freeFrom cursor tries)) = true →
        registry.freeFrom cursor tries = cursor + tries) := by
  induction tries generalizing cursor with
  | zero => exact ⟨Nat.le_refl _, fun n le lt => absurd lt (Nat.not_lt.2 le), fun _ => rfl⟩
  | succ tries ih =>
    unfold freeFrom
    split
    · rename_i taken
      obtain ⟨le, passed, stop⟩ := ih (cursor + 1)
      refine ⟨by omega, fun n low high => ?_, fun still => ?_⟩
      · obtain rfl | above := Nat.eq_or_lt_of_le low
        · exact taken
        · exact passed n above high
      · have last := stop still
        omega
    · rename_i free
      exact ⟨Nat.le_refl _, fun n le lt => absurd lt (Nat.not_lt.2 le), fun taken =>
        absurd taken free⟩

theorem contains_iff {oid : Oid} :
    registry.contains oid = true ↔ oid ∈ registry.targets.map (·.1) := by
  rw [contains, find?, List.lookup_isSome_iff]
  simp

theorem contains_eq_false_iff {oid : Oid} :
    registry.contains oid = false ↔ registry.find? oid = none := by
  rw [contains, Option.isSome_eq_false_iff, Option.isNone_iff_eq_none]

def Ascending (registry : Registry τ σ) : Prop := (registry.targets.map (·.1)).Pairwise (· < ·)

namespace Ascending

theorem empty : ({} : Registry τ σ).Ascending := .nil

theorem nodup (ascending : registry.Ascending) : (registry.targets.map (·.1)).Nodup :=
  List.Pairwise.imp (fun less => Int32.ne_of_lt less) ascending

theorem place (ascending : registry.Ascending) (oid : Oid) (chain : Chain τ σ) :
    { registry with targets := Registry.place oid chain registry.targets }.Ascending := by
  obtain ⟨targets, cursor⟩ := registry
  unfold Ascending at ascending ⊢
  dsimp only at ascending ⊢
  induction targets with
  | nil => exact List.pairwise_singleton _ _
  | cons first rest ih =>
    rw [List.map_cons, List.pairwise_cons] at ascending
    obtain ⟨least, others⟩ := ascending
    unfold Registry.place
    split
    · rename_i less
      rw [List.map_cons, List.map_cons, List.pairwise_cons, List.pairwise_cons]
      refine ⟨List.forall_mem_cons.2 ⟨less, fun other mem => ?_⟩, least, others⟩
      exact Int32.lt_trans less (least other mem)
    · split
      · rename_i same
        obtain rfl : oid = first.1 := same
        rw [List.map_cons, List.pairwise_cons]
        exact ⟨least, others⟩
      · rename_i notLess apart
        have above : first.1 < oid :=
          Int32.lt_of_le_of_ne (Int32.not_lt.1 notLess) (Ne.symm apart)
        rw [List.map_cons, List.pairwise_cons]
        refine ⟨List.forall_mem_map.2 fun target mem => ?_, ih others⟩
        obtain rfl | old := Registry.mem_place mem
        · exact above
        · exact least _ (List.mem_map_of_mem old)

theorem register (ascending : registry.Ascending) (chain : Chain τ σ) :
    (registry.register chain).2.Ascending := ascending.place _ chain

theorem registerAt (ascending : registry.Ascending) (oid : Oid) (chain : Chain τ σ) :
    (registry.registerAt oid chain).2.Ascending := by
  unfold Registry.registerAt
  split
  · exact ascending
  · exact ascending.place oid chain

theorem clear (ascending : registry.Ascending) (oid : Oid) :
    (registry.clear oid).2.Ascending :=
  ascending.sublist (List.filter_sublist.map _)

theorem perform (ascending : registry.Ascending) (operation : Operation τ σ) :
    (registry.perform operation).2.Ascending := by
  cases operation with
  | register chain => exact ascending.register chain
  | registerAt oid chain => exact ascending.registerAt oid chain
  | clear oid => exact ascending.clear oid

theorem run (ascending : registry.Ascending) (operations : List (Operation τ σ)) :
    (registry.run operations).2.Ascending := by
  induction operations generalizing registry with
  | nil => exact ascending
  | cons operation rest ih => exact ih (ascending.perform operation)

theorem mem_bindings (ascending : registry.Ascending) {service : String} {oid : Oid} :
    ⟨service, oid⟩ ∈ registry.bindings ↔
      ∃ chain, registry.find? oid = some chain ∧ chain.service.name = service := by
  have found : ∀ chain, registry.find? oid = some chain ↔ (oid, chain) ∈ registry.targets :=
    fun chain => lookup_eq_some_iff_mem ascending.nodup
  simp only [bindings, List.mem_map, Binding.mk.injEq, found]
  constructor
  · rintro ⟨⟨oid, chain⟩, mem, rfl, rfl⟩
    exact ⟨chain, mem, rfl⟩
  · rintro ⟨chain, mem, rfl⟩
    exact ⟨(oid, chain), mem, rfl, rfl⟩

end Ascending

theorem oids_bindings (registry : Registry τ σ) :
    registry.bindings.map (·.oid) = registry.targets.map (·.1) := by
  rw [bindings, List.map_map]
  rfl

theorem lookup_filter (oid other : Oid) (targets : List (Oid × Chain τ σ)) :
    (targets.filter fun target => target.1 ≠ oid).lookup other =
      if other = oid then none else targets.lookup other := by
  induction targets with
  | nil => exact (ite_self _).symm
  | cons first rest ih =>
    obtain ⟨own, chain⟩ := first
    rw [lookup_cons_eq]
    by_cases gone : own = oid
    · subst gone
      rw [List.filter_cons_of_neg (by simp), ih]
      split <;> rfl
    · rw [List.filter_cons_of_pos (by simpa using gone), lookup_cons_eq, ih]
      by_cases here : other = own
      · subst here
        rw [if_pos rfl, if_pos rfl, if_neg gone]
      · rw [if_neg here, if_neg here]

theorem registerAt_of_none {oid : Oid} (free : registry.find? oid = none) (chain : Chain τ σ) :
    registry.registerAt oid chain =
      (true, { registry with targets := place oid chain registry.targets }) := by
  rw [registerAt, if_neg]
  rw [contains, free]
  exact Bool.false_ne_true

theorem registerAt_of_some {oid : Oid} {old : Chain τ σ} (held : registry.find? oid = some old)
    (chain : Chain τ σ) : registry.registerAt oid chain = (false, registry) := by
  rw [registerAt, if_pos]
  rw [contains, held]
  rfl

theorem find?_registerAt (registry : Registry τ σ) (oid : Oid) (chain : Chain τ σ) (other : Oid) :
    (registry.registerAt oid chain).2.find? other =
      if other = oid then some ((registry.find? other).getD chain) else registry.find? other := by
  cases found : registry.find? oid with
  | none =>
    rw [registerAt_of_none found, find?_place]
    split
    · rename_i same
      rw [same, found]
      rfl
    · rfl
  | some old =>
    rw [registerAt_of_some found]
    split
    · rename_i same
      rw [same, found]
      rfl
    · rfl

theorem find?_perform (registry : Registry τ σ) (operation : Operation τ σ) (other : Oid) :
    (registry.perform operation).2.find? other =
      if other = (registry.perform operation).1.oid then operation.leaves (registry.find? other)
      else registry.find? other := by
  cases operation with
  | register chain => exact lookup_place _ chain registry.targets other
  | registerAt oid chain => exact find?_registerAt registry oid chain other
  | clear oid => exact lookup_filter oid other registry.targets

theorem cursor_registerAt (registry : Registry τ σ) (oid : Oid) (chain : Chain τ σ) :
    (registry.registerAt oid chain).2.cursor = registry.cursor := by
  unfold registerAt
  split <;> rfl

theorem taken_of_contains_perform {operation : Operation τ σ} {oid : Oid}
    (held : (registry.perform operation).2.contains oid = true) :
    registry.contains oid = true ∨ (registry.perform operation).1.taken? = some oid := by
  rw [contains, find?_perform] at held
  cases operation with
  | register chain =>
    split at held
    · rename_i same
      exact .inr (congrArg some same.symm)
    · exact .inl held
  | registerAt target chain =>
    cases found : registry.find? target with
    | none =>
      split at held
      · rename_i same
        obtain rfl : oid = target := same
        refine .inr ?_
        rw [perform, registerAt_of_none found]
        rfl
      · exact .inl held
    | some old =>
      split at held
      · rename_i same
        obtain rfl : oid = target := same
        refine .inl ?_
        rw [contains, found]
        rfl
      · exact .inl held
  | clear target =>
    split at held
    · cases held
    · exact .inl held

/-- What the deeds so far say of a registry: all numbers that its cursor has passed have been taken
at some time, among them those that it gave out, and so has all that is registered now. -/
structure Numbered (deeds : List Deed) (registry : Registry τ σ) : Prop where
  start : 1 ≤ registry.cursor
  passed : ∀ n, 1 ≤ n → n < registry.cursor → .ofNat n ∈ takenOids deeds
  held : ∀ oid, registry.contains oid = true → oid ∈ takenOids deeds
  issued : ∀ oid ∈ issuedOids deeds, ∃ n, 1 ≤ n ∧ n < registry.cursor ∧ oid = .ofNat n

theorem mem_takenOids_append {deed : Deed} {oid : Oid} :
    oid ∈ takenOids (deeds ++ [deed]) ↔ oid ∈ takenOids deeds ∨ deed.taken? = some oid := by
  simp [takenOids, List.filterMap_append]

theorem mem_issuedOids_append {deed : Deed} {oid : Oid} :
    oid ∈ issuedOids (deeds ++ [deed]) ↔ oid ∈ issuedOids deeds ∨ deed.issued? = some oid := by
  simp [issuedOids, List.filterMap_append]

namespace Numbered

theorem empty : Numbered [] ({} : Registry τ σ) where
  start := Nat.le_refl 1
  passed n low high := absurd high (Nat.not_lt.2 low)
  held oid held := by cases held
  issued oid mem := by cases mem

theorem of_cursor {deed : Deed} {registry' : Registry τ σ} (numbered : Numbered deeds registry)
    (cursor : registry'.cursor = registry.cursor) (none : deed.issued? = none)
    (held : ∀ oid, registry'.contains oid = true → oid ∈ takenOids (deeds ++ [deed])) :
    Numbered (deeds ++ [deed]) registry' where
  start := cursor ▸ numbered.start
  passed n low high :=
    mem_takenOids_append.2 (.inl (numbered.passed n low (cursor ▸ high)))
  held := held
  issued oid mem := by
    obtain old | new := mem_issuedOids_append.1 mem
    · rw [cursor]
      exact numbered.issued oid old
    · rw [none] at new
      cases new

theorem perform (numbered : Numbered deeds registry) (operation : Operation τ σ) :
    Numbered (deeds ++ [(registry.perform operation).1]) (registry.perform operation).2 := by
  have held : ∀ oid, (registry.perform operation).2.contains oid = true →
      oid ∈ takenOids (deeds ++ [(registry.perform operation).1]) := fun oid held =>
    mem_takenOids_append.2 ((taken_of_contains_perform held).imp_left (numbered.held oid))
  cases operation with
  | register chain =>
    obtain ⟨le, skipped, -⟩ := freeFrom_spec registry registry.cursor registry.targets.length
    have start := numbered.start
    refine ⟨Nat.le_add_left 1 _, fun n low high => ?_, held, fun oid mem => ?_⟩
    · rw [mem_takenOids_append]
      -- a number that the cursor passes now was skipped because it is taken, or is given out
      obtain old | new := Nat.lt_or_ge n registry.cursor
      · exact .inl (numbered.passed n low old)
      · obtain before | same := Nat.lt_or_eq_of_le (Nat.le_of_lt_succ high)
        · exact .inl (numbered.held _ (skipped n new before))
        · exact .inr (congrArg (fun n => some (Int32.ofNat n)) same.symm)
    · obtain old | new := mem_issuedOids_append.1 mem
      · obtain ⟨n, low, high, rfl⟩ := numbered.issued oid old
        exact ⟨n, low, Nat.lt_succ_of_le (Nat.le_trans (Nat.le_of_lt high) le), rfl⟩
      · exact ⟨_, Nat.le_trans start le, Nat.lt_succ_self _, (Option.some.inj new).symm⟩
  | registerAt oid chain =>
    exact numbered.of_cursor (cursor_registerAt registry oid chain) rfl held
  | clear oid => exact numbered.of_cursor rfl rfl held

theorem run (numbered : Numbered deeds registry) (operations : List (Operation τ σ)) :
    Numbered (deeds ++ (registry.run operations).1) (registry.run operations).2 := by
  induction operations generalizing registry deeds with
  | nil => rwa [Registry.run, List.append_nil]
  | cons operation rest ih =>
    have last := ih (numbered.perform operation)
    rwa [List.append_assoc] at last

/-- The cursor has not passed all the numbers that are oids. -/
theorem cursor_lt (numbered : Numbered deeds registry) (few : Few deeds) :
    registry.cursor < 2 ^ 31 := by
  by_contra beyond
  have many : 2 ^ 31 - 1 ≤ (takenOids deeds).dedup.length :=
    le_length_of_forall_mem (by decide) fun n low high =>
      List.mem_dedup.2 (numbered.passed n low (by omega))
  exact absurd few (Nat.not_lt.2 many)

/-- The search for a free oid ends at the first number from the cursor on that is free. -/
theorem register (numbered : Numbered deeds registry) (chain : Chain τ σ)
    (few : Few (deeds ++ [.issued (registry.register chain).1])) :
    ∃ n, registry.cursor ≤ n ∧ n + 1 < 2 ^ 31 ∧
      (∀ k, registry.cursor ≤ k → k < n → registry.contains (.ofNat k) = true) ∧
      registry.find? (.ofNat n) = none ∧
      registry.register chain =
        (.ofNat n, ⟨Registry.place (.ofNat n) chain registry.targets, n + 1⟩) := by
  obtain ⟨le, skipped, exhausted⟩ := freeFrom_spec registry registry.cursor registry.targets.length
  have bound : registry.freeFrom registry.cursor registry.targets.length + 1 < 2 ^ 31 :=
    (numbered.perform (.register chain)).cursor_lt few
  refine ⟨_, le, bound, skipped, ?_, rfl⟩
  rw [← contains_eq_false_iff, Bool.eq_false_iff]
  intro taken
  -- else there would be one more oid with an object than there are objects
  have last := exhausted taken
  rw [last] at bound skipped taken
  have room : registry.cursor + (registry.targets.length + 1) ≤ 2 ^ 31 := Nat.le_of_lt bound
  have more := le_length_of_forall_mem room fun n low high => by
    rw [← contains_iff]
    obtain before | rfl := Nat.lt_or_eq_of_le (Nat.le_of_lt_succ high)
    · exact skipped n low before
    · exact taken
  rw [List.length_map] at more
  exact Nat.not_succ_le_self _ more

end Numbered

/-- An oid that a registry gives out is free and above all that it gave out before, those of cleared
objects included. -/
theorem registration_of_run (operations : List (Operation τ σ)) :
    let ran := ({} : Registry τ σ).run operations
    let registry := ran.2
    (∀ chain, Few (ran.1 ++ [.issued (registry.register chain).1]) →
      (∃ n, registry.cursor ≤ n ∧ n + 1 < 2 ^ 31 ∧
        (∀ k, registry.cursor ≤ k → k < n → registry.contains (.ofNat k) = true) ∧
        registry.register chain = (.ofNat n, ⟨place (.ofNat n) chain registry.targets, n + 1⟩)) ∧
      1 ≤ (registry.register chain).1 ∧ registry.find? (registry.register chain).1 = none ∧
      ∀ earlier ∈ issuedOids ran.1, earlier < (registry.register chain).1) ∧
    (∀ oid chain, ((registry.registerAt oid chain).1 = true ↔ registry.find? oid = none) ∧
      ((registry.registerAt oid chain).1 = false →
        (registry.registerAt oid chain).2 = registry)) ∧
    (∀ operation other, (registry.perform operation).2.find? other =
      if other = (registry.perform operation).1.oid then operation.leaves (registry.find? other)
      else registry.find? other) ∧
    (registry.bindings.map (·.oid)).Pairwise (· < ·) ∧
    ∀ service oid, ⟨service, oid⟩ ∈ registry.bindings ↔
      ∃ chain, registry.find? oid = some chain ∧ chain.service.name = service := by
  intro ran registry
  have numbered : Numbered ran.1 registry := Numbered.empty.run operations
  have ascending : registry.Ascending := Ascending.empty.run operations
  refine ⟨fun chain few => ?_, fun oid chain => ?_, find?_perform registry, ?_,
    fun service oid => ascending.mem_bindings⟩
  · obtain ⟨n, le, small, skipped, free, issued⟩ := numbered.register chain few
    have start := numbered.start
    refine ⟨⟨n, le, small, skipped, issued⟩, ?_⟩
    have positive : Int32.ofNat 1 ≤ .ofNat n :=
      (ofNat_le_ofNat_iff (by decide) (by omega)).2 (by omega)
    rw [issued]
    refine ⟨positive, free, fun earlier mem => ?_⟩
    obtain ⟨m, -, less, rfl⟩ := numbered.issued earlier mem
    exact (ofNat_lt_ofNat_iff (by omega) (by omega)).2 (Nat.lt_of_lt_of_le less le)
  · cases found : registry.find? oid with
    | none => simp [registerAt_of_none found]
    | some old => simp [registerAt_of_some found]
  · rw [oids_bindings]
    exact ascending

/-- The cursor skips an oid that was taken ahead of it, and does not go back for one that was
cleared behind it. -/
theorem registration_of_run_cleared :
    let chain : Chain Unit Unit := ⟨{ service := ⟨"Echo", []⟩ }, []⟩
    let ran := ({} : Registry Unit Unit).run
      [.registerAt 2 chain, .register chain, .clear 1]
    ran.1 = [.placed 2 true, .issued 1, .cleared 1 true] ∧
      Few (ran.1 ++ [.issued (ran.2.register chain).1]) ∧ (ran.2.register chain).1 = 3 ∧
      ran.2.find? 3 = none ∧ ∀ earlier ∈ issuedOids ran.1, earlier < 3 := by
  intro chain ran
  have few : Few (ran.1 ++ [.issued (ran.2.register chain).1]) := by
    unfold Few
    decide
  obtain ⟨issues, -⟩ := registration_of_run
    [.registerAt 2 chain, .register chain, .clear 1]
  obtain ⟨-, -, free, above⟩ := issues chain few
  exact ⟨rfl, few, rfl, free, above⟩

end

end Parley.Dispatch.Registry
