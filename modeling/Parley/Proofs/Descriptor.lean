import Parley.Descriptor
import Parley.Proofs.Oids

/-! Declarations that can be looked up both ways.
A table that passes its check gives each of its methods one name and one id, so that the two look-ups
undo each other; of one that does not, the first fault in the order of the declaration is reported.
A kind of listener is looked up in two tables, its own and the one that all kinds share. Its check
keeps the shared id free, but not the shared name. -/

namespace Parley

def Method.Clashes (method other : Method) : Prop :=
  other.id = method.id ∨ other.name = method.name

instance (method other : Method) : Decidable (method.Clashes other) :=
  inferInstanceAs (Decidable (_ ∨ _))

def Method.clash (method other : Method) : DeclarationFault :=
  if other.id = method.id then .sharedId method other else .declaredTwice method.name

namespace MethodTable

variable {least : UInt8} {table rest : MethodTable} {method other : Method} {name : String}
  {id : UInt8} {fault : DeclarationFault}

/-- The table can be looked up both ways, and uses no id below `least`. -/
structure Sound (least : UInt8) (table : MethodTable) : Prop where
  free : ∀ method ∈ table, least ≤ method.id
  ids : table.ids.Nodup
  names : (table.map (·.name)).Nodup

def Blameless (least : UInt8) (table : MethodTable) (i : Nat) : Prop :=
  ∀ method, table[i]? = some method → least ≤ method.id ∧
    ∀ j other, i < j → table[j]? = some other → ¬ method.Clashes other

/-- What is wrong with the method at position `i`: its id is reserved, or else the first later method
that it clashes with. -/
inductive Offence (least : UInt8) (table : MethodTable) (i : Nat) : DeclarationFault → Prop
  | reserved {method : Method} : table[i]? = some method → method.id < least →
      Offence least table i (.reservedId method)
  | clash {method other : Method} {j : Nat} : table[i]? = some method → least ≤ method.id →
      i < j → table[j]? = some other → method.Clashes other →
      (∀ k between, i < k → k < j → table[k]? = some between → ¬ method.Clashes between) →
      Offence least table i (method.clash other)

/-- The fault of the first method with which something is wrong. -/
def FirstFault (least : UInt8) (table : MethodTable) (fault : DeclarationFault) : Prop :=
  ∃ i, (∀ earlier < i, Blameless least table earlier) ∧ Offence least table i fault

/-! The scan for faults. -/

theorem clash?_cons :
    clash? method (other :: rest) =
      if method.Clashes other then some (method.clash other) else clash? method rest := by
  rw [clash?]
  unfold Method.Clashes Method.clash
  by_cases sameId : other.id = method.id
  · simp [sameId]
  · by_cases sameName : other.name = method.name <;> simp [sameId, sameName]

theorem clash?_eq_none_iff :
    clash? method table = none ↔ ∀ other ∈ table, ¬ method.Clashes other := by
  induction table with
  | nil => simp [clash?]
  | cons other rest ih =>
    rw [clash?_cons, List.forall_mem_cons]
    split
    · rename_i clashes
      simp [clashes]
    · rename_i apart
      simp [apart, ih]

theorem clash?_eq_some_iff :
    clash? method table = some fault ↔ ∃ (j : Nat) (other : Method), table[j]? = some other ∧
      method.Clashes other ∧ fault = method.clash other ∧
      ∀ (k : Nat) (between : Method), k < j → table[k]? = some between →
        ¬ method.Clashes between := by
  induction table with
  | nil => simp [clash?]
  | cons first rest ih =>
    rw [clash?_cons]
    split
    · rename_i clashes
      constructor
      · intro same
        exact ⟨0, first, rfl, clashes, (Option.some.inj same).symm, fun _ _ less _ => nomatch less⟩
      · rintro ⟨j, other, found, -, rfl, before⟩
        cases j with
        | zero => rw [Option.some.inj found]
        | succ j => exact absurd clashes (before 0 first (Nat.succ_pos j) rfl)
    · rename_i apart
      -- the first clash of the rest stands one place further on in the whole table
      rw [ih]
      constructor
      · rintro ⟨j, other, found, clashes, same, before⟩
        refine ⟨j + 1, other, found, clashes, same, fun k between less found => ?_⟩
        cases k with
        | zero => exact Option.some.inj found ▸ apart
        | succ k => exact before k between (Nat.lt_of_succ_lt_succ less) found
      · rintro ⟨j, other, found, clashes, same, before⟩
        cases j with
        | zero => exact absurd (Option.some.inj found ▸ clashes) apart
        | succ j =>
          exact ⟨j, other, found, clashes, same, fun k between less found =>
            before (k + 1) between (Nat.succ_lt_succ less) found⟩

theorem fault?_eq_none_iff : table.fault? least = none ↔ table.Sound least := by
  induction table with
  | nil => exact ⟨fun _ => ⟨by simp, List.nodup_nil, List.nodup_nil⟩, fun _ => rfl⟩
  | cons method rest ih =>
    unfold fault?
    split
    · rename_i reserved
      refine ⟨nofun, fun sound => ?_⟩
      exact absurd (sound.free method List.mem_cons_self) (UInt8.not_le.2 reserved)
    · rename_i free
      rw [Option.or_eq_none_iff, clash?_eq_none_iff, ih]
      constructor
      · rintro ⟨apart, sound⟩
        refine ⟨List.forall_mem_cons.2 ⟨UInt8.not_lt.1 free, sound.free⟩,
          List.nodup_cons.2 ⟨fun mem => ?_, sound.ids⟩,
          List.nodup_cons.2 ⟨fun mem => ?_, sound.names⟩⟩
        · obtain ⟨other, mem, same⟩ := List.mem_map.1 mem
          exact apart other mem (.inl same)
        · obtain ⟨other, mem, same⟩ := List.mem_map.1 mem
          exact apart other mem (.inr same)
      · rintro ⟨free, ids, names⟩
        obtain ⟨id, ids⟩ := List.nodup_cons.1 ids
        obtain ⟨name, names⟩ := List.nodup_cons.1 names
        refine ⟨fun other mem clashes => ?_, (List.forall_mem_cons.1 free).2, ids, names⟩
        exact clashes.elim (fun same => id (List.mem_map.2 ⟨other, mem, same⟩))
          fun same => name (List.mem_map.2 ⟨other, mem, same⟩)

/-! The scan looks at the head against the rest, and then at the rest alone. So a position of the
table is either the head's or one of the rest, and clashes are with later positions only. -/

theorem blameless_cons_zero : Blameless least (method :: rest) 0 ↔
    least ≤ method.id ∧ clash? method rest = none := by
  rw [clash?_eq_none_iff]
  constructor
  · intro blameless
    obtain ⟨free, apart⟩ := blameless method rfl
    refine ⟨free, fun other mem => ?_⟩
    obtain ⟨j, found⟩ := List.getElem?_of_mem mem
    exact apart (j + 1) other (Nat.succ_pos j) found
  · rintro ⟨free, apart⟩ first found
    obtain rfl := Option.some.inj found
    refine ⟨free, fun j other later found => apart other ?_⟩
    cases j with
    | zero => exact absurd later (Nat.lt_irrefl 0)
    | succ j => exact List.mem_of_getElem? found

theorem blameless_cons_succ {i : Nat} :
    Blameless least (method :: rest) (i + 1) ↔ Blameless least rest i := by
  refine forall₂_congr fun first _ => and_congr_right fun _ => ?_
  constructor
  · intro apart j other later found
    exact apart (j + 1) other (Nat.succ_lt_succ later) found
  · intro apart j other later found
    cases j with
    | zero => exact absurd later (Nat.not_lt_zero _)
    | succ j => exact apart j other (Nat.lt_of_succ_lt_succ later) found

theorem offence_cons_zero : Offence least (method :: rest) 0 fault ↔
    method.id < least ∧ fault = .reservedId method ∨
      least ≤ method.id ∧ clash? method rest = some fault := by
  constructor
  · rintro (⟨found, reserved⟩ | ⟨found, free, later, met, clashes, before⟩)
    all_goals obtain rfl := Option.some.inj found
    · exact .inl ⟨reserved, rfl⟩
    · rename_i other j
      cases j with
      | zero => exact absurd later (Nat.lt_irrefl 0)
      | succ j =>
        refine .inr ⟨free, clash?_eq_some_iff.2 ⟨j, other, met, clashes, rfl, ?_⟩⟩
        exact fun k between less met =>
          before (k + 1) between (Nat.succ_pos k) (Nat.succ_lt_succ less) met
  · rintro (⟨reserved, rfl⟩ | ⟨free, found⟩)
    · exact .reserved rfl reserved
    · obtain ⟨j, other, met, clashes, rfl, before⟩ := clash?_eq_some_iff.1 found
      have met' : (method :: rest)[j + 1]? = some other := met
      refine .clash rfl free (Nat.succ_pos j) met' clashes fun k between later less met => ?_
      cases k with
      | zero => exact absurd later (Nat.lt_irrefl 0)
      | succ k => exact before k between (Nat.lt_of_succ_lt_succ less) met

theorem offence_cons_succ {i : Nat} :
    Offence least (method :: rest) (i + 1) fault ↔ Offence least rest i fault := by
  constructor
  · rintro (⟨found, reserved⟩ | ⟨found, free, later, met, clashes, before⟩)
    · exact .reserved found reserved
    · rename_i other j
      cases j with
      | zero => exact absurd later (Nat.not_lt_zero _)
      | succ j =>
        refine .clash found free (Nat.lt_of_succ_lt_succ later) met clashes ?_
        exact fun k between late less met =>
          before (k + 1) between (Nat.succ_lt_succ late) (Nat.succ_lt_succ less) met
  · rintro (⟨found, reserved⟩ | ⟨found, free, later, met, clashes, before⟩)
    · exact .reserved found reserved
    · rename_i other j
      have met' : (method :: rest)[j + 1]? = some other := met
      refine .clash found free (Nat.succ_lt_succ later) met' clashes ?_
      intro k between late less met
      cases k with
      | zero => exact absurd late (Nat.not_lt_zero _)
      | succ k =>
        exact before k between (Nat.lt_of_succ_lt_succ late) (Nat.lt_of_succ_lt_succ less) met

theorem firstFault_cons : FirstFault least (method :: rest) fault ↔
    Offence least (method :: rest) 0 fault ∨
      Blameless least (method :: rest) 0 ∧ FirstFault least rest fault := by
  constructor
  · rintro ⟨i, before, offence⟩
    cases i with
    | zero => exact .inl offence
    | succ i =>
      refine .inr ⟨before 0 (Nat.succ_pos i), i, fun k less => ?_, offence_cons_succ.1 offence⟩
      exact blameless_cons_succ.1 (before (k + 1) (Nat.succ_lt_succ less))
  · rintro (offence | ⟨first, i, before, offence⟩)
    · exact ⟨0, by simp, offence⟩
    · refine ⟨i + 1, fun k less => ?_, offence_cons_succ.2 offence⟩
      cases k with
      | zero => exact first
      | succ k => exact blameless_cons_succ.2 (before k (Nat.lt_of_succ_lt_succ less))

theorem fault?_eq_some_iff : table.fault? least = some fault ↔ FirstFault least table fault := by
  induction table with
  | nil =>
    refine ⟨nofun, ?_⟩
    rintro ⟨i, -, ⟨found, -⟩ | ⟨found, -⟩⟩ <;> cases found
  | cons method rest ih =>
    rw [firstFault_cons, offence_cons_zero, blameless_cons_zero, ← ih, fault?]
    by_cases reserved : method.id < least
    · simp [reserved, UInt8.not_le.2 reserved, eq_comm]
    · rw [if_neg reserved, Option.or_eq_some_iff]
      simp [reserved, UInt8.not_lt.1 reserved]

theorem validate_eq_ok_iff : table.validate least = .ok () ↔ table.Sound least := by
  rw [← fault?_eq_none_iff, validate]
  cases table.fault? least <;> simp

theorem validate_eq_error_iff :
    table.validate least = .error fault ↔ FirstFault least table fault := by
  rw [← fault?_eq_some_iff, validate]
  cases table.fault? least <;> simp

/-! Look-ups in a table that is sound. -/

theorem idOf_eq_none_iff : table.idOf name = none ↔ name ∉ table.map (·.name) := by
  simp [idOf]

theorem nameOf_eq_none_iff : table.nameOf id = none ↔ id ∉ table.ids := by
  simp [nameOf, ids]

theorem Sound.idOf_eq_some_iff (sound : table.Sound least) :
    table.idOf name = some id ↔ ⟨name, id⟩ ∈ table := by
  rw [idOf, Option.map_eq_some_iff]
  constructor
  · rintro ⟨method, found, rfl⟩
    obtain ⟨mem, rfl⟩ := (find?_eq_some_iff_mem sound.names).1 found
    exact mem
  · exact fun mem => ⟨⟨name, id⟩, (find?_eq_some_iff_mem sound.names).2 ⟨mem, rfl⟩, rfl⟩

theorem Sound.nameOf_eq_some_iff (sound : table.Sound least) :
    table.nameOf id = some name ↔ ⟨name, id⟩ ∈ table := by
  rw [nameOf, Option.map_eq_some_iff]
  constructor
  · rintro ⟨method, found, rfl⟩
    obtain ⟨mem, rfl⟩ := (find?_eq_some_iff_mem sound.ids).1 found
    exact mem
  · exact fun mem => ⟨⟨name, id⟩, (find?_eq_some_iff_mem sound.ids).2 ⟨mem, rfl⟩, rfl⟩

end MethodTable

namespace ServiceDescriptor

/-- A service is accepted if its ids are at least 1 and all different, and its names are all
different, and it is rejected for its first fault otherwise. -/
theorem validate_decided (service : ServiceDescriptor) :
    (service.validate = .ok () ↔ (∀ method ∈ service.methods, 1 ≤ method.id) ∧
      (service.methods.map (·.id)).Nodup ∧ (service.methods.map (·.name)).Nodup) ∧
    (service.validate = .ok () → ∀ name id,
      (service.methodName id = some name ↔ service.methodId name = some id) ∧
      (service.methodId name = some id ↔ ⟨name, id⟩ ∈ service.methods)) ∧
    ∀ fault, service.validate = .error fault ↔ service.methods.FirstFault 1 fault := by
  refine ⟨?_, fun valid name id => ?_, fun fault => MethodTable.validate_eq_error_iff⟩
  · exact MethodTable.validate_eq_ok_iff.trans
      ⟨fun sound => ⟨sound.free, sound.ids, sound.names⟩, fun ⟨free, ids, names⟩ =>
        ⟨free, ids, names⟩⟩
  · have sound := MethodTable.validate_eq_ok_iff.1 valid
    exact ⟨sound.nameOf_eq_some_iff.trans sound.idOf_eq_some_iff.symm, sound.idOf_eq_some_iff⟩

example : (⟨"pub", [⟨"tell", 1⟩, ⟨"sing", 2⟩, ⟨"shout", 1⟩, ⟨"tell", 0⟩]⟩ :
    ServiceDescriptor).validate = .error (.sharedId ⟨"tell", 1⟩ ⟨"shout", 1⟩) := by
  decide

end ServiceDescriptor

namespace ListenerDescriptor

variable {listener : ListenerDescriptor} {name : String} {id : UInt8}

def names (listener : ListenerDescriptor) : List String := listener.methods.map (·.name)

theorem idOf_base : invocationListener.methods.idOf name = some id ↔
    name = "request_failed" ∧ id = requestFailed := by
  by_cases same : name = "request_failed"
  · simp [MethodTable.idOf, invocationListener, same, eq_comm]
  · simp [MethodTable.idOf, invocationListener, same, Ne.symm same]

theorem nameOf_base : invocationListener.methods.nameOf id = some name ↔
    name = "request_failed" ∧ id = requestFailed := by
  by_cases same : id = requestFailed
  · simp [MethodTable.nameOf, invocationListener, same, eq_comm]
  · simp [MethodTable.nameOf, invocationListener, same, Ne.symm same]

theorem sound_of_validate (valid : listener.validate = .ok ()) : listener.methods.Sound 1 :=
  MethodTable.validate_eq_ok_iff.1 valid

theorem reserved_of_validate (valid : listener.validate = .ok ()) {method : Method}
    (mem : method ∈ listener.methods) : method.id ≠ requestFailed := by
  intro same
  have free := (sound_of_validate valid).free method mem
  rw [same] at free
  exact absurd free (by decide)

theorem methodId_eq_some_iff (valid : listener.validate = .ok ()) :
    listener.methodId name = some id ↔ ⟨name, id⟩ ∈ listener.methods ∨
      name ∉ listener.names ∧ name = "request_failed" ∧ id = requestFailed := by
  have sound := sound_of_validate valid
  rw [methodId, Option.or_eq_some_iff, sound.idOf_eq_some_iff, MethodTable.idOf_eq_none_iff,
    idOf_base]
  rfl

/-- The shared id always stands for its name, since no listener may declare it. -/
theorem methodName_eq_some_iff (valid : listener.validate = .ok ()) :
    listener.methodName id = some name ↔ ⟨name, id⟩ ∈ listener.methods ∨
      name = "request_failed" ∧ id = requestFailed := by
  have sound := sound_of_validate valid
  rw [methodName, Option.or_eq_some_iff, sound.nameOf_eq_some_iff, MethodTable.nameOf_eq_none_iff,
    nameOf_base]
  -- the listener's own table comes first, but the shared id is never found there
  refine or_congr_right ⟨And.right, fun base => ⟨fun mem => ?_, base⟩⟩
  obtain ⟨method, mem, same⟩ := List.mem_map.1 mem
  exact reserved_of_validate valid mem (same.trans base.2)

theorem methodName_eq_none_iff :
    listener.methodName id = none ↔ id ∉ listener.methods.ids ∧ id ≠ requestFailed := by
  rw [methodName, Option.or_eq_none_iff, MethodTable.nameOf_eq_none_iff,
    MethodTable.nameOf_eq_none_iff]
  simp [invocationListener, MethodTable.ids]

/-- The two look-ups undo each other unless the listener declares a method of the shared name. -/
theorem lookups_agree_iff (listener : ListenerDescriptor) (valid : listener.validate = .ok ()) :
    (∀ name id, (listener.methodName id = some name ↔ listener.methodId name = some id) ↔
      ¬ (id = requestFailed ∧ name = "request_failed" ∧ name ∈ listener.names)) ∧
    ((∀ name id, listener.methodName id = some name ↔ listener.methodId name = some id) ↔
      "request_failed" ∉ listener.names) := by
  have reserved : ∀ name, ⟨name, requestFailed⟩ ∉ listener.methods := fun name mem =>
    reserved_of_validate valid mem rfl
  have pointwise : ∀ name id,
      (listener.methodName id = some name ↔ listener.methodId name = some id) ↔
        ¬ (id = requestFailed ∧ name = "request_failed" ∧ name ∈ listener.names) := by
    intro name id
    rw [methodName_eq_some_iff valid, methodId_eq_some_iff valid]
    by_cases base : name = "request_failed" ∧ id = requestFailed
    · obtain ⟨rfl, rfl⟩ := base
      simp [reserved]
    · have other : ¬ (id = requestFailed ∧ name = "request_failed" ∧ name ∈ listener.names) :=
        fun ⟨same, named, _⟩ => base ⟨named, same⟩
      simp [base, other]
  refine ⟨pointwise, fun agree declared => ?_, fun undeclared name id => ?_⟩
  · exact (pointwise "request_failed" requestFailed).1 (agree _ _) ⟨rfl, rfl, declared⟩
  · refine (pointwise name id).2 ?_
    rintro ⟨-, rfl, declared⟩
    exact undeclared declared

/-- A listener with an outcome of its own called as the shared one. -/
def refundListener : ListenerDescriptor :=
  ⟨"RefundListener", [⟨"refunded", 1⟩, ⟨"request_failed", 2⟩]⟩

theorem lookups_agree_iff_refund :
    (∀ name id, confirmListener.methodName id = some name ↔
      confirmListener.methodId name = some id) ∧
    refundListener.validate = .ok () ∧
    ¬ (refundListener.methodName requestFailed = some "request_failed" ↔
      refundListener.methodId "request_failed" = some requestFailed) := by
  refine ⟨(lookups_agree_iff confirmListener (by decide)).2.2 (by decide), by decide, ?_⟩
  rw [(lookups_agree_iff refundListener (by decide)).1]
  exact not_not_intro (by decide)

end ListenerDescriptor

end Parley
