import Mathlib.Algebra.Group.Nat.Defs
import Mathlib.Data.List.Nodup
import Mathlib.Data.List.Perm.Subperm
import Mathlib.Data.List.Range
import Parley.Value

/-! Numbers that are given out as oids, and what is kept under them.
Numbers that fit into an oid keep their order as oids, and different ones are different oids. What is
kept under different keys is found under each of them. -/

namespace Parley

theorem ofNat_lt_ofNat_iff {n m : Nat} (hn : n < 2 ^ 31) (hm : m < 2 ^ 31) :
    Int32.ofNat n < Int32.ofNat m ↔ n < m := by
  rw [Int32.lt_iff_toInt_lt, Int32.toInt_ofNat_of_lt hn, Int32.toInt_ofNat_of_lt hm]
  omega

theorem ofNat_le_ofNat_iff {n m : Nat} (hn : n < 2 ^ 31) (hm : m < 2 ^ 31) :
    Int32.ofNat n ≤ Int32.ofNat m ↔ n ≤ m := by
  rw [Int32.le_iff_toInt_le, Int32.toInt_ofNat_of_lt hn, Int32.toInt_ofNat_of_lt hm]
  omega

theorem ofNat_injective {n m : Nat} (hn : n < 2 ^ 31) (hm : m < 2 ^ 31)
    (same : Int32.ofNat n = Int32.ofNat m) : n = m := by
  have same := congrArg Int32.toInt same
  rw [Int32.toInt_ofNat_of_lt hn, Int32.toInt_ofNat_of_lt hm] at same
  omega

/-- Among the oids there are at least as many as there are numbers in a row that are all there. -/
theorem le_length_of_forall_mem {oids : List Oid} {start count : Nat}
    (small : start + count ≤ 2 ^ 31)
    (all : ∀ n, start ≤ n → n < start + count → Int32.ofNat n ∈ oids) : count ≤ oids.length := by
  have apart : ((List.range' start count).map Int32.ofNat).Nodup := by
    refine List.Nodup.map_on (fun n hn m hm same => ?_) List.nodup_range'
    rw [List.mem_range'_1] at hn hm
    exact ofNat_injective (by omega) (by omega) same
  have known : (List.range' start count).map Int32.ofNat ⊆ oids := by
    intro oid mem
    obtain ⟨n, hn, rfl⟩ := List.mem_map.1 mem
    rw [List.mem_range'_1] at hn
    exact all n hn.1 hn.2
  have less := (apart.subperm known).length_le
  rwa [List.length_map, List.length_range'] at less

theorem lookup_eq_some_iff_mem [BEq κ] [LawfulBEq κ] {entries : List (κ × β)} {key : κ} {value : β}
    (nodup : (entries.map (·.1)).Nodup) :
    entries.lookup key = some value ↔ (key, value) ∈ entries := by
  induction entries with
  | nil => simp
  | cons first rest ih =>
    obtain ⟨fresh, nodup⟩ := List.nodup_cons.1 nodup
    rw [List.lookup_cons]
    by_cases here : key = first.1
    · subst here
      have absent : (first.1, value) ∉ rest := fun mem => fresh (List.mem_map.2 ⟨_, mem, rfl⟩)
      simp [absent, Prod.ext_iff, eq_comm]
    · have other : (key == first.1) = false := by simpa using here
      rw [other, List.mem_cons, Prod.ext_iff]
      simp [here, ih nodup]

theorem find?_eq_some_iff_mem [DecidableEq κ] {items : List α} {name : α → κ} {key : κ} {item : α}
    (nodup : (items.map name).Nodup) :
    items.find? (name · = key) = some item ↔ item ∈ items ∧ name item = key := by
  constructor
  · intro found
    exact ⟨List.mem_of_find?_eq_some found, by simpa using List.find?_some found⟩
  · rintro ⟨mem, rfl⟩
    cases found : items.find? (name · = name item) with
    | none => simpa using List.find?_eq_none.1 found item mem
    | some other =>
      have same : name other = name item := by simpa using List.find?_some found
      have known := List.mem_of_find?_eq_some found
      rw [List.inj_on_of_nodup_map nodup known mem same]

end Parley
