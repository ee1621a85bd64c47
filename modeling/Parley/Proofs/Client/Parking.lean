import Mathlib.Algebra.Group.Nat.Defs
import Mathlib.Data.List.Nodup
import Mathlib.Data.List.Range
import Mathlib.Data.List.Perm.Subperm
import Parley.Proofs.Client.Deeds

/-! Parking listeners and taking them back.
A listener is parked under a token that no other parked listener has, also once the request ids have
come round, as long as there are fewer parked listeners than ids. So taking back what was parked
for a call leaves just what was there before. -/

namespace Parley.Client.Director

variable {director director' : Director κ}

theorem isPending_iff {token : Token} :
    director.isPending token = true ↔ token ∈ director.pending.map (·.1) := by
  simp [isPending]

/-- The search for a free id ends at one that is taken only after as many that are. -/
theorem isPending_of_freeFrom {id : UInt32} {tries : Nat}
    (taken : director.isPending ⟨director.oid, director.freeFrom id tries⟩ = true) :
    ∀ i ≤ tries, director.isPending ⟨director.oid, id + .ofNat i⟩ = true := by
  induction tries generalizing id with
  | zero =>
    intro i small
    obtain rfl := Nat.le_zero.1 small
    rw [freeFrom] at taken
    simpa using taken
  | succ tries ih =>
    unfold freeFrom at taken
    split at taken
    · rename_i first
      intro i small
      cases i with
      | zero => simpa using first
      | succ i =>
        have later := ih taken i (Nat.le_of_succ_le_succ small)
        have same : id + .ofNat (i + 1) = id + 1 + .ofNat i := by
          rw [UInt32.ofNat_add, UInt32.add_comm (.ofNat i), UInt32.add_assoc]
          rfl
        rwa [same]
    · rename_i first
      exact absurd taken first

theorem ofNat_add_injective (id : UInt32) {i j : Nat} (hi : i < 2 ^ 32) (hj : j < 2 ^ 32)
    (same : id + .ofNat i = id + .ofNat j) : i = j := by
  have same := congrArg UInt32.toNat ((UInt32.add_right_inj id).1 same)
  rwa [UInt32.toNat_ofNat_of_lt' hi, UInt32.toNat_ofNat_of_lt' hj] at same

/-- As many tokens as there are request ids are all different, whichever the first is. -/
theorem nodup_tokensFrom (oid : Oid) (id : UInt32) {count : Nat} (few : count ≤ 2 ^ 32) :
    ((List.range count).map fun i => (⟨oid, id + .ofNat i⟩ : Token)).Nodup := by
  refine List.pairwise_map.2 (List.pairwise_lt_range.imp_of_mem fun {i j} hi hj less same => ?_)
  have hi := List.mem_range.1 hi
  have hj := List.mem_range.1 hj
  have same := ofNat_add_injective id (by omega) (by omega) (congrArg Token.requestId same)
  omega

theorem not_isPending_freeFrom (few : director.pending.length < 2 ^ 32) (id : UInt32) :
    director.isPending ⟨director.oid, director.freeFrom id director.pending.length⟩ = false := by
  refine Bool.eq_false_iff.2 fun taken => ?_
  -- all ids that were tried are taken, and these are more than there are listeners
  have all := isPending_of_freeFrom taken
  let tried : List Token := (List.range (director.pending.length + 1)).map fun i =>
    ⟨director.oid, id + .ofNat i⟩
  have apart : tried.Nodup := nodup_tokensFrom director.oid id few
  have known : tried ⊆ director.pending.map (·.1) := by
    intro token mem
    obtain ⟨i, small, rfl⟩ := List.mem_map.1 mem
    exact isPending_iff.1 (all i (Nat.le_of_lt_succ (List.mem_range.1 small)))
  have less := (apart.subperm known).length_le
  rw [List.length_map, List.length_map, List.length_range] at less
  omega

theorem park_spec (few : director.pending.length < 2 ^ 32) (name : κ) :
    (director.park name).1 ∉ director.pending.map (·.1) ∧
      (director.park name).2.pending = director.pending ++ [((director.park name).1, name)] := by
  refine ⟨?_, rfl⟩
  rw [← isPending_iff, Bool.not_eq_true]
  exact not_isPending_freeFrom few director.nextRequest

theorem lookup_park (few : director.pending.length < 2 ^ 32) (name : κ) :
    (director.park name).2.pending.lookup (director.park name).1 = some name := by
  obtain ⟨fresh, pending⟩ := park_spec few name
  have unused : director.pending.lookup (director.park name).1 = none :=
    List.lookup_eq_none_iff.2 fun entry known =>
      bne_iff_ne.2 fun same => fresh (List.mem_map.2 ⟨entry, known, same.symm⟩)
  rw [pending, List.lookup_append, unused, Option.none_or, List.lookup_cons_self]

theorem parkAll_spec {call : Call κ} {values : Arguments} {tokens : List Token}
    (parking : director.parkAll call.args = (values, tokens, director'))
    (few : director.pending.length + call.listeners.length < 2 ^ 32) :
    director'.pending = director.pending ++ tokens.zip call.listeners ∧
      ∀ token ∈ tokens, token ∉ director.pending.map (·.1) := by
  unfold Call.listeners at few ⊢
  generalize call.args = args at parking few ⊢
  induction args generalizing director values tokens with
  | nil =>
    cases parking
    exact ⟨(List.append_nil _).symm, by simp⟩
  | cons arg rest ih =>
    cases arg with
    | value v =>
      unfold parkAll at parking
      rcases others : director.parkAll rest with ⟨values', tokens', last⟩
      rw [others] at parking
      cases parking
      exact ih others few
    | listener name =>
      unfold parkAll at parking
      rcases first : director.park name with ⟨token, middle⟩
      rcases others : middle.parkAll rest with ⟨values', tokens', last⟩
      simp only [first, others] at parking
      cases parking
      rw [List.filterMap_cons, List.length_cons] at few
      have parked := director.park_spec (by omega) name
      rw [first] at parked
      obtain ⟨fresh, pending⟩ := parked
      dsimp only at fresh pending
      obtain ⟨pending', fresh'⟩ := ih others (by
        rw [pending, List.length_append, List.length_singleton]
        omega)
      refine ⟨?_, fun other mem => ?_⟩
      · rw [pending', pending, List.append_assoc]
        rfl
      · obtain rfl | mem := List.mem_cons.1 mem
        · exact fresh
        · have unused := fresh' other mem
          rw [pending, List.map_append] at unused
          exact fun known => unused (List.mem_append_left _ known)

theorem closed_parkAll {args : List (Argument κ)} {values : Arguments} {tokens : List Token}
    (parking : director.parkAll args = (values, tokens, director')) :
    director'.closed = director.closed := by
  induction args generalizing director values tokens with
  | nil =>
    cases parking
    rfl
  | cons arg rest ih =>
    cases arg with
    | value v =>
      unfold parkAll at parking
      rcases others : director.parkAll rest with ⟨values', tokens', last⟩
      rw [others] at parking
      cases parking
      exact ih others
    | listener name =>
      unfold parkAll at parking
      rcases others : (director.park name).2.parkAll rest with ⟨values', tokens', last⟩
      simp only [others] at parking
      cases parking
      have still := ih others
      exact still

/-- Taking back the listeners of a call leaves the others, and these only. -/
theorem withdraw_parkAll {call : Call κ} {values : Arguments} {tokens : List Token}
    (parking : director.parkAll call.args = (values, tokens, director'))
    (few : director.pending.length + call.listeners.length < 2 ^ 32) :
    (director'.withdraw tokens).pending = director.pending := by
  obtain ⟨pending, fresh⟩ := parkAll_spec parking few
  have kept : director.pending.filter (fun entry => entry.1 ∉ tokens) = director.pending := by
    refine List.filter_eq_self.2 fun entry mem => decide_eq_true fun own => ?_
    exact fresh entry.1 own (List.mem_map_of_mem mem)
  have gone : (tokens.zip call.listeners).filter (fun entry => entry.1 ∉ tokens) = [] := by
    refine List.filter_eq_nil_iff.2 fun entry mem => ?_
    simpa using (List.of_mem_zip mem).1
  rw [withdraw, pending, List.filter_append, kept, gone, List.append_nil]

end Parley.Client.Director
