import Mathlib.Algebra.Group.Nat.Defs
import Mathlib.Data.List.Nodup
import Mathlib.Data.List.Perm.Subperm
import Parley.Proofs.Client.Parking
import Parley.Proofs.Dispatch.Program

/-! The book that a director keeps of its listeners.
Tokens are given out in the order of their request ids and never twice, as long as the ids have
not come round. A listener is parked or has had its outcome, never both, so it has one outcome at
most. -/

namespace Parley.Client

def issued (oid : Oid) (count : Nat) : List Token :=
  (List.range count).map fun i => ⟨oid, .ofNat (i + 1)⟩

theorem issued_succ (oid : Oid) (count : Nat) :
    issued oid (count + 1) = issued oid count ++ [⟨oid, .ofNat (count + 1)⟩] := by
  simp [issued, List.range_succ]

theorem callerOid_of_issued {oid : Oid} {count : Nat} {token : Token}
    (mem : token ∈ issued oid count) : token.callerOid = oid := by
  obtain ⟨i, -, rfl⟩ := List.mem_map.1 mem
  rfl

theorem nodup_issued {oid : Oid} {count : Nat} (few : count < 2 ^ 32) :
    (issued oid count).Nodup := by
  have same : issued oid count = (List.range count).map fun i => ⟨oid, 1 + .ofNat i⟩ := by
    refine List.map_congr_left fun i _ => ?_
    rw [Nat.add_comm, UInt32.ofNat_add]
    rfl
  rw [same]
  exact Director.nodup_tokensFrom oid 1 (Nat.le_of_lt few)

/-- The director of client `oid` has parked the listeners in `given`, and those in `told` had
outcomes. -/
structure Director.Accounts (oid : Oid) (given told : List (Token × κ)) (director : Director κ) :
    Prop where
  owner : director.oid = oid
  order : given.map (·.1) = issued oid given.length
  next : director.nextRequest = .ofNat (given.length + 1)
  once : ((director.pending ++ told).map (·.1)).Nodup
  known : ∀ entry ∈ director.pending ++ told, entry ∈ given

namespace Director.Accounts

variable {oid : Oid} {given told heard : List (Token × κ)} {director director' : Director κ}

theorem start (oid : Oid) : ({ oid } : Director κ).Accounts oid [] [] :=
  ⟨rfl, rfl, rfl, by simp, by simp⟩

theorem fresh (few : given.length + 1 < 2 ^ 32)
    (made : given.map (·.1) = issued oid given.length) :
    (⟨oid, .ofNat (given.length + 1)⟩ : Token) ∉ given.map (·.1) := by
  have apart : (issued oid (given.length + 1)).Nodup := nodup_issued few
  rw [issued_succ, ← made] at apart
  intro mem
  exact (List.nodup_append.1 apart).2.2 _ mem _ (List.mem_singleton_self _) rfl

theorem park (accounts : director.Accounts oid given told) (few : given.length + 1 < 2 ^ 32)
    (name : κ) : (director.park name).1 = ⟨oid, .ofNat (given.length + 1)⟩ ∧
      (director.park name).2.Accounts oid (given ++ [((director.park name).1, name)]) told := by
  have unused : (⟨oid, .ofNat (given.length + 1)⟩ : Token) ∉
      (director.pending ++ told).map (·.1) := by
    intro mem
    obtain ⟨entry, mem, same⟩ := List.mem_map.1 mem
    exact fresh few accounts.order (same ▸ List.mem_map_of_mem (accounts.known entry mem))
  have free : director.freeFrom director.nextRequest director.pending.length =
      .ofNat (given.length + 1) := by
    have idle : director.isPending ⟨director.oid, director.nextRequest⟩ = false := by
      rw [accounts.owner, accounts.next, isPending, List.any_eq_false]
      intro entry mem same
      exact unused (List.mem_map.2 ⟨entry, List.mem_append_left told mem, by simpa using same⟩)
    rw [← accounts.next]
    cases director.pending.length with
    | zero => rfl
    | succ tries => rw [freeFrom, idle]; rfl
  have token : (director.park name).1 = ⟨oid, .ofNat (given.length + 1)⟩ := by
    rw [Director.park, free, accounts.owner]
  have pending : (director.park name).2.pending =
      director.pending ++ [((director.park name).1, name)] := rfl
  refine ⟨token, accounts.owner, ?_, ?_, ?_, fun entry mem => ?_⟩
  · rw [List.map_append, List.map_singleton, token, List.length_append, List.length_singleton,
      issued_succ, ← accounts.order]
  · rw [List.length_append, List.length_singleton]
    have next : (director.park name).2.nextRequest = .ofNat (given.length + 1) + 1 := by
      rw [← free]
      rfl
    rw [next]
    exact UInt32.ofNat_add (given.length + 1) 1 |>.symm
  · rw [pending, token, List.append_assoc, List.singleton_append,
      (List.perm_middle.map _).nodup_iff, List.map_cons, List.nodup_cons]
    exact ⟨unused, accounts.once⟩
  · rw [pending, List.append_assoc] at mem
    simp only [List.mem_append, List.mem_singleton] at mem
    obtain mem | rfl | mem := mem
    · exact List.mem_append_left _ (accounts.known entry (List.mem_append_left told mem))
    · exact List.mem_append_right _ (List.mem_singleton_self _)
    · exact List.mem_append_left _ (accounts.known entry (List.mem_append_right _ mem))

theorem parkAll (accounts : director.Accounts oid given told) (call : Call κ)
    {values : Arguments} {tokens : List Token}
    (h : director.parkAll call.args = (values, tokens, director'))
    (few : (given ++ tokens.zip call.listeners).length < 2 ^ 32) :
    director'.Accounts oid (given ++ tokens.zip call.listeners) told := by
  unfold Call.listeners at few ⊢
  generalize call.args = args at h few ⊢
  induction args generalizing director given values tokens with
  | nil =>
    cases h
    rwa [List.zip_nil_left, List.append_nil]
  | cons arg rest ih =>
    cases arg with
    | value v =>
      unfold Director.parkAll at h
      rcases others : director.parkAll rest with ⟨values', tokens', last⟩
      rw [others] at h
      cases h
      exact ih accounts others few
    | listener name =>
      unfold Director.parkAll at h
      rcases first : director.park name with ⟨token, middle⟩
      rcases others : middle.parkAll rest with ⟨values', tokens', last⟩
      simp only [first, others] at h
      cases h
      rw [List.filterMap_cons, List.zip_cons_cons] at few ⊢
      have less : given.length + 1 < 2 ^ 32 := by
        rw [List.length_append, List.length_cons] at few
        omega
      have parked := (accounts.park less name).2
      rw [first] at parked
      rw [List.append_cons] at few ⊢
      exact ih parked others few

theorem nodup_pending (accounts : director.Accounts oid given told) :
    (director.pending.map (·.1)).Nodup :=
  accounts.once.sublist ((List.sublist_append_left director.pending told).map _)

theorem length_pending_le (accounts : director.Accounts oid given told) :
    director.pending.length ≤ given.length := by
  have apart : director.pending.Nodup := List.Nodup.of_map _ accounts.nodup_pending
  have known : director.pending ⊆ given := fun entry mem =>
    accounts.known entry (List.mem_append_left told mem)
  exact (apart.subperm known).length_le

theorem release (accounts : director.Accounts oid given told)
    (owner : director'.oid = director.oid) (next : director'.nextRequest = director.nextRequest)
    (rest : (director'.pending ++ heard).Subperm (director.pending ++ told)) :
    director'.Accounts oid given heard := by
  refine ⟨owner.trans accounts.owner, accounts.order, next.trans accounts.next, ?_,
    fun entry mem => accounts.known entry (rest.subset mem)⟩
  obtain ⟨kept, same, fewer⟩ := rest
  exact (same.map _).nodup (accounts.once.sublist (fewer.map _))

theorem withdraw (accounts : director.Accounts oid given told) (tokens : List Token) :
    (director.withdraw tokens).Accounts oid given told := by
  have fewer : (director.withdraw tokens).pending.Sublist director.pending := List.filter_sublist
  exact accounts.release rfl rfl (fewer.append_right told).subperm

theorem perm_take (accounts : director.Accounts oid given told) {token : Token} {name : κ}
    (found : director.pending.lookup token = some name) :
    director.pending.Perm ((director.withdraw [token]).pending ++ [(token, name)]) := by
  have once := accounts.nodup_pending
  obtain ⟨front, back, split, -⟩ := List.lookup_eq_some_iff.1 found
  rw [split, List.map_append, List.map_cons, List.nodup_middle, List.nodup_cons,
    ← List.map_append] at once
  have others : (front ++ back).filter (fun entry => entry.1 ∉ [token]) = front ++ back := by
    refine List.filter_eq_self.2 fun entry mem => decide_eq_true fun same => once.1 ?_
    exact List.mem_map.2 ⟨entry, mem, List.mem_singleton.1 same⟩
  have left : (director.withdraw [token]).pending = front ++ back := by
    rw [← others, Director.withdraw, split, List.filter_append, List.filter_append,
      List.filter_cons_of_neg (by simp)]
  rw [left, split]
  exact List.perm_middle.trans (List.perm_append_singleton _ _).symm

theorem take (accounts : director.Accounts oid given told) {token : Token} {name : κ}
    (found : director.pending.lookup token = some name) :
    (director.withdraw [token]).Accounts oid given (told ++ [(token, name)]) := by
  refine accounts.release rfl rfl (List.Perm.subperm ?_)
  refine List.Perm.trans ?_ ((accounts.perm_take found).symm.append_right told)
  rw [List.append_assoc]
  exact List.perm_append_comm.append_left _

/-- The end of the session: some of the parked listeners hear of it, and none stays. -/
theorem close (accounts : director.Accounts oid given told)
    (some : heard <+: director.pending) :
    director.close.2.Accounts oid given (told ++ heard) := by
  have fewer := (List.Sublist.refl told).append some.sublist
  exact accounts.release rfl rfl (fewer.subperm.trans List.perm_append_comm.subperm)

end Director.Accounts

end Parley.Client
