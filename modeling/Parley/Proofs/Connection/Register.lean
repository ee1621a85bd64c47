import Parley.Connection.Manager

/-! The lives of connections.
A connection is let in, is heard, is shut and is told to have ended, in this order. A register
keeps what there is to know of that, and changes by one deed at a time. -/

namespace Parley.Connection

def Notice.connection : Notice → ConnectionId
  | .received id _ => id
  | .closed id => id

/-- How far the connections have come. -/
structure Register where
  nextId : ConnectionId
  /-- The connections that are open. -/
  ids : List ConnectionId
  /-- All connections that were ever let in, the oldest first. -/
  admitted : List ConnectionId
  /-- The connection that is shut, while its end has not been told. -/
  shutting : Option ConnectionId
  notices : List Notice
  deriving DecidableEq, Repr

inductive Deed where
  | nothing
  | accept
  | turnAway
  | hear (id : ConnectionId) (message : Message)
  | shut (id : ConnectionId)
  | release (id : ConnectionId)
  deriving DecidableEq, Repr

def Deed.notices : Deed → List Notice
  | .hear id message => [.received id message]
  | .release id => [.closed id]
  | _ => []

namespace Register

def apply (register : Register) : Deed → Register
  | .nothing => register
  | .accept =>
    { register with
      nextId := register.nextId + 1
      ids := register.ids ++ [register.nextId]
      admitted := register.admitted ++ [register.nextId] }
  | .turnAway => { register with nextId := register.nextId + 1 }
  | .hear id message => { register with notices := register.notices ++ [.received id message] }
  | .shut id => { register with shutting := some id }
  | .release id =>
    { register with
      ids := register.ids.filter (· ≠ id)
      shutting := none
      notices := register.notices ++ [.closed id] }

/-- Only open connections are heard and shut, and once one is shut its end is told before anything
else happens. -/
def Allows (register : Register) : Deed → Prop
  | .nothing => True
  | .accept => register.shutting = none
  | .turnAway => register.shutting = none
  | .hear id _ => register.shutting = none ∧ id ∈ register.ids
  | .shut id => register.shutting = none ∧ id ∈ register.ids
  | .release id => register.shutting = some id

def Ended (register : Register) (id : ConnectionId) : Prop :=
  id ∈ register.admitted ∧ id ∉ register.ids

instance (register : Register) (id : ConnectionId) : Decidable (register.Ended id) :=
  inferInstanceAs (Decidable (_ ∧ _))

def Over (register : Register) (id : ConnectionId) : Prop :=
  register.Ended id ∨ register.shutting = some id

def told (register : Register) (id : ConnectionId) : List Notice :=
  register.notices.filter (·.connection = id)

structure Sound (register : Register) : Prop where
  ascending : register.admitted.Pairwise (· < ·)
  bounds : ∀ id ∈ register.admitted, firstConnection ≤ id ∧ id < register.nextId
  first : firstConnection ≤ register.nextId
  known : ∀ id ∈ register.ids, id ∈ register.admitted
  shutting : ∀ id, register.shutting = some id → id ∈ register.ids
  strangers : ∀ notice ∈ register.notices, notice.connection ∈ register.admitted
  lives : ∀ id, ∃ messages : List Message, register.told id =
    messages.map (.received id) ++ if register.Ended id then [.closed id] else []

variable {register : Register} {id : ConnectionId}

theorem told_append (register : Register) (id : ConnectionId) (notice : Notice) :
    ({ register with notices := register.notices ++ [notice] }).told id =
      register.told id ++ if notice.connection = id then [notice] else [] := by
  by_cases own : notice.connection = id <;> simp [told, own]

theorem Sound.start : Sound ⟨firstConnection, [], [], none, []⟩ :=
  ⟨.nil, nofun, Nat.le_refl _, nofun, nofun, nofun, fun _ => ⟨[], rfl⟩⟩

theorem Sound.mem_of_over (sound : register.Sound) (past : register.Over id) :
    id ∈ register.admitted :=
  past.elim And.left fun shut => sound.known id (sound.shutting id shut)

theorem Sound.accept (sound : register.Sound) (free : register.shutting = none) :
    (register.apply .accept).Sound := by
  have fresh : register.nextId ∉ register.admitted := fun mem =>
    Nat.lt_irrefl _ (sound.bounds _ mem).2
  refine ⟨?_, fun id mem => ?_, Nat.le_succ_of_le sound.first, fun id mem => ?_,
    fun id shut => ?_, fun notice mem => ?_,
    fun id => ?_⟩
  · rw [apply, List.pairwise_append]
    exact ⟨sound.ascending, List.pairwise_singleton _ _,
      by simpa using fun id mem => (sound.bounds id mem).2⟩
  · obtain mem | mem := List.mem_append.1 mem
    · exact (sound.bounds id mem).imp_right Nat.lt_succ_of_lt
    · obtain rfl := List.mem_singleton.1 mem
      exact ⟨sound.first, Nat.lt_succ_self _⟩
  · exact List.mem_append.2 ((List.mem_append.1 mem).imp_left (sound.known id))
  · change register.shutting = some id at shut
    rw [free] at shut
    cases shut
  · exact List.mem_append_left _ (sound.strangers notice mem)
  · -- whoever is let in has not ended, and was unknown before
    have same : (register.apply .accept).Ended id ↔ register.Ended id := by
      by_cases own : id = register.nextId
      · subst own
        simp [Ended, apply, fresh]
      · simp [Ended, apply, own]
    simp only [same]
    exact sound.lives id

theorem Sound.hear (sound : register.Sound) (mem : id ∈ register.ids) (message : Message) :
    (register.apply (.hear id message)).Sound := by
  refine ⟨sound.ascending, sound.bounds, sound.first, sound.known, sound.shutting,
    fun notice mem' => ?_,
    fun other => ?_⟩
  · obtain mem' | mem' := List.mem_append.1 mem'
    · exact sound.strangers notice mem'
    · obtain rfl := List.mem_singleton.1 mem'
      exact sound.known id mem
  · obtain ⟨messages, told⟩ := sound.lives other
    have same : (register.apply (.hear id message)).told other = _ := register.told_append other _
    have same' : (register.apply (.hear id message)).Ended other ↔ register.Ended other := .rfl
    simp only [same, told, same']
    by_cases own : id = other
    · subst own
      have open' : ¬ register.Ended id := fun ended => ended.2 mem
      exact ⟨messages ++ [message], by simp [Notice.connection, open']⟩
    · exact ⟨messages, by simp [Notice.connection, own]⟩

theorem Sound.shut (sound : register.Sound) (mem : id ∈ register.ids) :
    (register.apply (.shut id)).Sound := by
  refine ⟨sound.ascending, sound.bounds, sound.first, sound.known, fun other shut => ?_,
    sound.strangers,
    sound.lives⟩
  obtain rfl := Option.some.inj shut
  exact mem

theorem Sound.release (sound : register.Sound) (shut : register.shutting = some id) :
    (register.apply (.release id)).Sound := by
  have mem := sound.shutting id shut
  refine ⟨sound.ascending, sound.bounds, sound.first, fun other mem => ?_, nofun,
    fun notice mem' => ?_,
    fun other => ?_⟩
  · exact sound.known other (List.mem_filter.1 mem).1
  · obtain mem' | mem' := List.mem_append.1 mem'
    · exact sound.strangers notice mem'
    · obtain rfl := List.mem_singleton.1 mem'
      exact sound.known id mem
  · obtain ⟨messages, told⟩ := sound.lives other
    have same : (register.apply (.release id)).told other = _ := register.told_append other _
    rw [same, told]
    refine ⟨messages, ?_⟩
    by_cases own : id = other
    · subst own
      have before : ¬ register.Ended id := fun ended => ended.2 mem
      have after : (register.apply (.release id)).Ended id :=
        ⟨sound.known id mem, by simp [apply]⟩
      rw [if_neg before, if_pos after, if_pos (show (Notice.closed id).connection = id from rfl),
        List.append_nil]
    · have same' : (register.apply (.release id)).Ended other ↔ register.Ended other := by
        simp [Ended, apply, Ne.symm own]
      rw [if_neg (show ¬ (Notice.closed id).connection = other from own), List.append_nil]
      simp only [same']

theorem notices_apply (register : Register) (deed : Deed) :
    (register.apply deed).notices = register.notices ++ deed.notices := by
  cases deed <;> simp [apply, Deed.notices]

theorem over_of_apply {deed : Deed} (allowed : register.Allows deed)
    (past : (register.apply deed).Over id) : register.Over id ∨ deed = .shut id := by
  obtain ⟨mem, ended⟩ | shut := past
  · cases deed with
    | accept =>
      have apart : id ∉ [register.nextId] := fun own => ended (List.mem_append_right _ own)
      exact .inl (.inl ⟨(List.mem_append.1 mem).resolve_right apart,
        fun mem => ended (List.mem_append_left _ mem)⟩)
    | release other =>
      by_cases mem' : id ∈ register.ids
      · have own : id = other := Decidable.byContradiction fun apart =>
          ended (List.mem_filter.2 ⟨mem', by simpa using apart⟩)
        exact .inl (.inr (own ▸ allowed))
      · exact .inl (.inl ⟨mem, mem'⟩)
    | _ => exact .inl (.inl ⟨mem, ended⟩)
  · cases deed with
    | shut other => exact .inr (congrArg Deed.shut (Option.some.inj shut))
    | release other => cases shut
    | _ => exact .inl (.inr shut)

theorem Sound.apply (sound : register.Sound) {deed : Deed} (allowed : register.Allows deed) :
    (register.apply deed).Sound := by
  cases deed with
  | nothing => exact sound
  | accept => exact sound.accept allowed
  | turnAway =>
    exact ⟨sound.ascending, fun id mem => (sound.bounds id mem).imp_right Nat.lt_succ_of_lt,
      Nat.le_succ_of_le sound.first, sound.known, sound.shutting, sound.strangers, sound.lives⟩
  | hear id message => exact sound.hear allowed.2 message
  | shut id => exact sound.shut allowed.2
  | release id => exact sound.release allowed

end Register

end Parley.Connection
