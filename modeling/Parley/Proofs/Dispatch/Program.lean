import Parley.Dispatch.Registry

/-! What handlers can do.
However a handler is written, it answers no listeners but those among the arguments of its call.
What it does to the state is said with a relation that every one of its writes respects. -/

namespace Parley

namespace Arguments

def tokens (args : Arguments) : List Token := args.filterMap Value.token?

theorem map_listenersFrom (args : Arguments) (start : Nat) :
    (args.listenersFrom start).map (·.2) = args.tokens := by
  induction args generalizing start with
  | nil => rfl
  | cons value rest ih =>
    rw [listenersFrom, tokens, List.filterMap_cons]
    cases value.token? with
    | none => exact ih (start + 1)
    | some token => exact congrArg (token :: ·) (ih (start + 1))

theorem mem_tokens_of_listenerAt? {args : Arguments} {position : Nat} {token : Token}
    (h : args.listenerAt? position = some token) : token ∈ args.tokens := by
  obtain ⟨value, found, same⟩ := Option.bind_eq_some_iff.1 h
  exact List.mem_filterMap.2 ⟨value, List.mem_of_getElem? found, same⟩

theorem mem_tokens_of_firstListener? {args : Arguments} {position : Nat} {token : Token}
    (h : args.firstListener? = some (position, token)) : token ∈ args.tokens := by
  rw [← args.map_listenersFrom 0]
  exact List.mem_map.2 ⟨(position, token), List.mem_of_mem_head? h, rfl⟩

end Arguments

theorem Ledger.respond_posted {ledger after : Ledger} {slot : Nat} {response : Response}
    (h : ledger.respond slot response = (true, after)) :
    after.posted = ledger.posted ++ [response] := by
  unfold respond at h
  split at h
  · cases h
  · cases h
    rfl

theorem Ledger.respond_refused {ledger after : Ledger} {slot : Nat} {response : Response}
    (h : ledger.respond slot response = (false, after)) : after = ledger := by
  unfold respond at h
  split at h
  · cases h
    rfl
  · cases h

namespace Dispatch.Program

section Running

variable {sink : Response → σ → σ} {args : Arguments} {program : Program σ α}
  {x y : Exchange σ} {outcome : Outcome α}

theorem run_posted (h : program.run sink args x = (outcome, y)) :
    ∃ more, y.ledger.posted = x.ledger.posted ++ more ∧
      ∀ response ∈ more, response.token ∈ args.tokens := by
  induction program generalizing x with
  | done a =>
    cases h
    exact ⟨[], by simp, by simp⟩
  | fail error =>
    cases h
    exact ⟨[], by simp, by simp⟩
  | panic text =>
    cases h
    exact ⟨[], by simp, by simp⟩
  | read next ih => exact ih x.state h
  | write state next ih =>
    rw [run] at h
    have kept := ih h
    exact kept
  | hasResponded position next ih => exact ih _ h
  | respond position method values next ih =>
    unfold run at h
    split at h
    · exact ih false h
    · rename_i token found
      dsimp only at h
      split at h
      · rename_i ledger counted
        obtain ⟨more, posted, good⟩ := ih true h
        have first := Ledger.respond_posted counted
        refine ⟨⟨token, method, values⟩ :: more, ?_, List.forall_mem_cons.2 ⟨?_, good⟩⟩
        · rw [posted, first, List.append_assoc, List.singleton_append]
        · exact Arguments.mem_tokens_of_listenerAt? found
      · rename_i ledger refused
        obtain rfl := Ledger.respond_refused refused
        exact ih false h

end Running

/-- Begun in state `s`, the program changes the state only as `R` allows, whatever it hears and
whatever becomes of the state when it answers. -/
def Keeps (R : σ → σ → Prop) : Program σ α → σ → Prop
  | done _, _ => True
  | fail _, _ => True
  | panic _, _ => True
  | read next, s => (next s).Keeps R s
  | write t next, s => R s t ∧ next.Keeps R t
  | hasResponded _ next, s => ∀ b, (next b).Keeps R s
  | respond _ _ _ next, _ => ∀ b t, (next b).Keeps R t

def Steady (R : σ → σ → Prop) (program : Program σ α) : Prop := ∀ s, program.Keeps R s

variable {R S : σ → σ → Prop} {program : Program σ α} {s : σ}

theorem Keeps.mono (weaker : ∀ s t, R s t → S s t) (keeps : program.Keeps R s) :
    program.Keeps S s := by
  induction program generalizing s with
  | done a => trivial
  | fail error => trivial
  | panic text => trivial
  | read next ih => exact ih s keeps
  | write t next ih => exact ⟨weaker s t keeps.1, ih keeps.2⟩
  | hasResponded position next ih => exact fun b => ih b (keeps b)
  | respond position method values next ih => exact fun b t => ih b (keeps b t)

theorem Keeps.bind {f : α → Program σ β} (first : program.Keeps R s)
    (others : ∀ a, (f a).Steady R) : (program.bind f).Keeps R s := by
  induction program generalizing s with
  | done a => exact others a s
  | fail error => trivial
  | panic text => trivial
  | read next ih => exact ih s first
  | write t next ih => exact ⟨first.1, ih first.2⟩
  | hasResponded position next ih => exact fun b => ih b (first b)
  | respond position method values next ih => exact fun b t => ih b (first b t)

theorem Steady.bind {f : α → Program σ β} (first : program.Steady R)
    (others : ∀ a, (f a).Steady R) : (program >>= f).Steady R :=
  fun s => (first s).bind others

theorem steady_done (a : α) : (done a : Program σ α).Steady R := fun _ => trivial

theorem steady_fail (error : InvocationError) : (fail error : Program σ α).Steady R :=
  fun _ => trivial

theorem steady_get : (get : Program σ σ).Steady R := fun _ => trivial

theorem steady_ofExcept (result : Except InvocationError α) :
    (ofExcept result : Program σ α).Steady R := by
  cases result with
  | ok a => exact steady_done a
  | error error => exact steady_fail error

theorem steady_answer (position : Nat) (method : UInt8) (args : Arguments) :
    (answer position method args : Program σ Bool).Steady R := fun _ _ _ => trivial

theorem steady_modify {f : σ → σ} (allowed : ∀ s, R s (f s)) : (modify f).Steady R :=
  fun s => ⟨allowed s, trivial⟩

theorem Steady.onShared (steady : program.Steady R) :
    (program.onShared : Program (τ × σ) α).Steady (fun s t => R s.2 t.2) := by
  intro s
  have keeps := steady s.2
  clear steady
  induction program generalizing s with
  | done a => trivial
  | fail error => trivial
  | panic text => trivial
  | read next ih => exact ih s.2 s keeps
  | write t next ih => exact ⟨keeps.1, ih (s.1, t) keeps.2⟩
  | hasResponded position next ih => exact fun b => ih b s (keeps b)
  | respond position method values next ih => exact fun b t => ih b t (keeps b t.2)

/-- If the answers that are posted change the state as `R` allows as well, a run does. -/
theorem Keeps.run {sink : Response → σ → σ} {args : Arguments} {x y : Exchange σ}
    {outcome : Outcome α} (refl : ∀ s, R s s) (trans : ∀ s t u, R s t → R t u → R s u)
    (keeps : program.Keeps R x.state) (h : program.run sink args x = (outcome, y))
    (posts : ∀ response ∈ y.ledger.posted, ∀ s, R s (sink response s)) : R x.state y.state := by
  induction program generalizing x with
  | done a =>
    cases h
    exact refl _
  | fail error =>
    cases h
    exact refl _
  | panic text =>
    cases h
    exact refl _
  | read next ih => exact ih x.state keeps h
  | write state next ih =>
    rw [Program.run] at h
    exact trans _ _ _ keeps.1 (ih keeps.2 h)
  | hasResponded position next ih => exact ih _ (keeps _) h
  | respond position method values next ih =>
    unfold Program.run at h
    split at h
    · exact ih false (keeps false _) h
    · rename_i token found
      dsimp only at h
      split at h
      · rename_i ledger counted
        obtain ⟨more, posted, -⟩ := run_posted h
        have here : (⟨token, method, values⟩ : Response) ∈ y.ledger.posted := by
          rw [posted, Ledger.respond_posted counted]
          simp
        exact trans _ _ _ (posts _ here x.state) (ih true (keeps true _) h)
      · have kept := ih false (keeps false _) h
        exact kept

end Dispatch.Program

end Parley
