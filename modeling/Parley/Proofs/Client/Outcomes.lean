import Mathlib.Algebra.Group.Nat.Defs
import Mathlib.Data.List.Nodup
import Parley.Proofs.Client.Notes

/-! What becomes of the listeners of a client.
Each listener of a call that was made is parked until it has its outcome, and has one then: no
listener is lost, and none hears twice. Listeners of a call that was refused are parked no more, and
once the session has ended nobody is. -/

namespace Parley.Client

variable {oid : Oid} {sent : List Message} {hand waiting : List (Token × κ)}
  {history more : List (Incident κ)} {desk : Desk κ ω}

theorem few_of_append (few : (registered (history ++ more)).length < 2 ^ 32) :
    (registered history).length < 2 ^ 32 := by
  rw [registered_append, List.length_append] at few
  omega

/-- The history of a desk that had posted the messages in `sent` when it was new. The listeners in
`hand` have been taken out, and are about to be told. -/
structure Recorded (oid : Oid) (sent : List Message) (hand : List (Token × κ))
    (history : List (Incident κ)) (desk : Desk κ ω) : Prop where
  accounts : (registered history).length < 2 ^ 32 →
    desk.director.Accounts oid (registered history)
      (withdrawn history ++ (settled history ++ hand))
  balance : (registered history).length < 2 ^ 32 → Quiet history →
    (entrusted history).Perm (desk.director.pending ++ (settled history ++ hand))
  messages : desk.outgoing.messages = sent ++ (requests history).map .invocation
  closed : desk.director.closed = history.any (·.ends)
  empty : desk.director.closed = true → desk.director.pending = []
  heeds : Heeds Incident.ends Incident.Fits false history

namespace Recorded

theorem new (oid : Oid) (outgoing : Outgoing) (state : ω) :
    Recorded oid outgoing.messages ([] : List (Token × κ)) []
      ({ director := { oid }, outgoing, state } : Desk κ ω) := by
  refine ⟨fun _ => .start oid, fun _ _ => .nil, ?_, rfl, nofun, trivial⟩
  exact (List.append_nil _).symm

theorem setState (recorded : Recorded oid sent hand history desk) (state : ω) :
    Recorded oid sent hand history { desk with state } :=
  ⟨recorded.accounts, recorded.balance, recorded.messages, recorded.closed, recorded.empty,
    recorded.heeds⟩

/-- Something happens that changes nothing at the desk; listeners that were taken out may be told. -/
theorem next (heard : List (Token × κ)) {incident : Incident κ}
    (recorded : Recorded oid sent (heard ++ hand) history desk)
    (parks : registered [incident] = []) (posts : entrusted [incident] = [])
    (spares : withdrawn [incident] = []) (asks : requests [incident] = [])
    (tells : settled [incident] = heard)
    (ends : incident.ends = true → desk.director.closed = true)
    (fits : incident.Fits desk.director.closed) :
    Recorded oid sent hand (history ++ [incident]) desk := by
  refine ⟨?_, ?_, ?_, ?_, recorded.empty, ?_⟩
  · rw [registered_append, withdrawn_append, settled_append, parks, spares, tells,
      List.append_nil, List.append_nil, List.append_assoc (settled history)]
    exact recorded.accounts
  · rw [registered_append, entrusted_append, settled_append, parks, posts, tells,
      List.append_nil, List.append_nil, List.append_assoc]
    exact fun few quiet => recorded.balance few ((quiet_append _ _).1 quiet).1
  · rw [requests_append, asks, List.append_nil, recorded.messages]
  · have same := recorded.closed
    cases goes : incident.ends with
    | true => simp [goes, ends goes]
    | false => simp [goes, same]
  · refine heeds_append.2 ⟨recorded.heeds, ?_, trivial⟩
    rw [Bool.false_or, ← recorded.closed]
    exact fits

theorem panic (recorded : Recorded oid sent hand history desk) (text : String) :
    Recorded oid sent hand (history ++ [.panicked text]) desk :=
  next [] recorded rfl rfl rfl rfl rfl nofun trivial

theorem refuse (recorded : Recorded oid sent hand history desk) (call : Call κ) :
    Recorded oid sent hand (history ++ [.refused call [] .sessionClosed]) desk :=
  next [] recorded rfl rfl rfl rfl rfl nofun fun _ => ⟨rfl, rfl⟩

theorem endAgain (recorded : Recorded oid sent hand history desk)
    (closed : desk.director.closed = true) :
    Recorded oid sent hand (history ++ [.ended]) desk :=
  next [] recorded rfl rfl rfl rfl rfl (fun _ => closed) trivial

theorem fail {token : Token} {name : κ}
    (recorded : Recorded oid sent ((token, name) :: hand) history desk) (cause : String) :
    Recorded oid sent hand (history ++ [.failed token name cause]) desk :=
  next [(token, name)] recorded rfl rfl rfl rfl rfl nofun trivial

theorem answer {token : Token} {name : κ}
    (recorded : Recorded oid sent ((token, name) :: hand) history desk) (response : Response) :
    Recorded oid sent hand (history ++ [.answered token name response none]) desk :=
  next [(token, name)] recorded rfl rfl rfl rfl rfl nofun trivial

/-- The dispatcher of a listener refuses an answer, so the listener has not heard it. -/
theorem answerRefused (recorded : Recorded oid sent hand history desk) (token : Token) (name : κ)
    (response : Response) (error : InvocationError) :
    Recorded oid sent hand (history ++ [.answered token name response (some error)]) desk :=
  next [] recorded rfl rfl rfl rfl rfl nofun trivial

theorem forget (recorded : Recorded oid sent (waiting ++ hand) history desk) {text : String}
    (panicked : .panicked text ∈ history) : Recorded oid sent hand history desk := by
  refine ⟨fun few => (recorded.accounts few).release rfl rfl ?_,
    fun _ quiet => absurd panicked (quiet text), recorded.messages, recorded.closed,
    recorded.empty, recorded.heeds⟩
  have fewer := (List.sublist_append_right waiting hand).append_left (settled history)
  exact ((fewer.append_left (withdrawn history)).append_left desk.director.pending).subperm

section

variable {call : Call κ} {values : Arguments} {tokens : List Token} {parked : Director κ}
  {outgoing : Outgoing}

theorem room (recorded : Recorded oid sent hand history desk)
    (parking : desk.director.parkAll call.args = (values, tokens, parked))
    (few : (registered history ++ tokens.zip call.listeners).length < 2 ^ 32) :
    desk.director.pending.length + call.listeners.length < 2 ^ 32 := by
  have count := (Director.tokens_parkAll parking).1
  rw [List.length_append, List.length_zip, count, Nat.min_self] at few
  have bound := (recorded.accounts (by omega)).length_pending_le
  omega

theorem called (recorded : Recorded oid sent hand history desk)
    (isOpen : desk.director.closed = false)
    (parking : desk.director.parkAll call.args = (values, tokens, parked))
    {last : Incident κ} {director : Director κ}
    (parks : registered [last] = []) (tells : settled [last] = [])
    (fate : entrusted [last] ++ withdrawn [last] = tokens.zip call.listeners)
    (goes : last.ends = false) (fits : last.Fits false)
    (owner : director.oid = parked.oid) (next : director.nextRequest = parked.nextRequest)
    (pending : desk.director.pending.length + call.listeners.length < 2 ^ 32 →
      director.pending = desk.director.pending ++ entrusted [last])
    (still : director.closed = false)
    (posted : outgoing.messages =
      desk.outgoing.messages ++ (requests [last]).map .invocation) :
    Recorded oid sent hand (history ++ [.began call tokens, last])
      { desk with director, outgoing } := by
  have count := (Director.tokens_parkAll parking).1
  have parks : registered [.began call tokens, last] = tokens.zip call.listeners :=
    (congrArg (tokens.zip call.listeners ++ ·) parks).trans (List.append_nil _)
  have spares : withdrawn [.began call tokens, last] = withdrawn [last] := rfl
  have posts : entrusted [.began call tokens, last] = entrusted [last] := rfl
  change settled [.began call tokens, last] = [] at tells
  refine ⟨fun few => ?_, fun few quiet => ?_, ?_, ?_, fun closed => ?_, ?_⟩
  · have before := recorded.accounts (few_of_append few)
    rw [registered_append, parks] at few ⊢
    rw [withdrawn_append, spares, settled_append, tells, List.append_nil]
    refine (before.parkAll call parking few).release owner next (List.Perm.subperm ?_)
    have room := recorded.room parking few
    rw [pending room, (Director.parkAll_spec parking room).1, ← fate]
    simp only [List.append_assoc]
    exact ((List.perm_append_comm_assoc _ _ _).append_left _).append_left _
  · have before := recorded.balance (few_of_append few) ((quiet_append _ _).1 quiet).1
    rw [registered_append, parks] at few
    rw [entrusted_append, posts, settled_append, tells, List.append_nil,
      pending (recorded.room parking few), List.append_assoc]
    refine (before.append_right _).trans ?_
    rw [List.append_assoc]
    exact List.perm_append_comm.append_left _
  · rw [posted, recorded.messages, requests_append, List.map_append, List.append_assoc]
    rfl
  · have first : (Incident.began call tokens).ends = false := rfl
    rw [List.any_append, ← recorded.closed, isOpen]
    simp [still, first, goes]
  · rw [still] at closed
    cases closed
  · refine heeds_append.2 ⟨recorded.heeds, ?_⟩
    rw [Bool.false_or, ← recorded.closed, isOpen]
    exact ⟨⟨rfl, count⟩, fits, trivial⟩

end

theorem invoke (recorded : Recorded oid sent hand history desk) (call : Call κ) :
    Recorded oid sent hand (history ++ desk.callIncidents call) (desk.invoke call).2 := by
  unfold Desk.callIncidents Desk.beginIncident Desk.invoke
  rcases begun : desk.director.begin call with ⟨result, director⟩
  unfold Director.begin at begun
  split at begun
  · cases begun
    exact recorded.refuse call
  · rename_i isOpen
    rw [Bool.not_eq_true] at isOpen
    rcases parking : desk.director.parkAll call.args with ⟨values, tokens, parked⟩
    rw [parking] at begun
    cases begun
    unfold Desk.concludeIncident Desk.conclude
    have count := (Director.tokens_parkAll parking).1
    have still := (Director.closed_parkAll parking).trans isOpen
    cases refusal : desk.outgoing.answers.headD desk.outgoing.refusal with
    | some error =>
      simp only [Outgoing.post, refusal]
      refine recorded.called isOpen parking rfl rfl (List.append_nil _) rfl nofun rfl rfl
        (fun few => ?_) still (List.append_nil _).symm
      exact (Director.withdraw_parkAll parking few).trans (List.append_nil _).symm
    | none =>
      have keeps : entrusted [.posted call tokens ⟨call.target, call.method, values⟩] =
          tokens.zip call.listeners := List.append_nil _
      simp only [Outgoing.post, refusal]
      refine recorded.called isOpen parking rfl rfl ((List.append_nil _).trans keeps) rfl
        ⟨rfl, count⟩ rfl rfl (fun few => ?_) still rfl
      rw [keeps]
      exact (Director.parkAll_spec parking few).1

theorem incidentsEnded (recorded : Recorded oid sent hand history desk)
    (closed : desk.director.closed = true) (callback : Callback κ ω) (state : ω) :
    Recorded oid sent hand (history ++ callback.incidentsEnded state) desk := by
  induction callback generalizing history state with
  | done => rwa [Callback.incidentsEnded, List.append_nil]
  | fail error => rwa [Callback.incidentsEnded, List.append_nil]
  | panic text => exact recorded.panic text
  | read next ih => exact ih state recorded state
  | write state next ih => exact ih recorded _
  | invoke call next ih =>
    rw [Callback.incidentsEnded, List.append_cons]
    exact ih (.error .sessionClosed) (recorded.refuse call) state
  | endSession next ih =>
    rw [Callback.incidentsEnded, List.append_cons]
    exact ih (recorded.endAgain closed) state

variable (listen : κ → Dispatcher κ ω)

theorem dismiss (recorded : Recorded oid sent (waiting ++ hand) history desk)
    (closed : desk.director.closed = true) (state : ω) :
    Recorded oid sent hand (history ++ Desk.dismissIncidents listen state waiting) desk := by
  induction waiting generalizing history state with
  | nil => rwa [Desk.dismissIncidents, List.append_nil]
  | cons entry rest ih =>
    obtain ⟨token, name⟩ := entry
    have told := (recorded.fail InvocationError.sessionClosed.text).incidentsEnded closed
      ((listen name).fail InvocationError.sessionClosed.text) state
    rw [List.append_assoc] at told
    unfold Desk.dismissIncidents
    dsimp only
    rcases ran : ((listen name).fail InvocationError.sessionClosed.text).runEnded state with
      ⟨ending, after⟩
    rw [← List.append_assoc]
    cases ending with
    | panicked text =>
      rw [List.append_nil]
      have mem := Callback.panicked_mem_incidentsEnded ran
      exact told.forget (List.mem_append_right _ (List.mem_cons_of_mem _ mem))
    | returned => exact ih told after
    | failed error => exact ih told after

theorem close (recorded : Recorded oid sent hand history desk) :
    Recorded oid sent (desk.director.pending ++ hand) (history ++ [.ended])
      { desk with director := desk.director.close.2 } := by
  have parks : registered [(.ended : Incident κ)] = [] := rfl
  have posts : entrusted [(.ended : Incident κ)] = [] := rfl
  have spares : withdrawn [(.ended : Incident κ)] = [] := rfl
  have tells : settled [(.ended : Incident κ)] = [] := rfl
  have turned : (settled history ++ (desk.director.pending ++ hand)).Perm
      (desk.director.pending ++ (settled history ++ hand)) := List.perm_append_comm_assoc _ _ _
  refine ⟨fun few => ?_, fun few quiet => ?_, ?_, ?_, fun _ => rfl, ?_⟩
  · rw [registered_append, withdrawn_append, settled_append, parks, spares, tells, List.append_nil,
      List.append_nil, List.append_nil]
    refine (recorded.accounts (few_of_append few)).release rfl rfl (List.Perm.subperm ?_)
    exact (turned.append_left (withdrawn history)).trans (List.perm_append_comm_assoc _ _ _)
  · have before := recorded.balance (few_of_append few) ((quiet_append _ _).1 quiet).1
    rw [entrusted_append, settled_append, posts, tells, List.append_nil, List.append_nil]
    exact before.trans turned.symm
  · rw [requests_append, recorded.messages]
    exact congrArg (sent ++ List.map _ ·) (List.append_nil _).symm
  · rw [List.any_append]
    exact (Bool.or_true _).symm
  · exact heeds_append.2 ⟨recorded.heeds, trivial, trivial⟩

theorem endSession (recorded : Recorded oid sent hand history desk) :
    Recorded oid sent hand (history ++ desk.endIncidents listen) (desk.endSession listen).2 := by
  have told := recorded.close.dismiss listen rfl desk.state
  rw [List.append_assoc] at told
  exact told.setState (Desk.dismiss listen desk.state (desk.director.pending.map (·.2))).2

theorem run (recorded : Recorded oid sent hand history desk) (callback : Callback κ ω) :
    Recorded oid sent hand (history ++ callback.incidents listen desk)
      (callback.run listen desk).2 := by
  induction callback generalizing history desk with
  | done => rwa [Callback.incidents, List.append_nil]
  | fail error => rwa [Callback.incidents, List.append_nil]
  | panic text => exact recorded.panic text
  | read next ih => exact ih desk.state recorded
  | write state next ih => exact ih (recorded.setState state)
  | invoke call next ih =>
    rw [Callback.incidents, ← List.append_assoc]
    exact ih (desk.invoke call).1 (recorded.invoke call)
  | endSession next ih =>
    have ended := recorded.endSession listen
    unfold Callback.incidents Callback.run
    rcases stopped : desk.endSession listen with ⟨ending, last⟩
    rw [stopped] at ended
    rw [← List.append_assoc]
    cases ending with
    | panicked text => rwa [List.append_nil]
    | returned => exact ih ended
    | failed error => exact ih ended

theorem take {token : Token} {name : κ} (recorded : Recorded oid sent [] history desk)
    (found : desk.director.pending.lookup token = some name) :
    Recorded oid sent [(token, name)] history
      { desk with director := desk.director.withdraw [token] } := by
  have moved (few : (registered history).length < 2 ^ 32) (others : List (Token × κ)) :
      (desk.director.pending ++ others).Perm
        ((desk.director.withdraw [token]).pending ++ (others ++ [(token, name)])) := by
    refine (((recorded.accounts few).perm_take found).append_right others).trans ?_
    rw [List.append_assoc]
    exact List.perm_append_comm.append_left _
  refine ⟨fun few => ?_, fun few quiet => ?_, recorded.messages, recorded.closed, fun closed => ?_,
    recorded.heeds⟩
  · refine (recorded.accounts few).release rfl rfl (List.Perm.subperm ?_)
    rw [List.append_nil, ← List.append_assoc (withdrawn history)]
    exact (moved few _).symm
  · have before := recorded.balance few quiet
    rw [List.append_nil] at before
    exact before.trans (moved few _)
  · rw [recorded.empty closed] at found
    cases found

theorem deliver {name : κ} {response : Response}
    (recorded : Recorded oid sent [(response.token, name)] history desk) :
    Recorded oid sent [] (history ++ desk.deliverIncidents listen name response)
      (Desk.deliver listen (listen name) response desk).2 := by
  unfold Desk.deliverIncidents Desk.deliver
  dsimp only
  by_cases unknown : ((listen name).kind.methodName response.method).isNone
  · rw [if_pos unknown, if_pos unknown, List.append_cons]
    exact (recorded.fail _).run listen _
  rw [if_neg unknown, if_neg unknown]
  by_cases failure : response.method = requestFailed
  · rw [if_pos failure, if_pos failure, List.append_cons]
    exact (recorded.fail _).run listen _
  rw [if_neg failure, if_neg failure]
  generalize (listen name).respond response.method response.args = callback
  rcases ran : callback.run listen desk with ⟨ending, after⟩
  cases ending with
  | failed error =>
    have refused := (recorded.answerRefused response.token name response error).run listen callback
    rw [ran] at refused
    have failed := (refused.fail error.text).run listen ((listen name).fail error.text)
    simpa [List.append_assoc] using failed
  | returned =>
    have answered := (recorded.answer response).run listen callback
    rw [ran] at answered
    simpa using answered
  | panicked text =>
    have answered := (recorded.answer response).run listen callback
    rw [ran] at answered
    simpa using answered

theorem dispatch (recorded : Recorded oid sent [] history desk) (response : Response) :
    Recorded oid sent [] (history ++ desk.dispatchIncidents listen response)
      (desk.dispatch listen response).2 := by
  unfold Desk.dispatchIncidents Desk.dispatch Director.take
  cases found : desk.director.pending.lookup response.token with
  | none => simpa using recorded
  | some name => exact (recorded.take found).deliver listen

theorem perform (recorded : Recorded oid sent [] history desk) (use : Desk.Use κ) :
    Recorded oid sent [] (history ++ (desk.perform listen use).1) (desk.perform listen use).2 := by
  cases use with
  | invoke call => exact recorded.invoke call
  | respond response => exact recorded.dispatch listen response
  | endSession => exact recorded.endSession listen

theorem runAll (recorded : Recorded oid sent [] history desk) (uses : List (Desk.Use κ)) :
    Recorded oid sent [] (history ++ (desk.run listen uses).1) (desk.run listen uses).2 := by
  induction uses generalizing history desk with
  | nil => rwa [Desk.run, List.append_nil]
  | cons use rest ih =>
    rw [Desk.run]
    dsimp only
    rw [← List.append_assoc]
    exact ih (recorded.perform listen use)

end Recorded

section

variable {token : Token} {name : κ}

theorem outcomes_eq_nil (unheard : token ∉ (settled history).map (·.1)) :
    outcomes token history = [] := by
  refine List.filterMap_eq_nil_iff.2 fun incident mem => ?_
  cases heard : incident.outcome? with
  | none => rfl
  | some entry =>
    obtain ⟨other, listener, outcome⟩ := entry
    have told : (other, listener) ∈ settled history :=
      List.mem_filterMap.2 ⟨incident, mem, by rw [heard]; rfl⟩
    have other : other ≠ token := fun same => unheard (List.mem_map.2 ⟨_, told, same⟩)
    exact if_neg other

/-- Who has an outcome once has just one. -/
theorem exists_outcomes_eq (once : ((settled history).map (·.1)).Nodup)
    (told : (token, name) ∈ settled history) :
    ∃ outcome, outcomes token history = [(name, outcome)] := by
  obtain ⟨incident, mem, heard⟩ := List.mem_filterMap.1 told
  obtain ⟨⟨other, listener, outcome⟩, hears, same⟩ := Option.map_eq_some_iff.1 heard
  cases same
  obtain ⟨before, after, rfl⟩ := List.append_of_mem mem
  have tells : settled (before ++ incident :: after) =
      settled before ++ (token, name) :: settled after := by
    simp [settled, hears]
  rw [tells, List.map_append, List.map_cons, List.nodup_middle, List.nodup_cons,
    List.mem_append, not_or] at once
  have early := outcomes_eq_nil once.1.1
  have late := outcomes_eq_nil once.1.2
  have split : outcomes token (before ++ incident :: after) =
      outcomes token before ++ (name, outcome) :: outcomes token after := by
    simp [outcomes, hears]
  exact ⟨outcome, by rw [split, early, late]; rfl⟩

end

namespace Recorded

/-- A listener of a call that was made is parked and has heard nothing, or has heard once. -/
theorem parked_or_heard (recorded : Recorded oid sent [] history desk)
    (few : (registered history).length < 2 ^ 32) (quiet : Quiet history)
    {token : Token} {name : κ} (made : (token, name) ∈ entrusted history) :
    (token, name) ∈ desk.director.pending ∧ outcomes token history = [] ∨
      token ∉ desk.director.pending.map (·.1) ∧
        ∃ outcome, outcomes token history = [(name, outcome)] := by
  have once := (recorded.accounts few).once
  have there := (recorded.balance few quiet).subset made
  rw [List.append_nil] at once there
  rw [List.map_append, List.map_append, List.nodup_append, List.nodup_append] at once
  obtain ⟨-, ⟨-, heardOnce, -⟩, apart⟩ := once
  have apart (waits : token ∈ desk.director.pending.map (·.1))
      (heard : token ∈ (settled history).map (·.1)) : False :=
    apart token waits token (List.mem_append_right _ heard) rfl
  obtain waits | told := List.mem_append.1 there
  · have key : token ∈ desk.director.pending.map (·.1) := List.mem_map_of_mem waits
    exact .inl ⟨waits, outcomes_eq_nil (apart key)⟩
  · have key : token ∈ (settled history).map (·.1) := List.mem_map_of_mem told
    exact .inr ⟨fun waits => apart waits key, exists_outcomes_eq heardOnce told⟩

/-- A listener of a call that was refused is not parked, and has heard nothing. -/
theorem silent_of_refused (recorded : Recorded oid sent [] history desk)
    (few : (registered history).length < 2 ^ 32) {call : Call κ} {tokens : List Token}
    {error : InvocationError} (refused : .refused call tokens error ∈ history) {token : Token}
    {name : κ} (mem : (token, name) ∈ tokens.zip call.listeners) :
    token ∉ desk.director.pending.map (·.1) ∧ outcomes token history = [] := by
  have once := (recorded.accounts few).once
  have struck : (token, name) ∈ withdrawn history := List.mem_flatMap.2 ⟨_, refused, mem⟩
  have gone : token ∈ (withdrawn history).map (·.1) := List.mem_map_of_mem struck
  rw [List.append_nil, List.map_append, List.map_append, List.nodup_append,
    List.nodup_append] at once
  obtain ⟨-, ⟨-, -, unheard⟩, unparked⟩ := once
  refine ⟨fun waits => unparked token waits token (List.mem_append_left _ gone) rfl, ?_⟩
  exact outcomes_eq_nil fun heard => unheard token gone token heard rfl

theorem length_of_posted (recorded : Recorded oid sent hand history desk) {call : Call κ}
    {tokens : List Token} {request : Request} (posted : .posted call tokens request ∈ history) :
    tokens.length = call.listeners.length := by
  obtain ⟨before, after, whole⟩ := List.append_of_mem posted
  exact (recorded.heeds.fits_of_eq_append whole).2

theorem closed_of_ended (recorded : Recorded oid sent hand history desk)
    (ended : .ended ∈ history) : desk.director.closed = true := by
  rw [recorded.closed]
  exact List.any_eq_true.2 ⟨_, ended, rfl⟩

theorem requests_of_ended (recorded : Recorded oid sent hand history desk)
    {before after : List (Incident κ)} (whole : history = before ++ .ended :: after) :
    requests after = [] := by
  refine List.filterMap_eq_nil_iff.2 fun incident mem => ?_
  have fits := recorded.heeds.fits_of_ended whole rfl incident mem
  cases incident with
  | posted call tokens request => cases fits.1
  | _ => rfl

end Recorded

namespace Desk

theorem dispatch_of_stray (listen : κ → Dispatcher κ ω) {response : Response}
    (stray : response.token ∉ desk.director.pending.map (·.1)) :
    desk.dispatch listen response = (.returned, desk) ∧
      desk.dispatchIncidents listen response = [] := by
  have unknown : desk.director.pending.lookup response.token = none := by
    refine List.lookup_eq_none_iff.2 fun entry mem => bne_iff_ne.2 fun same => stray ?_
    exact same ▸ List.mem_map_of_mem mem
  simp only [dispatch, dispatchIncidents, Director.take, unknown, and_self]

theorem invoke_of_closed (closed : desk.director.closed = true) (call : Call κ) :
    desk.invoke call = (.error .sessionClosed, desk) := by
  simp only [invoke, Director.begin, if_pos closed]

theorem pending_of_refused {after : Desk κ ω} {call : Call κ} {error : InvocationError}
    (few : desk.director.pending.length + call.listeners.length < 2 ^ 32)
    (refused : desk.invoke call = (.error error, after)) :
    after.director.pending = desk.director.pending := by
  by_cases closed : desk.director.closed
  · rw [invoke_of_closed closed] at refused
    cases refused
    rfl
  · rcases parking : desk.director.parkAll call.args with ⟨values, tokens, parked⟩
    unfold invoke Director.begin at refused
    rw [if_neg closed, parking] at refused
    dsimp only [conclude] at refused
    split at refused
    · cases refused
    · cases refused
      exact Director.withdraw_parkAll parking few

/-- The listeners of a call that was refused never hear anything, whatever else is done. -/
theorem silence_of_run (listen : κ → Dispatcher κ ω) (oid : Oid) (outgoing : Outgoing) (state : ω)
    (uses : List (Use κ)) :
    let ran := ({ director := { oid }, outgoing, state } : Desk κ ω).run listen uses
    (registered ran.1).length < 2 ^ 32 →
      ∀ call tokens error, .refused call tokens error ∈ ran.1 →
        ∀ token name, (token, name) ∈ tokens.zip call.listeners →
          token ∉ ran.2.director.pending.map (·.1) ∧ outcomes token ran.1 = [] := by
  intro ran few call tokens error refused token name mem
  have recorded := (Recorded.new oid outgoing state).runAll listen uses
  rw [List.nil_append] at recorded
  exact recorded.silent_of_refused few refused mem

section

variable (listen : κ → Dispatcher κ ω) {token : Token} {name : κ}

theorem failed_mem_dismissIncidents {state : ω}
    (quiet : Quiet (dismissIncidents listen state waiting))
    (waits : (token, name) ∈ waiting) :
    .failed token name InvocationError.sessionClosed.text ∈
      dismissIncidents listen state waiting := by
  induction waiting generalizing state with
  | nil => cases waits
  | cons entry rest ih =>
    unfold dismissIncidents at quiet ⊢
    dsimp only at quiet ⊢
    obtain same | waits := List.mem_cons.1 waits
    · cases same
      exact List.mem_append_left _ List.mem_cons_self
    · refine List.mem_append_right _ ?_
      obtain ⟨early, late⟩ := (quiet_append _ _).1 quiet
      rcases ran : ((listen entry.2).fail InvocationError.sessionClosed.text).runEnded state with
        ⟨ending, after⟩
      rw [ran] at late
      cases ending with
      | panicked text =>
        have panics := Callback.panicked_mem_incidentsEnded ran
        exact absurd (List.mem_cons_of_mem _ panics) (early text)
      | returned => exact ih late waits
      | failed error => exact ih late waits

/-- That holds of calls that are made as a whole. The two steps of a call do not exclude the end of
the session between them: then the call fails, and its listeners have been told of failure too. -/
theorem failed_of_interrupted {call : Call κ} {request : Request} {tokens : List Token}
    {parked : Director κ} {error : Wire.ProtocolError}
    (begun : desk.director.begin call = (.ok (request, tokens), parked))
    (few : desk.director.pending.length + call.listeners.length < 2 ^ 32)
    (quiet : Quiet (endIncidents listen { desk with director := parked }))
    (refusal : desk.outgoing.answers.headD desk.outgoing.refusal = some error) :
    ((endSession listen { desk with director := parked }).2.conclude request tokens).1 =
      .error error.toInvocationError ∧
    ∀ entry ∈ tokens.zip call.listeners,
      .failed entry.1 entry.2 InvocationError.sessionClosed.text ∈
        endIncidents listen { desk with director := parked } := by
  refine ⟨?_, fun entry mem => ?_⟩
  · simp only [conclude, endSession, Outgoing.post, refusal]
  · unfold Director.begin at begun
    split at begun
    · cases begun
    · rcases parking : desk.director.parkAll call.args with ⟨values, tokens', parked'⟩
      rw [parking] at begun
      cases begun
      have waits : entry ∈ parked.pending := by
        rw [(Director.parkAll_spec parking few).1]
        exact List.mem_append_right _ mem
      refine List.mem_cons_of_mem _ (failed_mem_dismissIncidents listen (fun text mem => ?_) waits)
      exact quiet text (List.mem_cons_of_mem _ mem)

example :
    let parked : Director Unit :=
      { oid := 1000, pending := [(⟨1000, 1⟩, ())], nextRequest := 2 }
    let desk : Desk Unit Unit := ⟨parked, { refusal := some .closed }, ()⟩
    let listen : Unit → Dispatcher Unit Unit := fun _ =>
      ⟨confirmListener, fun _ _ => .done, fun _ => .done⟩
    let request : Request := ⟨1, 1, [.listener ⟨1000, 1⟩]⟩
    Director.begin { oid := 1000 } ⟨1, 1, [.listener ()]⟩ =
      (.ok (request, [⟨1000, 1⟩]), parked) ∧
    desk.endIncidents listen = [.ended, .failed ⟨1000, 1⟩ () "session closed"] ∧
    ((desk.endSession listen).2.conclude request [⟨1000, 1⟩]).1 =
      .error (.transport "connection closed") := by
  decide

end

/-- Unless code of the client panics, a listener of a call that succeeded is parked and has heard
nothing, or is parked no more and has had one outcome, which it has noted if it takes notes. -/
theorem outcomes_of_run (listen : κ → Dispatcher κ ω) (oid : Oid) (outgoing : Outgoing) (state : ω)
    (uses : List (Use κ)) :
    let ran := ({ director := { oid }, outgoing, state } : Desk κ ω).run listen uses
    let history := ran.1
    let desk := ran.2
    let pending := desk.director.pending
    ((registered history).length < 2 ^ 32 →
      ((registered history).map (·.1)).Nodup ∧
      (pending.map (·.1)).Nodup ∧ (∀ token ∈ pending.map (·.1), token.callerOid = oid) ∧
      pending.length ≤ (registered history).length ∧
      (Quiet history →
        ∀ call tokens request, .posted call tokens request ∈ history →
          tokens.length = call.listeners.length ∧
          ∀ token name, (token, name) ∈ tokens.zip call.listeners →
            (token, name) ∈ pending ∧ outcomes token history = [] ∨
            token ∉ pending.map (·.1) ∧ ∃ outcome, outcomes token history = [(name, outcome)])) ∧
    (∀ (before after : Desk κ ω) call error,
      before.director.pending.length + call.listeners.length < 2 ^ 32 →
      before.invoke call = (.error error, after) →
      after.director.pending = before.director.pending) ∧
    (∀ response, response.token ∉ pending.map (·.1) →
      desk.dispatch listen response = (.returned, desk) ∧
      desk.dispatchIncidents listen response = []) ∧
    (∀ before after, history = before ++ .ended :: after →
      pending = [] ∧ (∀ call, desk.invoke call = (.error .sessionClosed, desk)) ∧
      requests after = [] ∧ (∀ call tokens, .began call tokens ∉ after) ∧
      ∀ call tokens error, .refused call tokens error ∈ after →
        tokens = [] ∧ error = .sessionClosed) ∧
    desk.outgoing.messages = outgoing.messages ++ (requests history).map .invocation ∧
    ((∀ name, (listen name).Lawful listen) →
      ({ director := { oid }, outgoing, state := ⟨state, []⟩ } : Desk κ (Noted κ ω)).run
        (noting listen) uses = (history, desk.noted (words history))) := by
  have noted (lawful : ∀ name, (listen name).Lawful listen) :=
    run_noting lawful uses { director := { oid }, outgoing, state } []
  have recorded := (Recorded.new oid outgoing state).runAll listen uses
  rw [List.nil_append] at recorded
  generalize ({ director := { oid }, outgoing, state } : Desk κ ω).run listen uses = ran
    at recorded noted ⊢
  obtain ⟨history, desk⟩ := ran
  dsimp only at recorded noted ⊢
  refine ⟨fun few => ?_, fun before after call error => pending_of_refused,
    fun response => dispatch_of_stray listen, fun before after whole => ?_, recorded.messages,
    noted⟩
  · have accounts := recorded.accounts few
    have given : ((registered history).map (·.1)).Nodup := accounts.order ▸ nodup_issued few
    refine ⟨given, accounts.nodup_pending, fun token mem => ?_, accounts.length_pending_le,
      fun quiet call tokens request posted => ⟨recorded.length_of_posted posted, ?_⟩⟩
    · obtain ⟨entry, waits, rfl⟩ := List.mem_map.1 mem
      have known := accounts.known entry (List.mem_append_left _ waits)
      exact callerOid_of_issued (accounts.order ▸ List.mem_map_of_mem known)
    · intro token name mem
      exact recorded.parked_or_heard few quiet (List.mem_flatMap.2 ⟨_, posted, mem⟩)
  · have ended : .ended ∈ history := whole ▸ List.mem_append_right before List.mem_cons_self
    have closed := recorded.closed_of_ended ended
    have fits := recorded.heeds.fits_of_ended whole rfl
    refine ⟨recorded.empty closed, invoke_of_closed closed, recorded.requests_of_ended whole,
      fun call tokens began => ?_, fun call tokens error refused => fits _ refused rfl⟩
    cases (fits _ began).1

/-- A listener that calls again when it is answered, and one that only listens. -/
def persistent : Bool → Dispatcher Bool Unit
  | true => ⟨confirmListener, fun _ _ => .invoke ⟨1, 2, [.listener false]⟩ fun _ => .done,
      fun _ => .done⟩
  | false => ⟨confirmListener, fun _ _ => .done, fun _ => .done⟩

/-- The second call is refused, and the answer to the first comes twice, and once for another. -/
def errand : List (Use Bool) :=
  [.invoke ⟨1, 1, [.listener true, .value .null, .listener false]⟩,
    .invoke ⟨1, 1, [.listener true]⟩, .respond ⟨⟨1000, 1⟩, requestProcessed, []⟩,
    .respond ⟨⟨1000, 1⟩, requestProcessed, []⟩, .respond ⟨⟨7, 2⟩, requestProcessed, []⟩,
    .endSession, .invoke ⟨1, 1, [.listener true]⟩]

def afterErrand : List (Incident Bool) × Desk Bool Unit :=
  run persistent ⟨{ oid := 1000 }, { answers := [none, some .closed] }, ()⟩ errand

theorem history_errand : afterErrand.1 =
    [.began ⟨1, 1, [.listener true, .value .null, .listener false]⟩ [⟨1000, 1⟩, ⟨1000, 2⟩],
      .posted ⟨1, 1, [.listener true, .value .null, .listener false]⟩ [⟨1000, 1⟩, ⟨1000, 2⟩]
        ⟨1, 1, [.listener ⟨1000, 1⟩, .null, .listener ⟨1000, 2⟩]⟩,
      .began ⟨1, 1, [.listener true]⟩ [⟨1000, 3⟩],
      .refused ⟨1, 1, [.listener true]⟩ [⟨1000, 3⟩] (.transport "connection closed"),
      .answered ⟨1000, 1⟩ true ⟨⟨1000, 1⟩, requestProcessed, []⟩ none,
      .began ⟨1, 2, [.listener false]⟩ [⟨1000, 4⟩],
      .posted ⟨1, 2, [.listener false]⟩ [⟨1000, 4⟩] ⟨1, 2, [.listener ⟨1000, 4⟩]⟩,
      .ended, .failed ⟨1000, 2⟩ false "session closed", .failed ⟨1000, 4⟩ false "session closed",
      .refused ⟨1, 1, [.listener true]⟩ [] .sessionClosed] := by
  decide +kernel

theorem lawful_persistent (name : Bool) : (persistent name).Lawful persistent := by
  intro method args desk error desk' refused
  cases name <;> cases refused

theorem outcomes_of_run_errand :
    ((registered afterErrand.1).length < 2 ^ 32 ∧ Quiet afterErrand.1 ∧
      ∀ token name, (token, name) ∈ [(⟨1000, 1⟩, true), (⟨1000, 2⟩, false)] →
        ∃ outcome, outcomes token afterErrand.1 = [(name, outcome)]) ∧
    (run (noting persistent) ⟨{ oid := 1000 }, { answers := [none, some .closed] }, ⟨(), []⟩⟩
      errand).2.state.notes = [(true, .answer requestProcessed []),
        (false, .failure "session closed"), (false, .failure "session closed")] := by
  have few : (registered afterErrand.1).length < 2 ^ 32 := by decide +kernel
  have quiet : Quiet afterErrand.1 := by simp [Quiet, history_errand]
  obtain ⟨fate, -, -, stopped, -, noted⟩ := outcomes_of_run persistent 1000
    { answers := [none, some .closed] } () errand
  obtain ⟨-, -, -, -, fate⟩ := fate few
  have posted : .posted _ _ _ ∈ afterErrand.1 :=
    history_errand ▸ List.mem_cons_of_mem _ List.mem_cons_self
  have ended : .ended ∈ afterErrand.1 := by simp [history_errand]
  obtain ⟨before, after, whole⟩ := List.append_of_mem ended
  refine ⟨⟨few, quiet, fun token name mem => ?_⟩, ?_⟩
  · obtain ⟨waits, -⟩ | ⟨-, heard⟩ := (fate quiet _ _ _ posted).2 token name mem
    · rw [(stopped before after whole).1] at waits
      cases waits
    · exact heard
  · have notes : words afterErrand.1 = _ := congrArg words history_errand
    rw [noted lawful_persistent]
    exact notes

end Desk

end Parley.Client
