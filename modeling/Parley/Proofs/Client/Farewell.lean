import Parley.Proofs.Client.Outcomes

/-! Who is told that the session is over.
The table is emptied before the first listener is told, and the listeners are told one after the
other. One that panics ends the command that tells them: the queue goes on with the next command, and
the listeners that were to come later are parked no more and have heard nothing. So everybody is
told, in whichever order the table is gone through, just if no listener panics before the last. -/

namespace Parley.Client

namespace Desk

variable (listen : κ → Dispatcher κ ω)

def farewell (state : ω) (name : κ) : Ending × ω :=
  ((listen name).fail InvocationError.sessionClosed.text).runEnded state

/-- The state of the client's own code after listeners were told, each once and in this order. -/
def afterFarewells (state : ω) (heard : List (Token × κ)) : ω :=
  heard.foldl (fun state entry => (farewell listen state entry.2).2) state

/-- A listener panics when it is told after those in `front`. -/
def PanicsAfter (state : ω) (front : List (Token × κ)) (entry : Token × κ) : Prop :=
  ∃ text, (farewell listen (afterFarewells listen state front) entry.2).1 = .panicked text

/-- Of the listeners that are visited in this order those in `heard` are told, and those in `left`
are not because the last one before them panics. -/
structure Swept (state : ω) (order heard left : List (Token × κ)) : Prop where
  whole : order = heard ++ left
  calm : ∀ front entry back, heard = front ++ entry :: back → back ≠ [] →
    ¬ PanicsAfter listen state front entry
  cut : left ≠ [] → ∃ front entry, heard = front ++ [entry] ∧ PanicsAfter listen state front entry

def visiting (desk : Desk κ ω) (order : List (Token × κ)) : Desk κ ω :=
  { desk with director := { desk.director with pending := order } }

/-- The desk with an empty table, closed for good. -/
def bereft (desk : Desk κ ω) (state : ω) : Desk κ ω :=
  { desk with director := { desk.director with pending := [], closed := true }, state }

/-- Each parked listener hears once that the session is over, and hears nothing else. -/
def TellsAll (desk : Desk κ ω) : Prop :=
  ∀ entry ∈ desk.director.pending,
    outcomes entry.1 (desk.endIncidents listen) = [(entry.2, .failure "session closed")]

end Desk

theorem Callback.outcomes_incidentsEnded (callback : Callback κ ω) (state : ω) (token : Token) :
    outcomes token (callback.incidentsEnded state) = [] :=
  List.filterMap_eq_nil_iff.2 fun incident mem => by rw [outcome?_incidentsEnded mem]; rfl

namespace Desk

variable {listen : κ → Dispatcher κ ω} {order heard left : List (Token × κ)} {state : ω}

namespace Swept

theorem nil (listen : κ → Dispatcher κ ω) (state : ω) :
    Swept listen state ([] : List (Token × κ)) [] [] :=
  ⟨rfl, fun front entry back split => by simp at split, fun some => (some rfl).elim⟩

theorem stop {entry : Token × κ} {text : String}
    (panics : (farewell listen state entry.2).1 = .panicked text) :
    Swept listen state (entry :: left) [entry] left := by
  refine ⟨rfl, fun front other back split some => ?_, fun _ => ⟨[], entry, rfl, text, panics⟩⟩
  cases front with
  | nil => exact (some (List.cons.inj split).2.symm).elim
  | cons first front => simp at split

theorem cons {entry : Token × κ} (goes : ∀ text, (farewell listen state entry.2).1 ≠ .panicked text)
    (rest : Swept listen (farewell listen state entry.2).2 order heard left) :
    Swept listen state (entry :: order) (entry :: heard) left := by
  refine ⟨congrArg (entry :: ·) rest.whole, fun front other back split some => ?_, fun some => ?_⟩
  · cases front with
    | nil =>
      obtain ⟨rfl, -⟩ := List.cons.inj split
      rintro ⟨text, panics⟩
      exact goes text panics
    | cons first front =>
      obtain ⟨rfl, same⟩ := List.cons.inj split
      exact rest.calm front other back same some
  · obtain ⟨front, other, split, panics⟩ := rest.cut some
    exact ⟨entry :: front, other, congrArg (entry :: ·) split, panics⟩

theorem left_eq_nil (swept : Swept listen state order heard left)
    (calm : ∀ front entry back, order = front ++ entry :: back → back ≠ [] →
      ¬ PanicsAfter listen state front entry) : left = [] := by
  by_contra some
  obtain ⟨front, entry, last, panics⟩ := swept.cut some
  refine calm front entry left ?_ some panics
  rw [swept.whole, last, List.append_assoc, List.singleton_append]

end Swept

theorem dismiss_cons_of_panicked {entry : Token × κ} {text : String} {after : ω}
    (panics : farewell listen state entry.2 = (.panicked text, after))
    (rest : List (Token × κ)) :
    dismiss listen state ((entry :: rest).map (·.2)) = (.panicked text, after) ∧
      dismissIncidents listen state (entry :: rest) =
        .failed entry.1 entry.2 InvocationError.sessionClosed.text ::
          ((listen entry.2).fail InvocationError.sessionClosed.text).incidentsEnded state := by
  unfold farewell at panics
  rw [List.map_cons, dismiss, dismissIncidents, panics]
  exact ⟨rfl, List.append_nil _⟩

theorem dismiss_cons_of_calm {entry : Token × κ}
    (goes : ∀ text, (farewell listen state entry.2).1 ≠ .panicked text)
    (rest : List (Token × κ)) :
    let after := (farewell listen state entry.2).2
    dismiss listen state ((entry :: rest).map (·.2)) = dismiss listen after (rest.map (·.2)) ∧
      dismissIncidents listen state (entry :: rest) =
        .failed entry.1 entry.2 InvocationError.sessionClosed.text ::
          ((listen entry.2).fail InvocationError.sessionClosed.text).incidentsEnded state ++
            dismissIncidents listen after rest := by
  unfold farewell at goes ⊢
  rw [List.map_cons, dismiss, dismissIncidents]
  dsimp only
  rcases ran : ((listen entry.2).fail InvocationError.sessionClosed.text).runEnded state with
    ⟨_ | error | text, after⟩
  · exact ⟨rfl, rfl⟩
  · exact ⟨rfl, rfl⟩
  · rw [ran] at goes
    exact (goes text rfl).elim

theorem outcomes_told (listen : κ → Dispatcher κ ω) (state : ω) (entry : Token × κ) (token : Token)
    (more : List (Incident κ)) :
    outcomes token (.failed entry.1 entry.2 InvocationError.sessionClosed.text ::
        ((listen entry.2).fail InvocationError.sessionClosed.text).incidentsEnded state ++ more) =
      ([entry].filter (·.1 = token)).map (fun entry => (entry.2, .failure "session closed")) ++
        outcomes token more := by
  rw [outcomes_append, ← List.singleton_append, outcomes_append,
    Callback.outcomes_incidentsEnded, List.append_nil]
  congr 1
  by_cases own : entry.1 = token
  · simp [outcomes, Incident.outcome?, own]
    rfl
  · simp [outcomes, Incident.outcome?, own]

/-- What the sweep does, and what the listeners hear of it. -/
theorem exists_swept (listen : κ → Dispatcher κ ω) (state : ω) (order : List (Token × κ)) :
    ∃ heard left, Swept listen state order heard left ∧
      (dismiss listen state (order.map (·.2))).2 = afterFarewells listen state heard ∧
      ∀ token, outcomes token (dismissIncidents listen state order) =
        (heard.filter (·.1 = token)).map fun entry => (entry.2, .failure "session closed") := by
  induction order generalizing state with
  | nil => exact ⟨[], [], .nil listen state, rfl, fun _ => rfl⟩
  | cons entry rest ih =>
    rcases spoke : farewell listen state entry.2 with ⟨ending, after⟩
    by_cases panics : ∃ text, ending = .panicked text
    · obtain ⟨text, rfl⟩ := panics
      obtain ⟨ran, incidents⟩ := dismiss_cons_of_panicked spoke rest
      refine ⟨[entry], rest, .stop (congrArg Prod.fst spoke), ?_, fun token => ?_⟩
      · rw [ran, afterFarewells, List.foldl_cons, spoke]
        rfl
      · have only := outcomes_told listen state entry token []
        rw [List.append_nil] at only
        rw [incidents, only]
        exact List.append_nil _
    · have goes : ∀ text, (farewell listen state entry.2).1 ≠ .panicked text := by
        rw [spoke]
        exact fun text same => panics ⟨text, same⟩
      obtain ⟨ran, incidents⟩ := dismiss_cons_of_calm goes rest
      obtain ⟨heard, left, swept, state', told⟩ := ih (farewell listen state entry.2).2
      refine ⟨entry :: heard, left, .cons goes swept, ?_, fun token => ?_⟩
      · rw [ran, state']
        rfl
      · rw [incidents, outcomes_told, told, ← List.map_append, ← List.filter_append]
        rfl

theorem filter_key_of_mem {entries : List (Token × κ)} (apart : (entries.map (·.1)).Nodup)
    {entry : Token × κ} (mem : entry ∈ entries) :
    entries.filter (·.1 = entry.1) = [entry] := by
  obtain ⟨front, back, rfl⟩ := List.append_of_mem mem
  rw [List.map_append, List.map_cons, List.nodup_middle, ← List.map_append] at apart
  have others : (front ++ back).filter (·.1 = entry.1) = [] := by
    refine List.filter_eq_nil_iff.2 fun other known same => (List.nodup_cons.1 apart).1 ?_
    exact List.mem_map.2 ⟨other, known, of_decide_eq_true same⟩
  rw [List.filter_append, List.append_eq_nil_iff] at others
  rw [List.filter_append, List.filter_cons_of_pos (by simp), others.1, others.2]
  rfl

theorem filter_key_of_notMem {entries : List (Token × κ)} {token : Token}
    (absent : token ∉ entries.map (·.1)) : entries.filter (·.1 = token) = [] := by
  refine List.filter_eq_nil_iff.2 fun entry mem same => absent ?_
  exact List.mem_map.2 ⟨entry, mem, of_decide_eq_true same⟩

/-- The session ends while the table is in this order: some listeners are told, and perhaps some are
not. -/
structure Parted (listen : κ → Dispatcher κ ω) (desk : Desk κ ω) (heard left : List (Token × κ)) :
    Prop where
  swept : Swept listen desk.state desk.director.pending heard left
  after : (desk.endSession listen).2 = desk.bereft (afterFarewells listen desk.state heard)
  told : ∀ entry ∈ heard,
    outcomes entry.1 (desk.endIncidents listen) = [(entry.2, .failure "session closed")]
  untold : ∀ entry ∈ left, outcomes entry.1 (desk.endIncidents listen) = []

theorem exists_parted (listen : κ → Dispatcher κ ω) (desk : Desk κ ω)
    (apart : (desk.director.pending.map (·.1)).Nodup) :
    ∃ heard left, Parted listen desk heard left := by
  obtain ⟨heard, left, swept, after, told⟩ :=
    exists_swept listen desk.state desk.director.pending
  rw [swept.whole, List.map_append, List.nodup_append] at apart
  obtain ⟨own, -, others⟩ := apart
  refine ⟨heard, left, swept, ?_, fun entry mem => ?_, fun entry mem => ?_⟩
  · rw [bereft, ← after]
    rfl
  · have only := told entry.1
    rw [filter_key_of_mem own mem] at only
    exact only
  · have none := told entry.1
    rw [filter_key_of_notMem] at none
    · exact none
    · exact fun known => others _ known _ (List.mem_map_of_mem mem) rfl

theorem Parted.tellsAll_iff {desk : Desk κ ω} (parted : Parted listen desk heard left) :
    desk.TellsAll listen ↔ left = [] := by
  constructor
  · intro all
    refine List.eq_nil_iff_forall_not_mem.2 fun entry mem => ?_
    have told := all entry (parted.swept.whole ▸ List.mem_append_right heard mem)
    rw [parted.untold entry mem] at told
    cases told
  · rintro rfl entry mem
    have whole := parted.swept.whole
    rw [List.append_nil] at whole
    exact parted.told entry (whole ▸ mem)

/-- Everybody is told in every order just if in no order a listener panics before the last. -/
theorem tellsAll_visiting_iff (listen : κ → Dispatcher κ ω) (desk : Desk κ ω)
    (apart : (desk.director.pending.map (·.1)).Nodup) :
    (∀ order, order.Perm desk.director.pending → (desk.visiting order).TellsAll listen) ↔
      ∀ front entry back, (front ++ entry :: back).Perm desk.director.pending → back ≠ [] →
        ¬ PanicsAfter listen desk.state front entry := by
  have visit (order : List (Token × κ)) (perm : order.Perm desk.director.pending) :
      ∃ heard left, Parted listen (desk.visiting order) heard left :=
    exists_parted listen (desk.visiting order) ((perm.map _).nodup_iff.2 apart)
  constructor
  · intro all front entry back perm some panics
    obtain ⟨heard, left, parted⟩ := visit _ perm
    obtain rfl := parted.tellsAll_iff.1 (all _ perm)
    have whole := parted.swept.whole
    rw [List.append_nil] at whole
    exact parted.swept.calm front entry back whole.symm some panics
  · intro calm order perm
    obtain ⟨heard, left, parted⟩ := visit order perm
    refine parted.tellsAll_iff.2 (parted.swept.left_eq_nil fun front entry back split some => ?_)
    exact calm front entry back (split ▸ perm) some

end Desk

/-- At the end of the session each parked listener is told so, up to the first one that panics.
Those behind it hear nothing. -/
theorem Context.fate_of_farewell (code : Code κ ν ω)
    (queue : ActionQueue (Command ν) (Context κ ν ω)) {rest : List (Command ν)}
    (next : queue.pending = .endSession :: rest)
    (apart : (queue.context.desk.director.pending.map (·.1)).Nodup) :
    let desk := queue.context.desk
    (∀ order, order.Perm desk.director.pending → ∃ heard left,
      Desk.Parted code.listen (desk.visiting order) heard left ∧
      { queue with context.desk := desk.visiting order }.step? (behave code) = some { queue with
        context.desk := desk.bereft (Desk.afterFarewells code.listen desk.state heard)
        pending := rest
        executed := queue.executed + 1 }) ∧
    ((∀ order, order.Perm desk.director.pending → (desk.visiting order).TellsAll code.listen) ↔
      ∀ front entry back, (front ++ entry :: back).Perm desk.director.pending → back ≠ [] →
        ¬ Desk.PanicsAfter code.listen desk.state front entry) := by
  intro desk
  refine ⟨fun order perm => ?_, Desk.tellsAll_visiting_iff code.listen desk apart⟩
  obtain ⟨heard, left, parted⟩ := Desk.exists_parted code.listen (desk.visiting order)
    ((perm.map _).nodup_iff.2 apart)
  let visited : ActionQueue (Command ν) (Context κ ν ω) :=
    { queue with context.desk := desk.visiting order }
  have next' : visited.pending = .endSession :: rest := next
  have after : (visited.context.perform code .endSession).2 =
      { queue.context with
        desk := desk.bereft (Desk.afterFarewells code.listen desk.state heard) } :=
    congrArg (fun desk => { queue.context with desk }) parted.after
  have ran := step?_behave code next'
  rw [after] at ran
  exact ⟨heard, left, parted, ran⟩

/-- A listener that takes a note and then panics, and one that only takes a note. -/
def startled : Code Bool Unit (List Bool) where
  listen startles := ⟨confirmListener, fun _ _ => .done, fun _ => .read fun notes =>
    .write (notes ++ [startles]) (if startles then .panic "what?" else .done)⟩
  observe _ _ _ _ := .done

/-- Both wait for an answer when the session ends, and something else is to be done after that. -/
def waiting : ActionQueue (Command Unit) (Context Bool Unit (List Bool)) where
  context := { desk := {
    director := { oid := 1000, pending := [(⟨1000, 1⟩, true), (⟨1000, 2⟩, false)] }
    state := [] } }
  pending := [.endSession, .addObserver ()]

/-- There is an order in which not both are told, though the queue goes on in any order. -/
theorem Context.fate_of_farewell_startled :
    (¬ ∀ order, order.Perm waiting.context.desk.director.pending →
      (waiting.context.desk.visiting order).TellsAll startled.listen) ∧
    ∀ order, order.Perm waiting.context.desk.director.pending → ∃ after,
      { waiting with context.desk := waiting.context.desk.visiting order }.step?
        (behave startled) = some after ∧
      after.pending = [.addObserver ()] ∧ after.context.desk.director.closed = true ∧
      after.context.desk.director.pending = [] := by
  obtain ⟨visits, all⟩ := fate_of_farewell startled waiting rfl (by decide)
  refine ⟨fun told => ?_, fun order perm => ?_⟩
  · exact all.1 told [] (⟨1000, 1⟩, true) [(⟨1000, 2⟩, false)] (.refl _) (List.cons_ne_nil _ _)
      ⟨"what?", rfl⟩
  · obtain ⟨heard, left, -, ran⟩ := visits order perm
    exact ⟨_, ran, rfl, rfl, rfl⟩

end Parley.Client
