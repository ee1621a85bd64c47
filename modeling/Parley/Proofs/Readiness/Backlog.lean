import Mathlib.Data.List.DropRight
import Parley.Proofs.History
import Parley.Proofs.Readiness.Escalation

/-! What a readiness loop hands on, and when.
The ready set is read off the history of what was put in and what was yielded: a token is in it if
something was inserted for it since it was last yielded, it is ready for all that was inserted since
then, and the tokens stand in the order in which this began. Polls that fail and iterators that are
dropped leave no trace in the history, so they neither yield nor lose anything. -/

namespace Parley.Readiness

inductive Sighting where
  | inserted (event : ReadyEvent)
  | yielded (event : ReadyEvent)
  deriving DecidableEq, Repr

namespace Sighting

def yields (token : Nat) : Sighting → Bool
  | inserted _ => false
  | yielded event => event.token = token

def insertion? (token : Nat) : Sighting → Option ReadyEvent
  | inserted event => if event.token = token then some event else none
  | yielded _ => none

def yield? : Sighting → Option ReadyEvent
  | inserted _ => none
  | yielded event => some event

end Sighting

/-- The end of the history, from where the token was last yielded. -/
def sinceYield (token : Nat) (history : List Sighting) : List Sighting :=
  history.rtakeWhile fun sighting => !sighting.yields token

/-- What was inserted for a token since it was last yielded. -/
def gathered (token : Nat) (history : List Sighting) : List ReadyEvent :=
  (sinceYield token history).filterMap (·.insertion? token)

/-- When something was first inserted for a token since it was last yielded. -/
def firstSeen (token : Nat) (history : List Sighting) : Nat :=
  history.length - (sinceYield token history).length +
    (sinceYield token history).findIdx fun sighting => (sighting.insertion? token).isSome

def ReadyEvent.union (token : Nat) (events : List ReadyEvent) : ReadyEvent :=
  ⟨token, events.any (·.readable), events.any (·.writable), events.any (·.closed)⟩

section

variable {token : Nat} {history : List Sighting} {sighting : Sighting} {event : ReadyEvent}

theorem sinceYield_concat_of_yields (h : sighting.yields token) :
    sinceYield token (history ++ [sighting]) = [] :=
  List.rtakeWhile_concat_neg _ _ _ (by simp [h])

theorem sinceYield_concat_of_not_yields (h : sighting.yields token = false) :
    sinceYield token (history ++ [sighting]) = sinceYield token history ++ [sighting] :=
  List.rtakeWhile_concat_pos _ _ _ (by simp [h])

theorem length_sinceYield_le (token : Nat) (history : List Sighting) :
    (sinceYield token history).length ≤ history.length :=
  (List.rtakeWhile_suffix _ _).length_le

theorem gathered_concat (token : Nat) (history : List Sighting) (sighting : Sighting) :
    gathered token (history ++ [sighting]) =
      if sighting.yields token then []
      else gathered token history ++ (sighting.insertion? token).toList := by
  unfold gathered
  split
  · rename_i own
    rw [sinceYield_concat_of_yields own, List.filterMap_nil]
  · rename_i other
    rw [sinceYield_concat_of_not_yields (Bool.eq_false_iff.2 other), List.filterMap_append]
    cases found : sighting.insertion? token <;> simp [found]

theorem gathered_inserted (token : Nat) (history : List Sighting) (event : ReadyEvent) :
    gathered token (history ++ [.inserted event]) =
      gathered token history ++ if event.token = token then [event] else [] := by
  rw [gathered_concat]
  by_cases own : event.token = token <;> simp [Sighting.yields, Sighting.insertion?, own]

theorem gathered_yielded (token : Nat) (history : List Sighting) (event : ReadyEvent) :
    gathered token (history ++ [.yielded event]) =
      if event.token = token then [] else gathered token history := by
  rw [gathered_concat]
  simp [Sighting.yields, Sighting.insertion?]

theorem findIdx_lt_iff : (sinceYield token history).findIdx
      (fun sighting => (sighting.insertion? token).isSome) < (sinceYield token history).length ↔
    gathered token history ≠ [] := by
  rw [List.findIdx_lt_length, gathered, Ne, List.filterMap_eq_nil_iff]
  simp [Option.ne_none_iff_isSome]

theorem firstSeen_lt (held : gathered token history ≠ []) :
    firstSeen token history < history.length := by
  have whole := length_sinceYield_le token history
  have within := findIdx_lt_iff.2 held
  unfold firstSeen
  omega

/-- What has begun to gather began when it did, whatever happens later but a yield. -/
theorem firstSeen_concat (h : sighting.yields token = false) (held : gathered token history ≠ []) :
    firstSeen token (history ++ [sighting]) = firstSeen token history := by
  have within := findIdx_lt_iff.2 held
  unfold firstSeen
  rw [sinceYield_concat_of_not_yields h, List.findIdx_append, if_pos within]
  simp only [List.length_append, List.length_singleton]
  omega

theorem firstSeen_inserted (fresh : gathered event.token history = []) :
    firstSeen event.token (history ++ [.inserted event]) = history.length := by
  have whole := length_sinceYield_le event.token history
  have outside := mt findIdx_lt_iff.1 (not_not.2 fresh)
  unfold firstSeen
  rw [sinceYield_concat_of_not_yields rfl, List.findIdx_append, if_neg outside]
  simp [Sighting.insertion?, List.findIdx_cons]
  omega

theorem union_concat (token : Nat) (events : List ReadyEvent) (event : ReadyEvent) :
    ReadyEvent.union token (events ++ [event]) = (ReadyEvent.union token events).merge event := by
  simp [ReadyEvent.union, ReadyEvent.merge]

theorem union_singleton (event : ReadyEvent) : ReadyEvent.union event.token [event] = event := by
  simp [ReadyEvent.union]

end

namespace ReadySet

variable {set : ReadySet} {event : ReadyEvent}

theorem insert_of_notMem (h : event.token ∉ set.map (·.token)) :
    set.insert event = set ++ [event] := by
  induction set with
  | nil => rfl
  | cons first rest ih =>
    rw [List.map_cons, List.mem_cons, not_or] at h
    rw [insert, if_neg (Ne.symm h.1), ih h.2, List.cons_append]

/-- Where each token stands once, an event is merged with the one that has its token. -/
theorem insert_of_mem (apart : (set.map (·.token)).Nodup) (h : event.token ∈ set.map (·.token)) :
    set.insert event =
      set.map fun old => if old.token = event.token then old.merge event else old := by
  induction set with
  | nil => cases h
  | cons first rest ih =>
    rw [List.map_cons, List.nodup_cons] at apart
    rw [insert, List.map_cons]
    by_cases own : first.token = event.token
    · have others : rest.map (fun old => if old.token = event.token then old.merge event else old) =
          rest := by
        have apart' : ∀ old ∈ rest, old.token ≠ event.token := fun old mem same =>
          apart.1 (own.trans same.symm ▸ List.mem_map_of_mem mem)
        exact (List.map_congr_left fun old mem => if_neg (apart' old mem)).trans (List.map_id _)
      rw [if_pos own, if_pos own, others]
    · rw [List.map_cons, List.mem_cons] at h
      rw [if_neg own, if_neg own, ih apart.2 (h.resolve_left (Ne.symm own))]

def pull : Nat → ReadySet → List ReadyEvent × ReadySet
  | 0, set => ([], set)
  | n + 1, set =>
    match set.pop with
    | (none, set) => ([], set)
    | (some event, set) =>
      let (more, set) := pull n set
      (event :: more, set)

theorem pull_eq (n : Nat) (set : ReadySet) : set.pull n = (set.take n, set.drop n) := by
  induction n generalizing set with
  | zero => rfl
  | succ n ih =>
    cases set with
    | nil => rfl
    | cons first rest =>
      rw [pull, pop]
      dsimp only
      rw [ih]
      rfl

end ReadySet

/-- The set is what the history has left in it. -/
structure Backlog (history : List Sighting) (set : ReadySet) : Prop where
  merged : ∀ event ∈ set, event = .union event.token (gathered event.token history)
  present : ∀ token, token ∈ set.map (·.token) ↔ gathered token history ≠ []
  ordered : (set.map (·.token)).Pairwise fun a b => firstSeen a history < firstSeen b history

namespace Backlog

variable {history : List Sighting} {set rest : ReadySet} {event : ReadyEvent}

theorem empty : Backlog [] [] :=
  ⟨by simp, by simp [gathered, sinceYield], .nil⟩

theorem nodup (backlog : Backlog history set) : (set.map (·.token)).Nodup :=
  backlog.ordered.imp fun earlier same => Nat.ne_of_lt earlier (congrArg (firstSeen · history) same)

theorem mem_iff (backlog : Backlog history set) : event ∈ set ↔
    gathered event.token history ≠ [] ∧
      event = .union event.token (gathered event.token history) := by
  refine ⟨fun mem => ⟨?_, backlog.merged event mem⟩, fun ⟨held, whole⟩ => ?_⟩
  · exact (backlog.present _).1 (List.mem_map_of_mem mem)
  · obtain ⟨old, mem, same⟩ := List.mem_map.1 ((backlog.present _).2 held)
    have merged := backlog.merged old mem
    rw [same, ← whole] at merged
    exact merged ▸ mem

theorem insert_of_present (backlog : Backlog history set)
    (here : gathered event.token history ≠ []) :
    Backlog (history ++ [.inserted event]) (set.insert event) := by
  have tokens : (set.map fun old => if old.token = event.token then old.merge event else old).map
      (·.token) = set.map (·.token) := by
    rw [List.map_map]
    refine List.map_congr_left fun old _ => ?_
    by_cases own : old.token = event.token <;> simp [ReadyEvent.merge, own]
  rw [ReadySet.insert_of_mem backlog.nodup ((backlog.present event.token).2 here)]
  refine ⟨fun e mem => ?_, fun token => ?_, ?_⟩
  · obtain ⟨old, known, rfl⟩ := List.mem_map.1 mem
    have was := backlog.merged old known
    by_cases own : old.token = event.token
    · have token : (old.merge event).token = old.token := rfl
      rw [if_pos own, token, gathered_inserted, if_pos own.symm, union_concat, ← was]
    · rw [if_neg own, gathered_inserted, if_neg (Ne.symm own), List.append_nil]
      exact was
  · rw [tokens, backlog.present, gathered_inserted]
    by_cases own : event.token = token
    · subst own
      simp [here]
    · simp [own]
  · rw [tokens]
    refine backlog.ordered.imp_of_mem fun memA memB earlier => ?_
    rwa [firstSeen_concat rfl ((backlog.present _).1 memA),
      firstSeen_concat rfl ((backlog.present _).1 memB)]

theorem insert_of_absent (backlog : Backlog history set)
    (fresh : gathered event.token history = []) :
    Backlog (history ++ [.inserted event]) (set.insert event) := by
  have absent : event.token ∉ set.map (·.token) := fun mem => (backlog.present _).1 mem fresh
  rw [ReadySet.insert_of_notMem absent]
  refine ⟨fun e mem => ?_, fun token => ?_, ?_⟩
  · rw [gathered_inserted]
    obtain old | new := List.mem_append.1 mem
    · have apart : event.token ≠ e.token := fun same => absent (same ▸ List.mem_map_of_mem old)
      rw [if_neg apart, List.append_nil]
      exact backlog.merged e old
    · obtain rfl := List.mem_singleton.1 new
      rw [if_pos rfl, fresh, List.nil_append, union_singleton]
  · rw [List.map_append, List.mem_append, backlog.present, gathered_inserted]
    by_cases own : event.token = token
    · simp [own]
    · simp [own, Ne.symm own]
  · rw [List.map_append, List.pairwise_append]
    refine ⟨?_, List.pairwise_singleton _ _, fun a memA b memB => ?_⟩
    · refine backlog.ordered.imp_of_mem fun memA memB earlier => ?_
      rwa [firstSeen_concat rfl ((backlog.present _).1 memA),
        firstSeen_concat rfl ((backlog.present _).1 memB)]
    · obtain rfl := List.mem_singleton.1 memB
      have here := (backlog.present a).1 memA
      rw [firstSeen_concat rfl here, firstSeen_inserted fresh]
      exact firstSeen_lt here

theorem insert (backlog : Backlog history set) (event : ReadyEvent) :
    Backlog (history ++ [.inserted event]) (set.insert event) := by
  by_cases fresh : gathered event.token history = []
  · exact backlog.insert_of_absent fresh
  · exact backlog.insert_of_present fresh

/-- What is yielded is gone, and all else is as it was. -/
theorem yield (backlog : Backlog history (event :: rest)) :
    Backlog (history ++ [.yielded event]) rest := by
  have apart := backlog.nodup
  have ordered := backlog.ordered
  rw [List.map_cons, List.nodup_cons] at apart
  rw [List.map_cons, List.pairwise_cons] at ordered
  have others : ∀ token ∈ rest.map (·.token), event.token ≠ token :=
    fun token mem same => apart.1 (same ▸ mem)
  have known : ∀ token ∈ rest.map (·.token), gathered token history ≠ [] :=
    fun token mem => (backlog.present token).1 (List.mem_cons_of_mem _ mem)
  refine ⟨fun e mem => ?_, fun token => ?_, ?_⟩
  · rw [gathered_yielded, if_neg (others _ (List.mem_map_of_mem mem))]
    exact backlog.merged e (List.mem_cons_of_mem _ mem)
  · rw [gathered_yielded]
    by_cases own : event.token = token
    · rw [if_pos own, ← own]
      exact iff_of_false apart.1 fun held => held rfl
    · rw [if_neg own, ← backlog.present, List.map_cons, List.mem_cons, or_iff_right (Ne.symm own)]
  · refine ordered.2.imp_of_mem fun memA memB earlier => ?_
    rwa [firstSeen_concat (by simpa [Sighting.yields] using others _ memA) (known _ memA),
      firstSeen_concat (by simpa [Sighting.yields] using others _ memB) (known _ memB)]

end Backlog

/-- Each yield in a history was right: it gave what had been gathered for its token, and this had
begun later than for the tokens yielded before it and earlier than for all that is still there. -/
structure Faithful (history : List Sighting) : Prop where
  merged : ∀ before event after, history = before ++ .yielded event :: after →
    gathered event.token before ≠ [] ∧ event = .union event.token (gathered event.token before)
  inTurn : ∀ before first middle second after,
    history = before ++ .yielded first :: middle ++ .yielded second :: after →
      firstSeen first.token before < firstSeen second.token (before ++ .yielded first :: middle)
  behind : ∀ before event after token, history = before ++ .yielded event :: after →
    gathered token history ≠ [] → firstSeen event.token before < firstSeen token history

namespace Faithful

variable {history : List Sighting} {set rest : ReadySet} {event : ReadyEvent}

theorem empty : Faithful [] :=
  ⟨by simp, by simp, by simp⟩

theorem insert (faithful : Faithful history) (event : ReadyEvent) :
    Faithful (history ++ [.inserted event]) := by
  have earlier : ∀ {before after : List Sighting} {e : ReadyEvent},
      history ++ [.inserted event] = before ++ .yielded e :: after →
        ∃ rest, history = before ++ .yielded e :: rest := by
    intro before after e whole
    obtain ⟨rest, old, -⟩ | ⟨front, -, new⟩ := append_eq_append_cons whole
    · exact ⟨rest, old⟩
    · cases front <;> simp at new
  refine ⟨fun before e after whole => ?_, fun before first middle second after whole => ?_,
    fun before e after token whole held => ?_⟩
  · obtain ⟨rest, old⟩ := earlier whole
    exact faithful.merged before e rest old
  · obtain ⟨rest, old⟩ := earlier whole
    exact faithful.inTurn before first middle second rest old
  · obtain ⟨rest, old⟩ := earlier whole
    by_cases known : gathered token history = []
    · -- the token is new, and everything yielded was seen before it
      rw [gathered_inserted, known, List.nil_append] at held
      obtain rfl : event.token = token := by simpa using held
      have seen := firstSeen_lt (faithful.merged before e rest old).1
      have length := congrArg List.length old
      rw [List.length_append] at length
      rw [firstSeen_inserted known]
      omega
    · rw [firstSeen_concat rfl known]
      exact faithful.behind before e rest token old known

theorem yield (faithful : Faithful history) (backlog : Backlog history (event :: rest)) :
    Faithful (history ++ [.yielded event]) := by
  have cut : ∀ {before after : List Sighting} {e : ReadyEvent},
      history ++ [.yielded event] = before ++ .yielded e :: after →
        (∃ rest, history = before ++ .yielded e :: rest) ∨ before = history ∧ e = event := by
    intro before after e whole
    obtain ⟨rest, old, -⟩ | ⟨front, rfl, new⟩ := append_eq_append_cons whole
    · exact .inl ⟨rest, old⟩
    · cases front with
      | nil =>
        obtain ⟨same, -⟩ := List.cons.inj new
        exact .inr ⟨List.append_nil _, (Sighting.yielded.inj same).symm⟩
      | cons _ _ => simp at new
  have here : gathered event.token history ≠ [] :=
    (backlog.present _).1 List.mem_cons_self
  refine ⟨fun before e after whole => ?_, fun before first middle second after whole => ?_,
    fun before e after token whole held => ?_⟩
  · obtain ⟨rest, old⟩ | ⟨rfl, rfl⟩ := cut whole
    · exact faithful.merged before e rest old
    · exact ⟨here, backlog.merged e List.mem_cons_self⟩
  · obtain ⟨rest, old⟩ | ⟨now, rfl⟩ := cut whole
    · exact faithful.inTurn before first middle second rest old
    · rw [now]
      exact faithful.behind before first middle second.token now.symm here
  · rw [gathered_yielded] at held
    have other : event.token ≠ token := fun same => held (if_pos same)
    rw [if_neg other] at held
    rw [firstSeen_concat (by simpa [Sighting.yields] using other) held]
    obtain ⟨rest, old⟩ | ⟨rfl, rfl⟩ := cut whole
    · exact faithful.behind before e rest token old held
    · have mem := (backlog.present token).2 held
      rw [List.map_cons, List.mem_cons] at mem
      have ordered := backlog.ordered
      rw [List.map_cons, List.pairwise_cons] at ordered
      exact ordered.1 token (mem.resolve_left (Ne.symm other))

end Faithful

section

variable {history : List Sighting} {set rest : ReadySet} {events : List ReadyEvent}

theorem Backlog.insertAll (backlog : Backlog history set) (events : List ReadyEvent) :
    Backlog (history ++ events.map .inserted) (set.insertAll events) := by
  induction events generalizing history set with
  | nil => rwa [List.map_nil, List.append_nil]
  | cons event events ih =>
    rw [List.map_cons, List.append_cons]
    exact ih (backlog.insert event)

theorem Faithful.insertAll (faithful : Faithful history) (events : List ReadyEvent) :
    Faithful (history ++ events.map .inserted) := by
  induction events generalizing history with
  | nil => rwa [List.map_nil, List.append_nil]
  | cons event events ih =>
    rw [List.map_cons, List.append_cons]
    exact ih (faithful.insert event)

theorem yieldAll (backlog : Backlog history (events ++ rest)) (faithful : Faithful history) :
    Backlog (history ++ events.map .yielded) rest ∧ Faithful (history ++ events.map .yielded) := by
  induction events generalizing history with
  | nil =>
    rw [List.map_nil, List.append_nil]
    exact ⟨backlog, faithful⟩
  | cons event events ih =>
    rw [List.map_cons, List.append_cons]
    exact ih backlog.yield (faithful.yield backlog)

end

namespace SelectLoop

variable (select : μ → (timeout : Nat) → Selection × μ)

def found (sel : SelectLoop μ) : List ReadyEvent :=
  if sel.errored then [] else (select sel.multiplexer sel.timeout).1.ready

def sightings (sel : SelectLoop μ) (count : Option Nat) : List Sighting :=
  (sel.found select).map .inserted ++ (sel.pollTaking select count).1.map .yielded

def history (sel : SelectLoop μ) : (counts : List (Option Nat)) → List Sighting
  | [] => []
  | count :: rest =>
    sel.sightings select count ++ (sel.pollTaking select count).2.history rest

variable {select : μ → (timeout : Nat) → Selection × μ} {sel : SelectLoop μ}
  {past : List Sighting}

theorem ready_poll (select : μ → (timeout : Nat) → Selection × μ) (sel : SelectLoop μ) :
    (sel.poll select).2.ready = sel.ready.insertAll (sel.found select) := by
  unfold poll found
  cases errored : sel.errored with
  | true => rfl
  | false =>
    rcases select sel.multiplexer sel.timeout with ⟨⟨ready, verdict⟩, multiplexer⟩
    rw [if_neg Bool.false_ne_true, if_neg Bool.false_ne_true]
    dsimp only
    split
    · rfl
    · rfl
    · split <;> rfl

theorem poll_fst (select : μ → (timeout : Nat) → Selection × μ) (sel : SelectLoop μ) :
    (sel.poll select).1 = true ↔ sel.errored = false ∧
      ∃ count, (select sel.multiplexer sel.timeout).1.verdict = .selected count := by
  unfold poll
  cases errored : sel.errored with
  | true => simp
  | false =>
    rcases select sel.multiplexer sel.timeout with ⟨⟨ready, verdict⟩, multiplexer⟩
    rw [if_neg Bool.false_ne_true]
    cases verdict with
    | selected count => simp [Verdict.toExcept]
    | panicked text =>
      simp only [Verdict.toExcept]
      split <;> simp
    | failed error =>
      cases error with
      | io failure => simp [Verdict.toExcept]
      | malfunction reason =>
        simp only [Verdict.toExcept]
        split <;> simp

theorem pollTaking_of_failed (failed : (sel.poll select).1 = false) (count : Option Nat) :
    sel.pollTaking select count = ([], (sel.poll select).2) := by
  unfold pollTaking
  split
  · rename_i after polled
    rw [polled]
  · rename_i after polled
    rw [polled] at failed
    cases failed

theorem pollTaking_of_selected (selected : (sel.poll select).1 = true) (count : Option Nat) :
    ((sel.pollTaking select count).1, (sel.pollTaking select count).2.ready) =
      (sel.poll select).2.ready.pull (count.getD (sel.poll select).2.ready.length) := by
  rw [ReadySet.pull_eq]
  unfold pollTaking
  split
  · rename_i after polled
    rw [polled] at selected
    cases selected
  · rename_i after polled
    rw [polled]
    cases count with
    | none => simp
    | some n => rfl

theorem taken_append_left (select : μ → (timeout : Nat) → Selection × μ) (sel : SelectLoop μ)
    (count : Option Nat) :
    (sel.pollTaking select count).1 ++ (sel.pollTaking select count).2.ready =
      sel.ready.insertAll (sel.found select) := by
  rw [← ready_poll]
  cases polled : (sel.poll select).1 with
  | false => rw [pollTaking_of_failed polled, List.nil_append]
  | true =>
    have pulled := pollTaking_of_selected polled count
    rw [ReadySet.pull_eq, Prod.mk.injEq] at pulled
    rw [pulled.1, pulled.2, List.take_append_drop]

variable (select) in
theorem backlog_sightings (backlog : Backlog past sel.ready) (faithful : Faithful past)
    (count : Option Nat) :
    Backlog (past ++ sel.sightings select count) (sel.pollTaking select count).2.ready ∧
      Faithful (past ++ sel.sightings select count) := by
  have offered := backlog.insertAll (sel.found select)
  rw [← taken_append_left select sel count] at offered
  rw [sightings, ← List.append_assoc]
  exact yieldAll offered (faithful.insertAll _)

variable (select) in
theorem backlog_run (backlog : Backlog past sel.ready) (faithful : Faithful past)
    (counts : List (Option Nat)) :
    Backlog (past ++ sel.history select counts) (sel.run select counts).2.ready ∧
      Faithful (past ++ sel.history select counts) := by
  induction counts generalizing sel past with
  | nil =>
    rw [history, List.append_nil]
    exact ⟨backlog, faithful⟩
  | cons count rest ih =>
    obtain ⟨backlog, faithful⟩ := backlog_sightings select backlog faithful count
    rw [history, ← List.append_assoc]
    exact ih backlog faithful

theorem yields_history (select : μ → (timeout : Nat) → Selection × μ) (sel : SelectLoop μ)
    (counts : List (Option Nat)) :
    (sel.history select counts).filterMap Sighting.yield? = (sel.run select counts).1.flatten := by
  induction counts generalizing sel with
  | nil => rfl
  | cons count rest ih =>
    have inserted : ∀ events : List ReadyEvent,
        (events.map Sighting.inserted).filterMap Sighting.yield? = [] := by
      simp [List.filterMap_map, Function.comp_def, Sighting.yield?]
    have yielded : ∀ events : List ReadyEvent,
        (events.map Sighting.yielded).filterMap Sighting.yield? = events := by
      simp [List.filterMap_map, Function.comp_def, Sighting.yield?]
    rw [history, List.filterMap_append, ih, sightings, List.filterMap_append, inserted, yielded]
    rfl

/-- What is yielded carries just the flags that were inserted for its token since that was last
yielded; what is not yielded stays. -/
theorem readiness_of_run (select : μ → (timeout : Nat) → Selection × μ) (multiplexer : μ)
    (timeout : Nat) (counts : List (Option Nat)) :
    let start : SelectLoop μ := { multiplexer, timeout }
    let sel := (start.run select counts).2
    let history := start.history select counts
    let offered := sel.ready.insertAll (sel.found select)
    history.filterMap Sighting.yield? = (start.run select counts).1.flatten ∧
    (∀ before event after, history = before ++ .yielded event :: after →
      gathered event.token before ≠ [] ∧
        event = .union event.token (gathered event.token before)) ∧
    (∀ before first middle second after,
      history = before ++ .yielded first :: middle ++ .yielded second :: after →
        firstSeen first.token before <
          firstSeen second.token (before ++ .yielded first :: middle)) ∧
    (∀ event, event ∈ sel.ready ↔ gathered event.token history ≠ [] ∧
      event = .union event.token (gathered event.token history)) ∧
    (sel.ready.map (·.token)).Pairwise (fun a b => firstSeen a history < firstSeen b history) ∧
    (sel.ready.map (·.token)).Nodup ∧ (offered.map (·.token)).Nodup ∧
    (∀ count, sel.errored = false →
      (select sel.multiplexer sel.timeout).1.verdict = .selected count → ∀ taken,
        ((sel.pollTaking select taken).1, (sel.pollTaking select taken).2.ready) =
          offered.pull (taken.getD offered.length)) ∧
    (sel.errored = true ∨
        (∀ count, (select sel.multiplexer sel.timeout).1.verdict ≠ .selected count) → ∀ taken,
      (sel.pollTaking select taken).1 = [] ∧ (sel.pollTaking select taken).2.ready = offered) := by
  intro start sel history offered
  have empty : Backlog [] start.ready := .empty
  obtain ⟨backlog, faithful⟩ := backlog_run select empty .empty counts
  rw [List.nil_append] at backlog faithful
  have ready : (sel.poll select).2.ready = offered := ready_poll select sel
  refine ⟨yields_history select start counts, faithful.merged, faithful.inTurn,
    fun event => backlog.mem_iff, backlog.ordered, backlog.nodup,
    (backlog.insertAll (sel.found select)).nodup, fun count running selected taken => ?_,
    fun failed taken => ?_⟩
  · have polled := (poll_fst select sel).2 ⟨running, count, selected⟩
    rw [pollTaking_of_selected polled, ready]
  · have polled : (sel.poll select).1 = false := by
      refine Bool.eq_false_iff.2 fun success => ?_
      obtain ⟨running, count, selected⟩ := (poll_fst select sel).1 success
      obtain errored | never := failed
      · exact Bool.false_ne_true (running.symm.trans errored)
      · exact never count selected
    rw [pollTaking_of_failed polled]
    exact ⟨rfl, ready⟩

/-- Of three sockets one is taken; the second is found again before its turn comes, and the first
after it. -/
example :
    let ready (token : Nat) : ReadyEvent := ⟨token, true, false, false⟩
    let script : Script := ⟨[⟨[ready 1, ready 2, ready 3], .selected 3⟩,
      ⟨[], .failed (.malfunction "")⟩, ⟨[⟨2, false, true, false⟩, ready 1], .selected 0⟩], 0, none⟩
    (({ multiplexer := script, timeout := 1 } : SelectLoop Script).run Script.select
      [some 1, none, some 2]).1 = [[ready 1], [], [⟨2, true, true, false⟩, ready 3]] := by decide

end SelectLoop

end Parley.Readiness
