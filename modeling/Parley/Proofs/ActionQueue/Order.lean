import Mathlib.Data.List.Infix
import Parley.ActionQueue
import Parley.Proofs.History

/-! The order in which a queue runs its commands.
However a queue is used, and whatever its commands do to it: those that have run are the first of
those that were accepted, in the order in which they were. Commands are accepted until the queue is
closed for the first time. A queue that is finished has run all of them. -/

namespace Parley

namespace ActionQueue

inductive Event (κ : Type) where
  /-- A command was offered, and accepted or refused. -/
  | offered (command : κ) (accepted : Bool)
  /-- A command was run; the queue was closed when it began, or not. -/
  | ran (command : κ) (closed : Bool)
  /-- The queue was shut down, or its consumer went away. -/
  | closed
  deriving DecidableEq, Repr

def Event.closes : Event κ → Bool
  | .closed => true
  | _ => false

/-- Whether the event can happen while the queue is closed, or is not. -/
def Event.Fits (closed : Bool) : Event κ → Prop
  | .offered _ accepted => accepted = !closed
  | .ran _ wasClosed => wasClosed = closed
  | .closed => True

def accepted (history : List (Event κ)) : List κ :=
  history.filterMap fun | .offered command true => some command | _ => none

/-- The commands that were run, in this order, with whether the queue was closed by then. -/
def performed (history : List (Event κ)) : List (κ × Bool) :=
  history.filterMap fun | .ran command closed => some (command, closed) | _ => none

variable {history : List (Event κ)}

@[simp] theorem accepted_append (history more : List (Event κ)) :
    accepted (history ++ more) = accepted history ++ accepted more := List.filterMap_append

@[simp] theorem performed_append (history more : List (Event κ)) :
    performed (history ++ more) = performed history ++ performed more := List.filterMap_append

theorem any_closes_iff : history.any (·.closes) = true ↔ .closed ∈ history := by
  rw [List.any_eq_true]
  constructor
  · rintro ⟨event, mem, closing⟩
    cases event with
    | closed => exact mem
    | _ => cases closing
  · exact fun mem => ⟨_, mem, rfl⟩

theorem accepted_of_heeds (heeds : Heeds Event.closes Event.Fits true history) :
    accepted history = [] := by
  refine List.filterMap_eq_nil_iff.2 fun event mem => ?_
  have fits := heeds_true_iff.1 heeds event mem
  cases event with
  | offered command accepted =>
    obtain rfl : accepted = false := fits
    rfl
  | _ => rfl

end ActionQueue

open ActionQueue (Event accepted performed)

namespace Activity

/-- What an activity makes of a context, if the queue is closed when it begins, or is not. -/
def effect : Activity κ σ → (closed : Bool) → σ → σ
  | done, _, context => context
  | panic _, _, context => context
  | read next, closed, context => (next context).effect closed context
  | write context next, closed, _ => next.effect closed context
  | enqueue _ next, closed, context => (next !closed).effect closed context
  | shutdown next, _, context => next.effect true context

def events : Activity κ σ → ActionQueue κ σ → List (Event κ)
  | done, _ => []
  | panic _, _ => []
  | read next, queue => (next queue.context).events queue
  | write context next, queue => next.events { queue with context }
  | enqueue command next, queue =>
    let (accepted, queue) := queue.enqueue command
    .offered command accepted :: (next accepted).events queue
  | shutdown next, queue => .closed :: next.events queue.shutdown

end Activity

variable {history more : List (Event κ)} {before after queue : ActionQueue κ σ}
  {behave : κ → Activity κ σ} {start : σ}

namespace ActionQueue

theorem isClosed_shutdown (queue : ActionQueue κ σ) : queue.shutdown.isClosed = true := rfl

theorem isClosed_of_left (left : queue.attended = false) : queue.isClosed = true := by
  simp [isClosed, left]

/-- What was done to the queue without running a command is what the events tell. -/
structure Did (events : List (Event κ)) (before after : ActionQueue κ σ) : Prop where
  pending : after.pending = before.pending ++ accepted events
  performed : performed events = []
  executed : after.executed = before.executed
  attended : after.attended = before.attended
  closed : after.isClosed = (before.isClosed || events.any (·.closes))
  heeds : Heeds Event.closes Event.Fits before.isClosed events

theorem Did.refl (queue : ActionQueue κ σ) : Did [] queue queue :=
  ⟨(List.append_nil _).symm, rfl, rfl, rfl, (Bool.or_false _).symm, trivial⟩

theorem Did.trans {third : ActionQueue κ σ} (early : Did history before after)
    (late : Did more after third) : Did (history ++ more) before third := by
  refine ⟨?_, ?_, late.executed.trans early.executed, late.attended.trans early.attended, ?_, ?_⟩
  · rw [late.pending, early.pending, accepted_append, List.append_assoc]
  · rw [performed_append, early.performed, late.performed, List.append_nil]
  · rw [late.closed, early.closed, List.any_append, Bool.or_assoc]
  · exact heeds_append.2 ⟨early.heeds, early.closed ▸ late.heeds⟩

theorem did_setContext (queue : ActionQueue κ σ) (context : σ) :
    Did [] queue { queue with context } := by
  have same := Did.refl queue
  exact ⟨same.pending, same.performed, same.executed, same.attended, same.closed, same.heeds⟩

theorem isClosed_enqueue (queue : ActionQueue κ σ) (command : κ) :
    (queue.enqueue command).2.isClosed = queue.isClosed := by
  unfold enqueue
  split <;> rfl

theorem mem_enqueue {command other : κ} (mem : other ∈ queue.pending) :
    other ∈ (queue.enqueue command).2.pending := by
  unfold enqueue
  split
  · exact mem
  · exact List.mem_append_left _ mem

theorem enqueue_of_closed (closed : queue.isClosed = true) (command : κ) :
    queue.enqueue command = (false, queue) := by
  simp [enqueue, closed]

theorem did_enqueue (queue : ActionQueue κ σ) (command : κ) :
    (queue.enqueue command).1 = !queue.isClosed ∧
      Did [.offered command (queue.enqueue command).1] queue (queue.enqueue command).2 := by
  cases closed : queue.isClosed with
  | true =>
    rw [enqueue_of_closed closed]
    refine ⟨rfl, (List.append_nil _).symm, rfl, rfl, rfl, (Bool.or_false _).symm, ?_⟩
    exact ⟨by rw [closed]; rfl, trivial⟩
  | false =>
    rw [enqueue_of_open closed]
    refine ⟨rfl, rfl, rfl, rfl, rfl, (Bool.or_false _).symm, ?_⟩
    exact ⟨by rw [closed]; rfl, trivial⟩

theorem did_shutdown (queue : ActionQueue κ σ) : Did [.closed] queue queue.shutdown :=
  ⟨(List.append_nil _).symm, rfl, rfl, rfl, (Bool.or_true _).symm, trivial, trivial⟩

end ActionQueue

open ActionQueue (Did)

theorem Activity.did_run (activity : Activity κ σ) (queue : ActionQueue κ σ) :
    Did (activity.events queue) queue (activity.run queue) ∧
      (activity.run queue).context = activity.effect queue.isClosed queue.context := by
  induction activity generalizing queue with
  | done => exact ⟨.refl queue, rfl⟩
  | panic text => exact ⟨.refl queue, rfl⟩
  | read next ih => exact ih queue.context queue
  | write context next ih =>
    obtain ⟨did, effect⟩ := ih { queue with context }
    exact ⟨(queue.did_setContext context).trans did, effect⟩
  | enqueue command next ih =>
    obtain ⟨open?, offered⟩ := queue.did_enqueue command
    obtain ⟨did, effect⟩ := ih (queue.enqueue command).1 (queue.enqueue command).2
    refine ⟨offered.trans did, effect.trans ?_⟩
    have still : (queue.enqueue command).2.isClosed = queue.isClosed :=
      offered.closed.trans (Bool.or_false _)
    rw [still, ActionQueue.context_enqueue, open?, Activity.effect]
  | shutdown next ih =>
    obtain ⟨did, effect⟩ := ih queue.shutdown
    exact ⟨queue.did_shutdown.trans did, effect⟩

namespace ActionQueue

/-- The history of a queue that began with the context `start` and no commands. -/
structure Recorded (behave : κ → Activity κ σ) (start : σ) (history : List (Event κ))
    (queue : ActionQueue κ σ) : Prop where
  order : (performed history).map (·.1) <+: accepted history
  whole : queue.attended = true →
    (performed history).map (·.1) ++ queue.pending = accepted history
  idle : queue.attended = false → queue.pending = []
  context : queue.context = (performed history).foldl
    (fun context (command, closed) => (behave command).effect closed context) start
  count : queue.executed = (performed history).length
  closed : queue.isClosed = history.any (·.closes)
  heeds : Heeds Event.closes Event.Fits false history

namespace Recorded

theorem new (behave : κ → Activity κ σ) (start : σ) :
    ({ context := start } : ActionQueue κ σ).Recorded behave start [] :=
  ⟨List.prefix_refl _, fun _ => rfl, fun _ => rfl, rfl, rfl, rfl, trivial⟩

theorem extend (recorded : queue.Recorded behave start history) (did : Did more queue after)
    (context : after.context = queue.context) : after.Recorded behave start (history ++ more) := by
  have same : performed (history ++ more) = performed history := by
    rw [performed_append, did.performed, List.append_nil]
  refine ⟨?_, fun attended => ?_, fun left => ?_, ?_, ?_, ?_, ?_⟩
  · rw [same, accepted_append]
    exact recorded.order.trans (List.prefix_append _ _)
  · rw [same, did.pending, accepted_append, ← List.append_assoc,
      recorded.whole (did.attended ▸ attended)]
  · have left : queue.attended = false := did.attended ▸ left
    rw [did.pending, recorded.idle left, accepted_of_heeds (isClosed_of_left left ▸ did.heeds)]
    rfl
  · rw [same, context, recorded.context]
  · rw [same, did.executed, recorded.count]
  · rw [did.closed, recorded.closed, List.any_append]
  · refine heeds_append.2 ⟨recorded.heeds, ?_⟩
    rw [Bool.false_or, ← recorded.closed]
    exact did.heeds

theorem enqueue (recorded : queue.Recorded behave start history) (command : κ) :
    (queue.enqueue command).2.Recorded behave start
      (history ++ [.offered command (queue.enqueue command).1]) :=
  recorded.extend (queue.did_enqueue command).2 (queue.context_enqueue command)

theorem shutdown (recorded : queue.Recorded behave start history) :
    queue.shutdown.Recorded behave start (history ++ [.closed]) :=
  recorded.extend queue.did_shutdown rfl

theorem abandon (recorded : queue.Recorded behave start history) :
    queue.abandon.Recorded behave start (history ++ [.closed]) := by
  have same : performed (history ++ [.closed]) = performed history := by
    rw [performed_append]
    exact List.append_nil _
  refine ⟨?_, (fun attended => nomatch attended), fun _ => rfl, ?_, ?_, ?_, ?_⟩
  · rw [same, accepted_append]
    exact recorded.order.trans (List.prefix_append _ _)
  · rw [same]
    exact recorded.context
  · rw [same]
    exact recorded.count
  · rw [isClosed_of_left rfl, List.any_append]
    exact (Bool.or_true _).symm
  · exact heeds_append.2 ⟨recorded.heeds, trivial, trivial⟩

theorem serve (recorded : queue.Recorded behave start history) {command : κ} {rest : List κ}
    (next : queue.pending = command :: rest) :
    let begun := { queue with pending := rest, executed := queue.executed + 1 }
    ((behave command).run begun).Recorded behave start
      (history ++ .ran command queue.isClosed :: (behave command).events begun) := by
  intro begun
  obtain ⟨did, effect⟩ := (behave command).did_run begun
  generalize (behave command).run begun = after, (behave command).events begun = more
    at did effect ⊢
  have attended : queue.attended = true := by
    cases left : queue.attended with
    | true => rfl
    | false =>
      rw [recorded.idle left] at next
      cases next
  have ran : performed (history ++ .ran command queue.isClosed :: more) =
      performed history ++ [(command, queue.isClosed)] := by
    rw [performed_append]
    exact congrArg (fun more => performed history ++ (command, queue.isClosed) :: more)
      did.performed
  have taken : accepted (history ++ .ran command queue.isClosed :: more) =
      accepted history ++ accepted more := accepted_append history _
  have whole : ((performed history).map (·.1) ++ [command]) ++ after.pending =
      accepted history ++ accepted more := by
    rw [← recorded.whole attended, next, did.pending]
    simp [begun]
  refine ⟨?_, fun _ => ?_, fun left => ?_, ?_, ?_, ?_, ?_⟩
  · rw [ran, taken, List.map_append, ← whole]
    exact List.prefix_append _ _
  · rw [ran, taken, List.map_append]
    exact whole
  · have left : queue.attended = false := did.attended.symm.trans left
    rw [attended] at left
    cases left
  · rw [ran, List.foldl_append, ← recorded.context]
    exact effect
  · rw [ran, List.length_append, ← recorded.count]
    exact did.executed
  · rw [did.closed, List.any_append, ← recorded.closed]
    rfl
  · refine heeds_append.2 ⟨recorded.heeds, ?_, ?_⟩
    · rw [← recorded.closed]
      rfl
    · rw [Bool.false_or, ← recorded.closed]
      exact (Bool.or_false _).symm ▸ did.heeds

end Recorded

section

variable (behave : κ → Activity κ σ)

def runEvents : (limit : Nat) → ActionQueue κ σ → List (Event κ)
  | 0, _ => []
  | limit + 1, queue =>
    match queue.pending with
    | [] => []
    | command :: rest =>
      let begun := { queue with pending := rest, executed := queue.executed + 1 }
      .ran command queue.isClosed :: (behave command).events begun ++
        runEvents limit ((behave command).run begun)

/-- What is done to a queue: by its producers, of whom there may be any number, and by its
consumer. -/
inductive Use (κ : Type) where
  | enqueue (command : κ)
  | shutdown
  /-- The consumer runs up to `limit` of the commands that it finds. -/
  | runPending (limit : Nat)
  /-- The queue is shut down, and the consumer runs it to its end. -/
  | finish
  /-- The consumer goes away. -/
  | abandon
  deriving DecidableEq, Repr

def perform (queue : ActionQueue κ σ) : Use κ → List (Event κ) × ActionQueue κ σ
  | .enqueue command =>
    let (accepted, queue) := queue.enqueue command
    ([.offered command accepted], queue)
  | .shutdown => ([.closed], queue.shutdown)
  | .runPending limit => (runEvents behave limit queue, queue.runPending behave limit)
  | .finish =>
    (.closed :: runEvents behave queue.pending.length queue.shutdown ++ [.closed],
      (queue.finish behave).abandon)
  | .abandon => ([.closed], queue.abandon)

def use (queue : ActionQueue κ σ) : List (Use κ) → List (Event κ) × ActionQueue κ σ
  | [] => ([], queue)
  | first :: rest =>
    let (events, queue) := queue.perform behave first
    let (more, queue) := queue.use rest
    (events ++ more, queue)

end

theorem runPending_of_idle (behave : κ → Activity κ σ) (idle : queue.pending = []) (limit : Nat) :
    queue.runPending behave limit = queue ∧ runEvents behave limit queue = [] := by
  cases limit with
  | zero => exact ⟨rfl, rfl⟩
  | succ limit => simp only [runPending, step?, runEvents, idle, and_self]

theorem runPending_of_pending (behave : κ → Activity κ σ) {command : κ} {rest : List κ}
    (next : queue.pending = command :: rest) (limit : Nat) :
    let begun := { queue with pending := rest, executed := queue.executed + 1 }
    queue.runPending behave (limit + 1) = ((behave command).run begun).runPending behave limit ∧
      runEvents behave (limit + 1) queue =
        .ran command queue.isClosed :: (behave command).events begun ++
          runEvents behave limit ((behave command).run begun) := by
  simp only [runPending, step?, runEvents, next, and_self]

theorem Recorded.runPending (recorded : queue.Recorded behave start history) (limit : Nat) :
    (queue.runPending behave limit).Recorded behave start
      (history ++ runEvents behave limit queue) := by
  induction limit generalizing queue history with
  | zero => rwa [runEvents, List.append_nil]
  | succ limit ih =>
    cases next : queue.pending with
    | nil =>
      obtain ⟨still, none⟩ := runPending_of_idle behave next (limit + 1)
      rwa [still, none, List.append_nil]
    | cons command rest =>
      obtain ⟨later, events⟩ := runPending_of_pending behave next limit
      rw [later, events, ← List.append_assoc]
      exact ih (recorded.serve next)

/-- A closed queue gets no new commands, so it is empty once it has run as many as it had. -/
theorem pending_runPending_of_closed (closed : queue.isClosed = true) :
    (queue.runPending behave queue.pending.length).pending = [] := by
  generalize waiting : queue.pending.length = limit
  induction limit generalizing queue with
  | zero => exact List.length_eq_zero_iff.1 waiting
  | succ limit ih =>
    obtain ⟨command, rest, next⟩ := List.exists_cons_of_length_eq_add_one waiting
    rw [(runPending_of_pending behave next limit).1]
    have did := ((behave command).did_run
      { queue with pending := rest, executed := queue.executed + 1 }).1
    have still : isClosed { queue with pending := rest, executed := queue.executed + 1 } = true :=
      closed
    refine ih ?_ ?_
    · rw [did.closed, still]
      rfl
    · rw [did.pending, accepted_of_heeds (still ▸ did.heeds), List.append_nil]
      rw [next] at waiting
      exact Nat.succ_inj.1 waiting

theorem attended_runPending (queue : ActionQueue κ σ) (limit : Nat) :
    (queue.runPending behave limit).attended = queue.attended := by
  induction limit generalizing queue with
  | zero => rfl
  | succ limit ih =>
    cases next : queue.pending with
    | nil => rw [(runPending_of_idle behave next (limit + 1)).1]
    | cons command rest =>
      rw [(runPending_of_pending behave next limit).1, ih]
      exact ((behave command).did_run _).1.attended

theorem Recorded.finish (recorded : queue.Recorded behave start history) :
    (queue.finish behave).Recorded behave start
      (history ++ .closed :: runEvents behave queue.pending.length queue.shutdown) := by
  rw [List.append_cons]
  exact recorded.shutdown.runPending queue.pending.length

/-- A queue that is finished has run all that it had accepted. -/
theorem Recorded.drained (recorded : queue.Recorded behave start history)
    (attended : queue.attended = true) :
    (queue.finish behave).pending = [] ∧
      (performed (history ++ (queue.perform behave .finish).1)).map (·.1) = accepted history := by
  have drained : (queue.finish behave).pending = [] :=
    pending_runPending_of_closed queue.isClosed_shutdown
  have finished := recorded.finish
  rw [ActionQueue.perform]
  generalize runEvents behave queue.pending.length queue.shutdown = more at finished ⊢
  have heeds : Heeds Event.closes Event.Fits true more :=
    heeds_true_iff.2 (finished.heeds.fits_of_ended rfl rfl)
  have whole := finished.whole ((attended_runPending queue.shutdown _).trans attended)
  have none : accepted (.closed :: more) = [] := accepted_of_heeds ⟨trivial, heeds⟩
  have last : performed (.closed :: more ++ [.closed]) = performed (.closed :: more) := by
    rw [performed_append]
    exact List.append_nil _
  rw [drained, List.append_nil, accepted_append, none, List.append_nil] at whole
  rw [performed_append, last, ← performed_append]
  exact ⟨drained, whole⟩

theorem Recorded.perform (recorded : queue.Recorded behave start history) (use : Use κ) :
    (queue.perform behave use).2.Recorded behave start
      (history ++ (queue.perform behave use).1) := by
  cases use with
  | enqueue command => exact recorded.enqueue command
  | shutdown => exact recorded.shutdown
  | runPending limit => exact recorded.runPending limit
  | finish =>
    rw [ActionQueue.perform, List.cons_append, ← List.cons_append, ← List.append_assoc]
    exact recorded.finish.abandon
  | abandon => exact recorded.abandon

theorem Recorded.use (recorded : queue.Recorded behave start history) (uses : List (Use κ)) :
    (queue.use behave uses).2.Recorded behave start
      (history ++ (queue.use behave uses).1) := by
  induction uses generalizing queue history with
  | nil => rwa [ActionQueue.use, List.append_nil]
  | cons first rest ih =>
    rw [ActionQueue.use]
    dsimp only
    rw [← List.append_assoc]
    exact ih (recorded.perform first)

/-- The commands that have run are the first of those that were accepted, and they have made the
context what it is; closing a queue and running it to its end leaves none out. -/
theorem order_of_uses (behave : κ → Activity κ σ) (start : σ) (uses : List (Use κ)) :
    let (history, queue) := ({ context := start } : ActionQueue κ σ).use behave uses
    (performed history).map (·.1) <+: accepted history ∧
    queue.context = (performed history).foldl
      (fun context (command, closed) => (behave command).effect closed context) start ∧
    queue.executed = (performed history).length ∧
    (∀ before after command isAccepted, history = before ++ .offered command isAccepted :: after →
      (isAccepted = true ↔ .closed ∉ before)) ∧
    (∀ before after command wasClosed, history = before ++ .ran command wasClosed :: after →
      (wasClosed = true ↔ .closed ∈ before)) ∧
    (queue.isClosed = true ↔ .closed ∈ history) ∧
    (queue.attended = true →
      (queue.finish behave).pending = [] ∧
      (performed (history ++ (queue.perform behave .finish).1)).map (·.1) = accepted history) := by
  have recorded := (Recorded.new behave start).use uses
  rw [List.nil_append] at recorded
  generalize ({ context := start } : ActionQueue κ σ).use behave uses = used at recorded ⊢
  obtain ⟨history, queue⟩ := used
  dsimp only at recorded ⊢
  refine ⟨recorded.order, recorded.context, recorded.count, ?_, ?_, ?_, fun attended => ?_⟩
  · intro before after command isAccepted whole
    have fits : isAccepted = !before.any (·.closes) := recorded.heeds.fits_of_eq_append whole
    rw [fits, ← any_closes_iff, Bool.not_eq_true, Bool.not_eq_true']
  · intro before after command wasClosed whole
    have fits : wasClosed = before.any (·.closes) := recorded.heeds.fits_of_eq_append whole
    rw [fits, any_closes_iff]
  · rw [recorded.closed, any_closes_iff]
  · exact recorded.drained attended

/-- A command that panics keeps what it has written, and the next one can still close the queue. -/
example :
    let behave : Bool → Activity Bool (List Nat)
      | true => .update (· ++ [1]) (.enqueue false fun _ => .panic "no more")
      | false => .shutdown (.enqueue true fun accepted => .update (· ++ [accepted.toNat]) .done)
    let (history, queue) := ({ context := [] } : ActionQueue Bool (List Nat)).use behave
      [.enqueue true, .runPending 5, .enqueue true]
    history = [.offered true true, .ran true false, .offered false true, .ran false false, .closed,
      .offered true false, .offered true false] ∧ queue.context = [1, 0] := by
  decide

end ActionQueue

end Parley
