/-! A queue with many producers and one consumer.
Commands run one at a time in the order in which they were accepted. While it runs, a command may
change the context, put further commands into the queue, close it, or panic; a panic ends that
command and no other. -/

namespace Parley

/-- What a command does, one step after the other. -/
inductive Activity (κ σ : Type) where
  | done
  | panic (text : String)
  | read (next : σ → Activity κ σ)
  | write (context : σ) (next : Activity κ σ)
  | enqueue (command : κ) (next : Bool → Activity κ σ)
  | shutdown (next : Activity κ σ)
  deriving Inhabited

namespace Activity

def update (f : σ → σ) (next : Activity κ σ) : Activity κ σ :=
  read fun context => write (f context) next

end Activity

structure ActionQueue (κ σ : Type) where
  context : σ
  /-- Commands that were accepted and have not run, the oldest first. -/
  pending : List κ := []
  accepting : Bool := true
  /-- Whether there still is a consumer. -/
  attended : Bool := true
  /-- Commands run so far, with those that panicked. -/
  executed : Nat := 0

namespace ActionQueue

def isClosed (queue : ActionQueue κ σ) : Bool := !(queue.accepting && queue.attended)

/-- What a producer hears whose command is refused. -/
def closedText : String := "dispatch queue closed"

/-- Puts a command at the end and says whether it was accepted. -/
def enqueue (queue : ActionQueue κ σ) (command : κ) : Bool × ActionQueue κ σ :=
  if queue.isClosed then (false, queue)
  else (true, { queue with pending := queue.pending ++ [command] })

@[simp] theorem context_enqueue (queue : ActionQueue κ σ) (command : κ) :
    (queue.enqueue command).2.context = queue.context := by
  unfold enqueue
  split <;> rfl

theorem enqueue_of_open {queue : ActionQueue κ σ} (accepting : queue.isClosed = false)
    (command : κ) :
    queue.enqueue command = (true, { queue with pending := queue.pending ++ [command] }) := by
  simp [enqueue, accepting]

theorem of_mem_enqueue {queue : ActionQueue κ σ} {command other : κ}
    (mem : other ∈ (queue.enqueue command).2.pending) :
    other ∈ queue.pending ∨ other = command := by
  unfold enqueue at mem
  split at mem
  · exact .inl mem
  · exact (List.mem_append.1 mem).imp_right List.mem_singleton.1

/-- Nothing more is accepted; what was accepted before still runs. -/
def shutdown (queue : ActionQueue κ σ) : ActionQueue κ σ := { queue with accepting := false }

/-- The consumer goes away, and with it what has not run. -/
def abandon (queue : ActionQueue κ σ) : ActionQueue κ σ :=
  { queue with attended := false, pending := [] }

end ActionQueue

namespace Activity

def run : Activity κ σ → ActionQueue κ σ → ActionQueue κ σ
  | done, queue => queue
  | panic _, queue => queue
  | read next, queue => (next queue.context).run queue
  | write context next, queue => next.run { queue with context }
  | enqueue command next, queue =>
    let (accepted, queue) := queue.enqueue command
    (next accepted).run queue
  | shutdown next, queue => next.run queue.shutdown

end Activity

namespace ActionQueue

def step? (behave : κ → Activity κ σ) (queue : ActionQueue κ σ) : Option (ActionQueue κ σ) :=
  match queue.pending with
  | [] => none
  | command :: rest =>
    some ((behave command).run { queue with pending := rest, executed := queue.executed + 1 })

/-- Runs commands until none is left, but no more than `limit`. Commands that others put into the
queue count as well. -/
def runPending (behave : κ → Activity κ σ) : (limit : Nat) → ActionQueue κ σ → ActionQueue κ σ
  | 0, queue => queue
  | limit + 1, queue =>
    match queue.step? behave with
    | none => queue
    | some queue => runPending behave limit queue

/-- Closes the queue and runs everything that it has accepted. -/
def finish (behave : κ → Activity κ σ) (queue : ActionQueue κ σ) : ActionQueue κ σ :=
  queue.shutdown.runPending behave queue.pending.length

end ActionQueue

end Parley
