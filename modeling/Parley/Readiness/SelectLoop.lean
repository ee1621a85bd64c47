import Parley.Readiness.ReadySet
import Parley.Wire.Error

/-! Asking for ready sockets again and again.
Interruptions are shrugged off; a multiplexer that malfunctions too often in a row is given up
and the failure handler hears of it once. -/

namespace Parley.Readiness

inductive SelectError where
  | io (error : Wire.IoError)
  | malfunction (reason : String)
  deriving DecidableEq, Repr

namespace SelectError

def text : SelectError → String
  | io error => "i/o failure selecting: " ++ error.text
  | malfunction reason => "multiplexer malfunction: " ++ reason

end SelectError

/-- How one question to the multiplexer ended. -/
inductive Verdict where
  | selected (count : Nat)
  | failed (error : SelectError)
  | panicked (text : Option String)
  deriving DecidableEq, Repr

/-- An answer of the multiplexer: the sockets that it found ready, and how it ended. -/
structure Selection where
  ready : List ReadyEvent
  verdict : Verdict

namespace Verdict

/-- A panic counts as a malfunction. -/
def toExcept : Verdict → Except SelectError Nat
  | selected count => .ok count
  | failed error => .error error
  | panicked text => .error (.malfunction (text.getD "panic in multiplexer"))

end Verdict

/-- Malfunctions in a row after which the loop gives up. -/
def maxConsecutiveFailures : Nat := 20

structure SelectLoop (μ : Type) where
  multiplexer : μ
  /-- Milliseconds for which the multiplexer may wait. -/
  timeout : Nat
  ready : ReadySet := []
  failures : Nat := 0
  errored : Bool := false
  /-- What the failure handler has been told. -/
  handled : List SelectError := []

namespace SelectLoop

variable (select : μ → (timeout : Nat) → Selection × μ)

/-- Asks the multiplexer, and says whether the ready sockets may be taken now. -/
def poll (sel : SelectLoop μ) : Bool × SelectLoop μ :=
  if sel.errored then (false, sel)
  else
    let (selection, multiplexer) := select sel.multiplexer sel.timeout
    let sel := { sel with multiplexer, ready := sel.ready.insertAll selection.ready }
    match selection.verdict.toExcept with
    | .ok _ => (true, { sel with failures := 0 })
    | .error (.io _) => (false, { sel with failures := 0 })
    | .error error =>
      let sel := { sel with failures := sel.failures + 1 }
      if sel.failures < maxConsecutiveFailures then (false, sel)
      else (false, { sel with errored := true, handled := sel.handled ++ [error] })

/-- Asks the multiplexer and takes up to `count` of the ready sockets, or all of them. -/
def pollTaking (count : Option Nat) (sel : SelectLoop μ) : List ReadyEvent × SelectLoop μ :=
  match sel.poll select with
  | (false, sel) => ([], sel)
  | (true, sel) =>
    match count with
    | none => (sel.ready, { sel with ready := [] })
    | some n => (sel.ready.take n, { sel with ready := sel.ready.drop n })

end SelectLoop

end Parley.Readiness
