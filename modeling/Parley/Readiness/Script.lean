import Parley.Readiness.SelectLoop

/-! A multiplexer that answers from a list, and finds nothing once that is used up. -/

namespace Parley.Readiness

structure Script where
  answers : List Selection
  /-- How often it was asked. -/
  asked : Nat := 0
  /-- How long it was allowed to wait, the last time. -/
  timeout : Option Nat := none

namespace Script

def select (script : Script) (timeout : Nat) : Selection × Script :=
  (script.answers.headD ⟨[], .selected 0⟩,
    ⟨script.answers.tail, script.asked + 1, some timeout⟩)

end Script

end Parley.Readiness
