import Mathlib.Data.List.Basic

/-! Histories with a turning point.
Some events of a history end something, and what else can happen depends on whether it has ended
by then. -/

namespace Parley

variable {ends : ε → Bool} {fits : Bool → ε → Prop} {ended : Bool} {history more : List ε}

/-- Every event is one that can happen, if it had ended at first, or had not. -/
def Heeds (ends : ε → Bool) (fits : Bool → ε → Prop) : (ended : Bool) → List ε → Prop
  | _, [] => True
  | ended, event :: rest => fits ended event ∧ Heeds ends fits (ended || ends event) rest

theorem heeds_append : Heeds ends fits ended (history ++ more) ↔
    Heeds ends fits ended history ∧ Heeds ends fits (ended || history.any ends) more := by
  induction history generalizing ended with
  | nil => simp [Heeds]
  | cons event rest ih =>
    rw [List.cons_append, Heeds, Heeds, ih, List.any_cons, Bool.or_assoc, and_assoc]

theorem heeds_true_iff : Heeds ends fits true history ↔ ∀ event ∈ history, fits true event := by
  induction history with
  | nil => simp [Heeds]
  | cons event rest ih => rw [Heeds, Bool.true_or, ih, List.forall_mem_cons]

theorem Heeds.fits_of_eq_append {before after : List ε} {event : ε}
    (heeds : Heeds ends fits ended history) (whole : history = before ++ event :: after) :
    fits (ended || before.any ends) event := by
  rw [whole] at heeds
  exact (heeds_append.1 heeds).2.1

theorem Heeds.fits_of_ended {before after : List ε} {event : ε}
    (heeds : Heeds ends fits ended history) (whole : history = before ++ event :: after)
    (ending : ends event = true) : ∀ later ∈ after, fits true later := by
  rw [whole] at heeds
  have rest := (heeds_append.1 heeds).2.2
  rw [ending, Bool.or_true] at rest
  exact heeds_true_iff.1 rest

/-- Where a history that has grown is cut at an event, the event is one of the old or of the new. -/
theorem append_eq_append_cons {before after : List ε} {event : ε}
    (h : history ++ more = before ++ event :: after) :
    (∃ rest, history = before ++ event :: rest ∧ after = rest ++ more) ∨
      ∃ front, before = history ++ front ∧ more = front ++ event :: after := by
  obtain ⟨front, rfl, same⟩ | ⟨rest, rfl, same⟩ := List.append_eq_append_iff.1 h
  · exact .inr ⟨front, rfl, same⟩
  · cases rest with
    | nil => exact .inr ⟨[], by simp, same.symm⟩
    | cons first rest =>
      obtain ⟨rfl, rfl⟩ := List.cons.inj same
      exact .inl ⟨rest, rfl, rfl⟩

end Parley
