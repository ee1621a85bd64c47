import Mathlib.Data.List.DropRight
import Mathlib.Data.List.Infix
import Parley.Readiness.Script

/-! When a readiness loop gives up.
Whatever a multiplexer answers, the loop counts the faults since the last answer that was none. It
gives up at the twentieth fault in a row, tells the failure handler of this one fault, and asks
nothing more. -/

namespace Parley.Readiness

def Verdict.isFault : Verdict → Bool
  | .failed (.malfunction _) => true
  | .panicked _ => true
  | _ => false

theorem Verdict.isFault_eq (verdict : Verdict) :
    verdict.isFault = match verdict.toExcept with
      | .error (.malfunction _) => true
      | _ => false := by
  cases verdict with
  | selected count => rfl
  | panicked text => rfl
  | failed error => cases error <;> rfl

/-- The faults since the last verdict that was none. -/
def recentFaults (verdicts : List Verdict) : Nat := (verdicts.rtakeWhile (·.isFault)).length

/-- Somewhere there are twenty faults in a row. -/
def Hopeless (verdicts : List Verdict) : Prop :=
  ∃ faults, faults <:+: verdicts ∧ faults.length = 20 ∧ ∀ verdict ∈ faults, verdict.isFault

theorem recentFaults_concat_of_fault {verdict : Verdict} (fault : verdict.isFault)
    (verdicts : List Verdict) :
    recentFaults (verdicts ++ [verdict]) = recentFaults verdicts + 1 := by
  unfold recentFaults
  rw [List.rtakeWhile_concat_pos _ _ _ fault, List.length_append, List.length_singleton]

theorem recentFaults_concat_of_not_fault {verdict : Verdict} (fine : verdict.isFault = false)
    (verdicts : List Verdict) : recentFaults (verdicts ++ [verdict]) = 0 := by
  unfold recentFaults
  rw [List.rtakeWhile_concat_neg _ _ _ (by simp [fine]), List.length_nil]

theorem not_hopeless_nil : ¬ Hopeless [] := by
  rintro ⟨faults, part, many, -⟩
  rw [List.infix_nil.1 part] at many
  cases many

/-- Only the faults at the end can make a longer list hopeless. -/
theorem hopeless_concat_iff {verdicts : List Verdict} {verdict : Verdict} :
    Hopeless (verdicts ++ [verdict]) ↔
      Hopeless verdicts ∨ 20 ≤ recentFaults (verdicts ++ [verdict]) := by
  constructor
  · rintro ⟨faults, part, many, all⟩
    obtain atEnd | before := List.infix_concat_iff.1 part
    · refine .inr ?_
      obtain ⟨front, whole⟩ := atEnd
      have all' : ∀ verdict ∈ faults.reverse, verdict.isFault := by simpa using all
      have longest : faults <:+ (verdicts ++ [verdict]).rtakeWhile (·.isFault) := by
        rw [← whole, List.rtakeWhile, List.reverse_append, List.takeWhile_append_of_pos all',
          List.reverse_append, List.reverse_reverse]
        exact List.suffix_append _ _
      exact many ▸ longest.length_le
    · exact .inl ⟨faults, before, many, all⟩
  · rintro (⟨faults, part, many, all⟩ | many)
    · exact ⟨faults, part.trans (List.prefix_append _ _).isInfix, many, all⟩
    · unfold recentFaults at many
      generalize taken : (verdicts ++ [verdict]).rtakeWhile (·.isFault) = faults at many
      have atEnd : faults <:+ verdicts ++ [verdict] := taken ▸ List.rtakeWhile_suffix _ _
      refine ⟨faults.take 20, ?_, List.length_take_of_le many, ?_⟩
      · exact (List.take_prefix _ _).isInfix.trans atEnd.isInfix
      · intro fault mem
        exact List.mem_rtakeWhile_imp (taken ▸ List.mem_of_mem_take mem)

namespace SelectLoop

variable {verdicts : List Verdict} {sel : SelectLoop μ}

/-- The loop knows what came of the verdicts that it has heard. -/
structure Tally (verdicts : List Verdict) (sel : SelectLoop μ) : Prop where
  failures : sel.failures = recentFaults verdicts
  errored : sel.errored = true ↔ Hopeless verdicts
  silent : sel.errored = false → sel.handled = []
  told : sel.errored = true → ∃ before last error, verdicts = before ++ [last] ∧
    ¬ Hopeless before ∧ last.toExcept = .error error ∧ sel.handled = [error]

theorem Tally.start (multiplexer : μ) (timeout : Nat) :
    ({ multiplexer, timeout } : SelectLoop μ).Tally [] :=
  ⟨rfl, by simp [not_hopeless_nil], fun _ => rfl, fun errored => nomatch errored⟩

theorem Tally.not_hopeless (tally : sel.Tally verdicts) (running : sel.errored = false) :
    ¬ Hopeless verdicts := by
  rw [← tally.errored, running]
  exact Bool.false_ne_true

theorem Tally.recover (tally : sel.Tally verdicts) (running : sel.errored = false)
    {verdict : Verdict} (fine : verdict.isFault = false) (multiplexer : μ) (ready : ReadySet) :
    { sel with multiplexer, ready, failures := 0 }.Tally (verdicts ++ [verdict]) := by
  have none : recentFaults (verdicts ++ [verdict]) = 0 :=
    recentFaults_concat_of_not_fault fine verdicts
  have hope : ¬ Hopeless (verdicts ++ [verdict]) := by
    rw [hopeless_concat_iff, none]
    exact fun either => either.elim (tally.not_hopeless running) (by decide)
  refine ⟨none.symm, ?_, fun _ => tally.silent running, fun errored => ?_⟩
  · simp [running, hope]
  · rw [running] at errored
    cases errored

/-- A fault is counted, and the twentieth in a row is one too many. -/
theorem Tally.fail (tally : sel.Tally verdicts) (running : sel.errored = false)
    {verdict : Verdict} (fault : verdict.isFault) {error : SelectError}
    (same : verdict.toExcept = .error error) (multiplexer : μ) (ready : ReadySet) :
    let after : SelectLoop μ := { sel with multiplexer, ready, failures := sel.failures + 1 }
    (after.failures < maxConsecutiveFailures → after.Tally (verdicts ++ [verdict])) ∧
    (maxConsecutiveFailures ≤ after.failures →
      { after with errored := true, handled := after.handled ++ [error] }.Tally
        (verdicts ++ [verdict])) := by
  intro after
  have hope := tally.not_hopeless running
  have count : after.failures = recentFaults (verdicts ++ [verdict]) := by
    rw [recentFaults_concat_of_fault fault, ← tally.failures]
  have limit : Hopeless (verdicts ++ [verdict]) ↔ maxConsecutiveFailures ≤ after.failures := by
    rw [hopeless_concat_iff, count]
    exact or_iff_right hope
  constructor
  · intro few
    refine ⟨count, ?_, fun _ => tally.silent running, fun errored => ?_⟩
    · rw [limit]
      simp [after, running, few]
    · have errored : sel.errored = true := errored
      rw [running] at errored
      cases errored
  · intro many
    refine ⟨count, iff_of_true rfl (limit.2 many), (fun running => nomatch running), fun _ => ?_⟩
    refine ⟨verdicts, verdict, error, rfl, hope, same, ?_⟩
    exact congrArg (· ++ [error]) (tally.silent running)

theorem poll_of_errored (select : μ → (timeout : Nat) → Selection × μ)
    (errored : sel.errored = true) : sel.poll select = (false, sel) := by
  rw [poll, if_pos errored]

theorem Tally.poll (tally : sel.Tally verdicts) (running : sel.errored = false)
    (select : μ → (timeout : Nat) → Selection × μ) :
    let (selection, multiplexer) := select sel.multiplexer sel.timeout
    (sel.poll select).2.Tally (verdicts ++ [selection.verdict]) ∧
      (sel.poll select).2.multiplexer = multiplexer ∧
      (sel.poll select).2.timeout = sel.timeout := by
  rcases answer : select sel.multiplexer sel.timeout with ⟨⟨ready, verdict⟩, multiplexer⟩
  unfold SelectLoop.poll
  rw [if_neg (by simp [running]), answer]
  dsimp only
  split
  · rename_i count same
    exact ⟨tally.recover running (by simp [verdict.isFault_eq, same]) _ _, rfl, rfl⟩
  · rename_i failure same
    exact ⟨tally.recover running (by simp [verdict.isFault_eq, same]) _ _, rfl, rfl⟩
  · rename_i error serious same
    have fault : verdict.isFault := by
      rw [verdict.isFault_eq, same]
      cases error with
      | io failure => exact (serious failure rfl).elim
      | malfunction reason => rfl
    obtain ⟨bear, stop⟩ := tally.fail running fault same multiplexer (sel.ready.insertAll ready)
    split
    · rename_i few
      exact ⟨bear few, rfl, rfl⟩
    · rename_i many
      exact ⟨stop (Nat.le_of_not_lt many), rfl, rfl⟩

section

variable (select : μ → (timeout : Nat) → Selection × μ)

/-- Polls again and again, each time taking so many of the ready sockets, or all of them. -/
def run (sel : SelectLoop μ) : (counts : List (Option Nat)) → List (List ReadyEvent) × SelectLoop μ
  | [] => ([], sel)
  | count :: rest =>
    let (events, sel) := sel.pollTaking select count
    let (more, sel) := sel.run rest
    (events :: more, sel)

def answers (multiplexer : μ) (timeout : Nat) : (count : Nat) → List Selection × μ
  | 0 => ([], multiplexer)
  | count + 1 =>
    let (given, multiplexer) := answers multiplexer timeout count
    let (selection, multiplexer) := select multiplexer timeout
    (given ++ [selection], multiplexer)

end

variable {select : μ → (timeout : Nat) → Selection × μ}

theorem pollTaking_eq (select : μ → (timeout : Nat) → Selection × μ) (sel : SelectLoop μ)
    (count : Option Nat) :
    ∃ ready, (sel.pollTaking select count).2 = { (sel.poll select).2 with ready } := by
  unfold pollTaking
  split
  · rename_i after polled
    exact ⟨after.ready, by rw [polled]⟩
  · rename_i after polled
    split
    · exact ⟨[], by rw [polled]⟩
    · rename_i n
      exact ⟨after.ready.drop n, by rw [polled]⟩

theorem run_of_errored (errored : sel.errored = true) (counts : List (Option Nat)) :
    sel.run select counts = (counts.map fun _ => [], sel) := by
  induction counts with
  | nil => rfl
  | cons count rest ih =>
    have still : sel.pollTaking select count = ([], sel) := by
      rw [pollTaking, poll_of_errored select errored]
    rw [run, still]
    dsimp only
    rw [ih]
    rfl

/-- The loop was given these answers by the multiplexer, one after the other. -/
structure Heard (select : μ → (timeout : Nat) → Selection × μ) (multiplexer : μ) (timeout : Nat)
    (given : List Selection) (sel : SelectLoop μ) : Prop where
  tally : sel.Tally (given.map (·.verdict))
  answered : answers select multiplexer timeout given.length = (given, sel.multiplexer)
  timeout : sel.timeout = timeout

variable {multiplexer : μ} {timeout : Nat} {given : List Selection}

theorem Heard.pollTaking (heard : sel.Heard select multiplexer timeout given)
    (running : sel.errored = false) (count : Option Nat) :
    ∃ selection, (sel.pollTaking select count).2.Heard select multiplexer timeout
      (given ++ [selection]) := by
  obtain ⟨ready, same⟩ := sel.pollTaking_eq select count
  have polled := heard.tally.poll running select
  rcases answer : select sel.multiplexer sel.timeout with ⟨selection, multiplexer'⟩
  rw [answer] at polled
  obtain ⟨tally, left, unchanged⟩ := polled
  refine ⟨selection, ?_⟩
  rw [same]
  refine ⟨?_, ?_, unchanged.trans heard.timeout⟩
  · rw [List.map_append, List.map_singleton]
    exact ⟨tally.failures, tally.errored, tally.silent, tally.told⟩
  · rw [List.length_append, List.length_singleton, answers, heard.answered]
    dsimp only
    rw [← heard.timeout, answer, left]

theorem Heard.run (heard : sel.Heard select multiplexer timeout given)
    (counts : List (Option Nat)) :
    ∃ more : List Selection, more.length ≤ counts.length ∧
      (sel.run select counts).2.Heard select multiplexer timeout (given ++ more) ∧
      ((sel.run select counts).2.errored = false → more.length = counts.length) := by
  induction counts generalizing sel given with
  | nil => exact ⟨[], Nat.le_refl _, by rwa [List.append_nil], fun _ => rfl⟩
  | cons count rest ih =>
    cases running : sel.errored with
    | true =>
      rw [run_of_errored running]
      refine ⟨[], Nat.zero_le _, by rwa [List.append_nil], fun still => ?_⟩
      rw [running] at still
      cases still
    | false =>
      obtain ⟨selection, heard'⟩ := heard.pollTaking running count
      obtain ⟨more, few, last, all⟩ := ih heard'
      refine ⟨selection :: more, Nat.succ_le_succ few, ?_, fun still => ?_⟩
      · rw [List.append_cons]
        exact last
      · exact congrArg (· + 1) (all still)

/-- A loop gives up just when there were twenty faults in a row. The failure handler is told of the
last one alone, and the multiplexer is not asked again. -/
theorem escalation_of_run (select : μ → (timeout : Nat) → Selection × μ) (multiplexer : μ)
    (timeout : Nat) (counts : List (Option Nat)) :
    let sel := (({ multiplexer, timeout } : SelectLoop μ).run select counts).2
    ∃ given : List Selection, given.length ≤ counts.length ∧
      answers select multiplexer timeout given.length = (given, sel.multiplexer) ∧
      sel.failures = recentFaults (given.map (·.verdict)) ∧
      (sel.errored = true ↔ Hopeless (given.map (·.verdict))) ∧
      (sel.errored = false → given.length = counts.length ∧ sel.handled = []) ∧
      (sel.errored = true →
        (∃ before last error, given.map (·.verdict) = before ++ [last] ∧ ¬ Hopeless before ∧
          last.toExcept = .error error ∧ sel.handled = [error]) ∧
        ∀ later, sel.run select later = (later.map fun _ => [], sel)) := by
  intro sel
  have start : ({ multiplexer, timeout } : SelectLoop μ).Heard select multiplexer timeout [] :=
    ⟨.start multiplexer timeout, rfl, rfl⟩
  obtain ⟨given, few, heard, all⟩ := start.run counts
  rw [List.nil_append] at heard
  have tally := heard.tally
  refine ⟨given, few, heard.answered, tally.failures, tally.errored, fun running => ?_,
    fun errored => ?_⟩
  · exact ⟨all running, tally.silent running⟩
  · exact ⟨tally.told errored, run_of_errored errored⟩

/-- The twentieth panic is the last time that the multiplexer is asked. -/
example :
    let script : Script := ⟨.replicate 22 ⟨[], .panicked none⟩, 0, none⟩
    let sel := (({ multiplexer := script, timeout := 1 } : SelectLoop Script).run Script.select
      (.replicate 25 none)).2
    sel.errored = true ∧ sel.failures = 20 ∧ sel.multiplexer.asked = 20 := by decide

end SelectLoop

end Parley.Readiness
