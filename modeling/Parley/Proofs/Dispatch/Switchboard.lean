import Parley.Proofs.Chat.Calls
import Parley.Proofs.Dispatch.Attempts
import Parley.Switchboard

/-! All that is made of one listener answers it once.
A `Lineage` follows the uses of a switchboard without a slot or a ledger: which listener each handle
stems from, and which answers were tried through them. From the lineage alone it is settled what a
use posts and what every handle says of its listener. -/

namespace Parley

open Dispatch (Attempt)

namespace Arguments

variable {args : Arguments} {position : Nat} {token : Token}

theorem listenerAt?_eq_some_iff :
    args.listenerAt? position = some token ↔ args[position]? = some (.listener token) := by
  rw [listenerAt?, Option.bind_eq_bind, Option.bind_eq_some_iff]
  constructor
  · rintro ⟨value, found, own⟩
    cases value with
    | listener t =>
      cases own
      exact found
    | _ => cases own
  · intro found
    exact ⟨.listener token, found, rfl⟩

theorem listener_eq_ok_iff : args.listener position = .ok token ↔
    args.listenerAt? position = some token :=
  listener_eq_ok.trans listenerAt?_eq_some_iff.symm

theorem listener_of_none (absent : args.listenerAt? position = none) :
    ∃ error, args.listener position = .error error := by
  cases read : args.listener position with
  | ok token => cases absent.symm.trans (listener_eq_ok_iff.1 read)
  | error error => exact ⟨error, rfl⟩

theorem lookup_map_listenersFrom (f : Nat → Token → α) (args : Arguments) (start position : Nat) :
    ((args.listenersFrom start).map fun (p, t) => (p, f p t)).lookup (start + position) =
      (args.listenerAt? position).map (f (start + position)) := by
  induction args generalizing start position with
  | nil => rfl
  | cons value rest ih =>
    -- what stands behind the first argument, seen from there
    have later (next : Nat) :
        ((listenersFrom (start + 1) rest).map fun (p, t) => (p, f p t)).lookup
            (start + (next + 1)) =
          (listenerAt? rest next).map (f (start + (next + 1))) := by
      have shifted : start + (next + 1) = start + 1 + next := by omega
      rw [shifted]
      exact ih (start + 1) next
    have here : listenerAt? (value :: rest) 0 = value.token? := rfl
    unfold listenersFrom
    split
    · rename_i token own
      rw [List.map_cons]
      cases position with
      | zero =>
        rw [here, own]
        exact List.lookup_cons_self
      | succ next =>
        have apart : (start + (next + 1) == start) = false := beq_false_of_ne (by omega)
        rw [List.lookup_cons, apart, listenerAt?_cons_succ]
        exact later next
    · rename_i own
      cases position with
      | zero =>
        rw [here, own]
        refine List.lookup_eq_none_iff.2 fun entry mem => ?_
        obtain ⟨⟨p, t⟩, among, rfl⟩ := List.mem_map.1 mem
        have beyond := (listenerAt?_of_mem among).1
        simp only [bne_iff_ne]
        omega
      | succ next => exact later next

theorem findIdx?_listener (args : Arguments) :
    args.findIdx? (fun value => value.token?.isSome) = args.firstListener?.map (·.1) := by
  have general (args : Arguments) (start : Nat) :
      (args.findIdx? fun value => value.token?.isSome).map (start + ·) =
        (args.listenersFrom start).head?.map (·.1) := by
    induction args generalizing start with
    | nil => rfl
    | cons value rest ih =>
      rw [List.findIdx?_cons, listenersFrom]
      cases value.token? with
      | none =>
        have next := ih (start + 1)
        simp only [Option.isSome_none, Bool.false_eq_true, if_false, Option.map_map]
        rw [← next]
        congr 1
        funext position
        simp only [Function.comp_apply]
        omega
      | some token => rfl
  have whole := general args 0
  rw [firstListener?, listeners]
  simpa using whole

end Arguments

namespace ProxiedArguments

variable {args : Arguments}

theorem listener_new (args : Arguments) (position : Nat) :
    (new args).listener position = (args.listener position).map (Proxy.mk position) := by
  have found := Arguments.lookup_map_listenersFrom (fun p t => Proxy.mk p t) args 0 position
  rw [Nat.zero_add] at found
  rw [listener, new]
  dsimp only [Arguments.listeners]
  rw [found]
  cases own : args.listenerAt? position with
  | some token =>
    rw [Arguments.listener_eq_ok_iff.2 own]
    rfl
  | none =>
    obtain ⟨error, read⟩ := Arguments.listener_of_none own
    rw [read]
    rfl

theorem firstListener?_new (args : Arguments) :
    (new args).firstListener? = args.firstListener?.map fun first => ⟨first.1, first.2⟩ := by
  rw [firstListener?, new, List.head?_map, Option.map_map]
  rfl

end ProxiedArguments

namespace Dispatch

variable {sink : Response → σ → σ} {args : Arguments} {x : Exchange σ}

/-- A handler answers through the proxies of its call. -/
theorem Program.run_respond_eq (position : Nat) (method : UInt8) (values : Arguments)
    (next : Bool → Program σ α) :
    (Program.respond position method values next).run sink args x =
      match (ProxiedArguments.new args).listener position with
      | .error _ => (next false).run sink args x
      | .ok proxy =>
        let answered := proxy.respond method values x.ledger
        (next answered.1).run sink args
          ⟨if answered.1 then sink ⟨proxy.token, method, values⟩ x.state else x.state,
            answered.2⟩ := by
  rw [ProxiedArguments.listener_new]
  cases found : args.listenerAt? position with
  | none =>
    obtain ⟨error, read⟩ := Arguments.listener_of_none found
    rw [read]
    exact run_respond_of_none found
  | some token =>
    rw [Arguments.listener_eq_ok_iff.2 found]
    exact run_respond_of_some found

/-- The failure of a call is told through the first proxy. -/
theorem Registry.report_eq (error : InvocationError) :
    Registry.report sink args error x =
      match (ProxiedArguments.new args).firstListener? with
      | none => x
      | some proxy =>
        let verdict := Verdict.requestFailed error.text
        let answered := proxy.respond verdict.method verdict.values x.ledger
        ⟨if answered.1 then sink (.failed proxy.token error.text) x.state else x.state,
          answered.2⟩ := by
  rw [ProxiedArguments.firstListener?_new, report]
  cases args.firstListener? with
  | none => rfl
  | some first =>
    dsimp only [Option.map_some, Proxy.respond, Verdict.method, Verdict.values, Response.failed]
    rcases x.ledger.respond first.1 ⟨first.2, requestFailed, [.str error.text]⟩ with
      ⟨_ | _, ledger⟩ <;> rfl

end Dispatch

namespace Switchboard

/-- What can be told of some uses without looking at a slot or the ledger. -/
structure Lineage where
  /-- For each handle the position of the listener that it stems from, and how it is held. -/
  stems : List (Nat × Grip) := []
  /-- The answers that were tried, whether they counted or not. -/
  attempts : List Attempt := []

namespace Lineage

def Tried (lineage : Lineage) (position : Nat) : Prop :=
  ∃ attempt ∈ lineage.attempts, attempt.position = position

instance (lineage : Lineage) (position : Nat) : Decidable (lineage.Tried position) :=
  inferInstanceAs (Decidable (∃ attempt ∈ lineage.attempts, attempt.position = position))

/-- The listener from which a handle stems. -/
def origin? (lineage : Lineage) (handle : Nat) : Option Nat := lineage.stems[handle]?.map (·.1)

def plain? (lineage : Lineage) (handle : Nat) : Option Nat :=
  match lineage.stems[handle]? with
  | some (position, .plain) => some position
  | _ => none

def stem? (args : Arguments) (lineage : Lineage) : Use → Option (Nat × Grip)
  | .listener position => (args.listenerAt? position).map fun _ => (position, .plain)
  | .firstListener => (args.findIdx? fun value => value.token?.isSome).map (·, .plain)
  | .clone handle => (lineage.plain? handle).map (·, .plain)
  | .typed handle _ => (lineage.plain? handle).map (·, .plain)
  | .tell handle => (lineage.plain? handle).map (·, .tell)
  | _ => none

def attempt? (lineage : Lineage) : Use → Option Attempt
  | .respond handle method values =>
    (lineage.plain? handle).map fun position => ⟨position, method, values⟩
  | .give handle verdict =>
    match lineage.stems[handle]? with
    | some (position, grip) =>
      if grip.gives verdict then some ⟨position, verdict.method, verdict.values⟩ else none
    | none => none
  | _ => none

def next (args : Arguments) (lineage : Lineage) (use : Use) : Lineage :=
  ⟨lineage.stems ++ (lineage.stem? args use).toList,
    lineage.attempts ++ (lineage.attempt? use).toList⟩

def of (args : Arguments) (uses : List Use) : Lineage := uses.foldl (next args) {}

end Lineage

namespace Lineage

variable {args : Arguments} {lineage : Lineage} {handle position : Nat}

theorem origin?_next (origin : lineage.origin? handle = some position) (use : Use) :
    (lineage.next args use).origin? handle = some position := by
  rw [origin?, Option.map_eq_some_iff] at origin ⊢
  obtain ⟨stem, found, same⟩ := origin
  exact ⟨stem, (List.getElem?_append_left (List.getElem?_eq_some_iff.1 found).1).trans found, same⟩

theorem tried_next (use : Use) :
    (lineage.next args use).Tried position ↔
      lineage.Tried position ∨
        ∃ attempt, lineage.attempt? use = some attempt ∧ attempt.position = position := by
  simp [Tried, next, or_and_right, exists_or]

end Lineage

variable {args : Arguments} {lineage : Lineage} {board : Switchboard}

/-- The board is as the lineage says. -/
structure Follows (args : Arguments) (lineage : Lineage) (board : Switchboard) : Prop where
  call : board.call = .new args
  stems : board.handles.map (fun held => (held.proxy.slot, held.grip)) = lineage.stems
  tokens : ∀ held ∈ board.handles, args.listenerAt? held.proxy.slot = some held.proxy.token
  answered : ∀ position, board.ledger.hasResponded position = true ↔ lineage.Tried position

theorem perform_token_make (board : Switchboard) (proxy : Proxy) :
    ((board.make { proxy }).2.perform (.token board.handles.length)).1 = .token proxy.token := by
  simp [make, perform, onPlain]

namespace Follows

theorem new (args : Arguments) : Follows args {} (.new args) where
  call := rfl
  stems := rfl
  tokens := by simp [Switchboard.new]
  answered := by simp [Switchboard.new, Ledger.hasResponded, Lineage.Tried]

theorem stem_eq (follows : Follows args lineage board) (handle : Nat) :
    lineage.stems[handle]? =
      board.handles[handle]?.map fun held => (held.proxy.slot, held.grip) := by
  rw [← follows.stems, List.getElem?_map]

theorem onPlain_cases (follows : Follows args lineage board) (handle : Nat) :
    (∃ held ∈ board.handles, held.grip = .plain ∧ lineage.plain? handle = some held.proxy.slot ∧
      ∀ act, board.onPlain handle act = act held) ∨
    (lineage.plain? handle = none ∧ ∀ act, board.onPlain handle act = (.impossible, board)) := by
  have stem := follows.stem_eq handle
  unfold onPlain Lineage.plain?
  rw [stem]
  cases found : board.handles[handle]? with
  | none => exact .inr ⟨rfl, fun _ => rfl⟩
  | some held =>
    cases grip : held.grip with
    | plain =>
      refine .inl ⟨held, List.mem_of_getElem? found, grip, ?_, fun act => ?_⟩
      · simp [grip]
      · simp [grip]
    | tell =>
      refine .inr ⟨?_, fun act => ?_⟩
      · simp [grip]
      · simp [grip]

theorem perform_listener_of_some {position : Nat} {token : Token}
    (follows : Follows args lineage board) (found : args.listenerAt? position = some token) :
    board.perform (.listener position) = board.make { proxy := ⟨position, token⟩ } := by
  rw [perform, follows.call, ProxiedArguments.listener_new, Arguments.listener_eq_ok_iff.2 found]
  rfl

theorem perform_listener_of_none {position : Nat} (follows : Follows args lineage board)
    (absent : args.listenerAt? position = none) :
    ∃ error, board.perform (.listener position) = (.refused error, board) := by
  obtain ⟨error, read⟩ := Arguments.listener_of_none absent
  refine ⟨error, ?_⟩
  rw [perform, follows.call, ProxiedArguments.listener_new, read]
  rfl

theorem taken_iff (follows : Follows args lineage board) (position : Nat) (token : Token) :
    (∃ handle next, board.perform (.listener position) = (.made handle, next) ∧
      (next.perform (.token handle)).1 = .token token) ↔
    args[position]? = some (.listener token) := by
  rw [← Arguments.listenerAt?_eq_some_iff]
  constructor
  · rintro ⟨handle, next, taken, told⟩
    cases found : args.listenerAt? position with
    | some other =>
      rw [follows.perform_listener_of_some found] at taken
      cases taken
      cases (perform_token_make board ⟨position, other⟩).symm.trans told
      rfl
    | none =>
      obtain ⟨error, refused⟩ := follows.perform_listener_of_none found
      cases refused.symm.trans taken
  · intro found
    exact ⟨_, _, follows.perform_listener_of_some found, perform_token_make board _⟩

theorem perform_firstListener (follows : Follows args lineage board) :
    board.perform .firstListener =
      match args.firstListener? with
      | some (position, token) => board.make { proxy := ⟨position, token⟩ }
      | none => (.absent, board) := by
  rw [perform, follows.call, ProxiedArguments.firstListener?_new]
  cases args.firstListener? <;> rfl

end Follows

/-- What a use does to a board, told by the lineage. -/
inductive Step (args : Arguments) (lineage : Lineage) (board : Switchboard) (use : Use) : Prop where
  /-- It makes a handle. -/
  | made (held : Handle) (stem : lineage.stem? args use = some (held.proxy.slot, held.grip))
      (quiet : lineage.attempt? use = none)
      (own : args.listenerAt? held.proxy.slot = some held.proxy.token)
      (eq : board.perform use = board.make held)
  /-- It tries to answer a listener. -/
  | tried (attempt : Attempt) (token : Token) (result : Bool → Result)
      (stemless : lineage.stem? args use = none) (tries : lineage.attempt? use = some attempt)
      (own : args.listenerAt? attempt.position = some token)
      (plain : ∀ handle method values, use = .respond handle method values → result = .flag)
      (eq : board.perform use =
        let answered := board.ledger.respond attempt.position (attempt.response token)
        (result answered.1, { board with ledger := answered.2 }))
  /-- It does neither. -/
  | idle (stemless : lineage.stem? args use = none) (quiet : lineage.attempt? use = none)
      (same : (board.perform use).2 = board)

theorem Follows.step (follows : Follows args lineage board) (use : Use) :
    Step args lineage board use := by
  cases use with
  | listener position =>
    cases found : args.listenerAt? position with
    | some token =>
      exact .made _ (by rw [Lineage.stem?, found]; rfl) rfl found
        (follows.perform_listener_of_some found)
    | none =>
      obtain ⟨error, refused⟩ := follows.perform_listener_of_none found
      exact .idle (by rw [Lineage.stem?, found]; rfl) rfl (by rw [refused])
  | firstListener =>
    have same := follows.perform_firstListener
    have stem : lineage.stem? args .firstListener =
        (args.firstListener?.map (·.1)).map (·, .plain) := by
      rw [Lineage.stem?, Arguments.findIdx?_listener]
    cases first : args.firstListener? with
    | none =>
      rw [first] at same stem
      exact .idle stem rfl (by rw [same])
    | some found =>
      rw [first] at same stem
      exact .made { proxy := ⟨found.1, found.2⟩ } stem rfl
        (Arguments.listenerAt?_of_firstListener? first) same
  | clone handle =>
    obtain ⟨held, mem, grip, plain, acts⟩ | ⟨plain, acts⟩ := follows.onPlain_cases handle
    · exact .made held (by rw [Lineage.stem?, plain, grip]; rfl) rfl (follows.tokens held mem)
        (acts _)
    · exact .idle (by rw [Lineage.stem?, plain]; rfl) rfl (by rw [perform, acts])
  | typed handle kind =>
    obtain ⟨held, mem, grip, plain, acts⟩ | ⟨plain, acts⟩ := follows.onPlain_cases handle
    · exact .made { held with kind } (by rw [Lineage.stem?, plain, grip]; rfl) rfl
        (follows.tokens held mem) (acts _)
    · exact .idle (by rw [Lineage.stem?, plain]; rfl) rfl (by rw [perform, acts])
  | tell handle =>
    obtain ⟨held, mem, grip, plain, acts⟩ | ⟨plain, acts⟩ := follows.onPlain_cases handle
    · exact .made { held with kind := Chat.tellListener, grip := .tell }
        (by rw [Lineage.stem?, plain]; rfl) rfl (follows.tokens held mem) (acts _)
    · exact .idle (by rw [Lineage.stem?, plain]; rfl) rfl (by rw [perform, acts])
  | token handle =>
    obtain ⟨held, mem, grip, plain, acts⟩ | ⟨plain, acts⟩ := follows.onPlain_cases handle
    · exact .idle rfl rfl (by rw [perform, acts])
    · exact .idle rfl rfl (by rw [perform, acts])
  | hasResponded handle =>
    obtain ⟨held, mem, grip, plain, acts⟩ | ⟨plain, acts⟩ := follows.onPlain_cases handle
    · exact .idle rfl rfl (by rw [perform, acts])
    · exact .idle rfl rfl (by rw [perform, acts])
  | respond handle method values =>
    obtain ⟨held, mem, grip, plain, acts⟩ | ⟨plain, acts⟩ := follows.onPlain_cases handle
    · exact .tried ⟨held.proxy.slot, method, values⟩ held.proxy.token .flag rfl
        (by rw [Lineage.attempt?, plain]; rfl) (follows.tokens held mem) (fun _ _ _ _ => rfl)
        (by rw [perform, acts]; rfl)
    · exact .idle rfl (by rw [Lineage.attempt?, plain]; rfl) (by rw [perform, acts])
  | give handle verdict =>
    have stem := follows.stem_eq handle
    cases found : board.handles[handle]? with
    | none =>
      rw [found] at stem
      exact .idle rfl (by rw [Lineage.attempt?, stem]; rfl) (by rw [perform, found])
    | some held =>
      rw [found] at stem
      cases gives : held.grip.gives verdict with
      | true =>
        exact .tried ⟨held.proxy.slot, verdict.method, verdict.values⟩ held.proxy.token
          (fun _ => .given) rfl (by simp [Lineage.attempt?, stem, gives])
          (follows.tokens held (List.mem_of_getElem? found)) (fun _ _ _ same => nomatch same)
          (by simp [perform, found, gives, answer, Proxy.respond, Attempt.response])
      | false =>
        exact .idle rfl (by simp [Lineage.attempt?, stem, gives])
          (by simp [perform, found, gives])

/-- One use: the board goes on as the lineage does. -/
theorem Follows.perform (follows : Follows args lineage board) (use : Use) :
    Follows args (lineage.next args use) (board.perform use).2 := by
  cases follows.step use with
  | made held stem quiet own eq =>
    rw [eq]
    refine ⟨follows.call, ?_, ?_, fun position => ?_⟩
    · simp [make, follows.stems, Lineage.next, stem]
    · intro other mem
      obtain mem | mem := List.mem_append.1 mem
      · exact follows.tokens other mem
      · rwa [List.mem_singleton.1 mem]
    · rw [Lineage.tried_next, quiet]
      simpa [make] using follows.answered position
  | tried attempt token result stemless tries own plain eq =>
    rw [eq]
    refine ⟨follows.call, ?_, follows.tokens, fun position => ?_⟩
    · simp [follows.stems, Lineage.next, stemless]
    · rw [Lineage.tried_next, tries]
      dsimp only
      rw [Ledger.hasResponded_respond, follows.answered]
      simp
  | idle stemless quiet same =>
    rw [same]
    refine ⟨follows.call, ?_, follows.tokens, fun position => ?_⟩
    · simp [follows.stems, Lineage.next, stemless]
    · rw [Lineage.tried_next, quiet]
      simpa using follows.answered position

theorem follows_after (args : Arguments) (uses : List Use) :
    Follows args (.of args uses) ((new args).after uses) := by
  have general (uses : List Use) {lineage : Lineage} {board : Switchboard}
      (follows : Follows args lineage board) :
      Follows args (uses.foldl (Lineage.next args) lineage) (board.after uses) := by
    induction uses generalizing lineage board with
    | nil => exact follows
    | cons use rest ih => exact ih (follows.perform use)
  exact general uses (.new args)

namespace Follows

theorem hasResponded_eq (follows : Follows args lineage board) (position : Nat) :
    board.ledger.hasResponded position = decide (lineage.Tried position) := by
  rw [Bool.eq_iff_iff, follows.answered, decide_eq_true_iff]

theorem responded?_eq (follows : Follows args lineage board) (handle : Nat) :
    board.responded? handle =
      (lineage.origin? handle).map fun position => decide (lineage.Tried position) := by
  rw [responded?, Lineage.origin?, follows.stem_eq, Option.map_map, Option.map_map]
  congr 1
  funext held
  exact follows.hasResponded_eq held.proxy.slot

theorem flag_hasResponded {handle position : Nat} (follows : Follows args lineage board)
    (plain : lineage.plain? handle = some position) :
    (board.perform (.hasResponded handle)).1 = .flag (decide (lineage.Tried position)) := by
  obtain ⟨held, mem, grip, plain', acts⟩ | ⟨plain', acts⟩ := follows.onPlain_cases handle
  · obtain rfl := Option.some.inj (plain.symm.trans plain')
    rw [Switchboard.perform, acts, follows.hasResponded_eq]
  · cases plain.symm.trans plain'

theorem perform_of_attempt {use : Use} {attempt : Attempt} (follows : Follows args lineage board)
    (tries : lineage.attempt? use = some attempt) :
    ∃ token, ∃ result : Bool → Result, args.listenerAt? attempt.position = some token ∧
      (∀ handle method values, use = .respond handle method values → result = .flag) ∧
      (board.perform use).1 = result (!decide (lineage.Tried attempt.position)) ∧
      (board.perform use).2.ledger.posted = board.ledger.posted ++
        if lineage.Tried attempt.position then [] else [attempt.response token] := by
  cases follows.step use with
  | made held stem quiet own eq => cases tries.symm.trans quiet
  | idle stemless quiet same => cases tries.symm.trans quiet
  | tried other token result stemless tries' own plain eq =>
    obtain rfl := Option.some.inj (tries.symm.trans tries')
    refine ⟨token, result, own, plain, ?_⟩
    rw [eq]
    dsimp only
    by_cases before : lineage.Tried attempt.position
    · rw [Ledger.respond_of_answered ((follows.answered _).2 before)]
      simp [before]
    · rw [Ledger.respond_of_unanswered
        (Bool.eq_false_iff.2 (mt (follows.answered attempt.position).1 before))]
      simp [before]

theorem posted_of_quiet {use : Use} (follows : Follows args lineage board)
    (quiet : lineage.attempt? use = none) :
    (board.perform use).2.ledger.posted = board.ledger.posted := by
  cases follows.step use with
  | made held stem quiet own eq => rw [eq, make]
  | tried attempt token result stemless tries own plain eq => cases tries.symm.trans quiet
  | idle stemless quiet same => rw [same]

theorem responded?_perform {handle position : Nat} (follows : Follows args lineage board)
    (origin : lineage.origin? handle = some position) (use : Use) :
    (board.perform use).2.responded? handle = some (decide (lineage.Tried position ∨
      ∃ attempt, lineage.attempt? use = some attempt ∧ attempt.position = position)) := by
  rw [(follows.perform use).responded?_eq, Lineage.origin?_next origin]
  simp only [Option.map_some, Lineage.tried_next]

/-- Once answered, a listener stays answered. -/
theorem responded?_after {handle : Nat} (follows : Follows args lineage board)
    (answered : board.responded? handle = some true) (uses : List Use) :
    (board.after uses).responded? handle = some true := by
  induction uses generalizing lineage board with
  | nil => exact answered
  | cons use rest ih =>
    refine ih (follows.perform use) ?_
    rw [follows.responded?_eq, Option.map_eq_some_iff] at answered
    obtain ⟨position, origin, tried⟩ := answered
    rw [follows.responded?_perform origin use, Option.some_inj, decide_eq_true_iff]
    exact .inl (of_decide_eq_true tried)

end Follows

theorem after_append (board : Switchboard) (uses more : List Use) :
    board.after (uses ++ more) = (board.after uses).after more := List.foldl_append

/-- Of the answers that are tried through all that stems from one listener the first is posted and
no other, and all that stems from it tells alike whether it has been answered. -/
theorem answers_shared (args : Arguments) (uses : List Use) :
    let board := (new args).after uses
    let lineage := Lineage.of args uses
    -- where proxies are to be had
    (∀ (position : Nat) (token : Token),
      (∃ handle next, board.perform (.listener position) = (.made handle, next) ∧
        (next.perform (.token handle)).1 = .token token) ↔
      args[position]? = some (.listener token)) ∧
    (∀ (position : Nat) (token : Token), args[position]? = some (.listener token) →
      (∀ other < position, ∀ t : Token, args[other]? ≠ some (.listener t)) →
      board.perform .firstListener = board.perform (.listener position)) ∧
    ((∀ (position : Nat) (token : Token), args[position]? ≠ some (.listener token)) →
      board.perform .firstListener = (.absent, board)) ∧
    -- which answers count
    (∀ use attempt, lineage.attempt? use = some attempt →
      ∃ token, args[attempt.position]? = some (.listener token) ∧
        (board.perform use).2.ledger.posted = board.ledger.posted ++
          if lineage.Tried attempt.position then [] else [attempt.response token]) ∧
    (∀ use, lineage.attempt? use = none →
      (board.perform use).2.ledger.posted = board.ledger.posted) ∧
    (∀ handle position method values, lineage.plain? handle = some position →
      (board.perform (.respond handle method values)).1 =
        .flag (!decide (lineage.Tried position))) ∧
    -- what the handles say
    (∀ handle position, lineage.plain? handle = some position →
      (board.perform (.hasResponded handle)).1 = .flag (decide (lineage.Tried position))) ∧
    (∀ handle, board.responded? handle =
      (lineage.origin? handle).map fun position => decide (lineage.Tried position)) ∧
    (∀ handle more, board.responded? handle = some true →
      ((new args).after (uses ++ more)).responded? handle = some true) ∧
    (∀ use attempt handle position, lineage.attempt? use = some attempt →
      lineage.origin? handle = some position → position ≠ attempt.position →
      (board.perform use).2.responded? handle = board.responded? handle) := by
  intro board lineage
  have follows : Follows args lineage board := follows_after args uses
  refine ⟨follows.taken_iff, fun position token here lowest => ?_, fun none => ?_,
    fun use attempt tries => ?_, fun use => follows.posted_of_quiet,
    fun handle position method values plain => ?_,
    fun handle position plain => follows.flag_hasResponded plain, follows.responded?_eq,
    fun handle more answered => ?_, fun use attempt handle position tries origin apart => ?_⟩
  · have first : args.firstListener? = some (position, token) :=
      Arguments.firstListener?_eq_some_iff.2 ⟨Arguments.listenerAt?_eq_some_iff.2 here,
        fun other less => Option.eq_none_iff_forall_ne_some.2 fun t found =>
          lowest other less t (Arguments.listenerAt?_eq_some_iff.1 found)⟩
    rw [follows.perform_firstListener, first,
      follows.perform_listener_of_some (Arguments.listenerAt?_eq_some_iff.2 here)]
  · cases first : args.firstListener? with
    | none => rw [follows.perform_firstListener, first]
    | some found =>
      have there := Arguments.listenerAt?_of_firstListener? first
      exact absurd (Arguments.listenerAt?_eq_some_iff.1 there) (none _ _)
  · obtain ⟨token, result, own, -, -, posted⟩ := follows.perform_of_attempt tries
    exact ⟨token, Arguments.listenerAt?_eq_some_iff.1 own, posted⟩
  · have tries : lineage.attempt? (.respond handle method values) =
        some ⟨position, method, values⟩ := by
      rw [Lineage.attempt?, plain]
      rfl
    obtain ⟨token, result, -, flag, told, -⟩ := follows.perform_of_attempt tries
    rw [told, flag handle method values rfl]
  · rw [after_append]
    exact follows.responded?_after answered more
  · rw [follows.responded?_perform origin, follows.responded?_eq, origin, tries]
    simp [Ne.symm apart]

/-- One token at two positions: each position answers once, through whatever stems from it. -/
example :
    ((new [.listener ⟨1000, 1⟩, .listener ⟨1000, 1⟩]).after
      [.listener 0, .tell 0, .give 1 .tellSucceeded, .respond 0 7 [], .listener 1, .clone 2,
        .give 3 .requestProcessed, .give 2 (.requestFailed "late")]).ledger.posted =
      [⟨⟨1000, 1⟩, Chat.tellSucceeded, []⟩, .processed ⟨1000, 1⟩] := by
  decide

end Switchboard

end Parley
