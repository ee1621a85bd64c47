import Parley.Proofs.Chat.Conversation
import Parley.Proofs.Chat.LongLines
import Parley.Proofs.Server.Sessions

/-! What becomes of a call to the chat service.
Who is told, what is in the buffers behind it, and what the caller hears, for every state of the
connections and every length of a text. A line is told to somebody or to nobody, and said to
everybody or to nobody; an away text is noted whether its client hears of it or not. -/

namespace Parley.Chat

open Dispatch Server
open Wire (conveyed conveyed_of_framable)

/-- A call has ended in this way with this answer and no other, and of all that its server keeps
the outboxes may have changed before the answer was passed on. -/
structure Answered (sink : Response → Lobby α → Lobby α) (lobby : Lobby α)
    (after : Outcome Unit × Registry τ (Lobby α) × Exchange (Lobby α)) (outcome : Outcome Unit)
    (answer : Response) (outboxes : Outboxes) : Prop where
  ended : after.1 = outcome
  posted : after.2.2.ledger.posted = [answer]
  state : after.2.2.state = sink answer { lobby with outboxes }

section

variable {α τ : Type} {sink : Response → Lobby α → Lobby α} {lobby : Lobby α}
  {registry : Registry τ (Lobby α)} {args : Arguments} {position : Nat} {token : Token}

theorem answered_of_failed (first : args.firstListener? = some (position, token))
    (error : InvocationError) :
    Answered sink lobby
      (.failed error, registry, Registry.report sink args error { state := lobby })
      (.failed error) (.failed token error.text) lobby.outboxes := by
  rw [Registry.report_eq_answer first rfl]
  exact ⟨rfl, rfl, rfl⟩

theorem answered_of_returned (position : Nat) (answer : Response) (outboxes : Outboxes) :
    Answered sink lobby
      (.returned (), registry, Exchange.answer sink ⟨{ lobby with outboxes }, {}⟩ position answer)
      (.returned ()) answer outboxes :=
  ⟨rfl, rfl, rfl⟩

end

/-! Telling a line to somebody. -/

/-- Nobody is told anything, and the speaker hears why. -/
structure Untold (token : Token) (error : InvocationError) (before : Outboxes)
    (outcome : Outcome Unit) (answer : Response) (after : Outboxes) : Prop where
  failed : outcome = .failed error
  reported : answer = .failed token error.text
  unchanged : after = before

/-- A line is behind all that its addressee was sent before and nobody else has been sent anything;
from a frame that is not too long for its header nothing but the line is read. The speaker hears
whether the addressee is away, and for how long. -/
structure Heard (line : Message) (token : Token) (clock : Nat) (addressee : Session) (limit : Nat)
    (before : Outboxes) (outcome : Outcome Unit) (answer : Response) (after : Outboxes) : Prop where
  returned : outcome = .returned ()
  handed : before.Handed addressee.connection line after
  legible : limit < 2 ^ 32 → conveyed limit line = [line]
  present : addressee.away = none → answer = ⟨token, tellSucceeded, []⟩
  idle : ∀ away, addressee.away = some away → ∃ idle : Int64,
    answer = ⟨token, tellSucceededIdle, [.long idle]⟩ ∧
      (clock - away.since < 2 ^ 63 → idle.toInt = (clock - away.since : Nat))

/-- What becomes of a line that is told to somebody, in each of the cases that there are. -/
structure Fate (lobby : Lobby α) (speaker target text : String) (token : Token)
    (outcome : Outcome Unit) (answer : Response) (after : Outboxes) : Prop where
  offline : (∀ session ∈ lobby.sessions.sessions, session.username ≠ target) →
    Untold token (.failed userNotOnline) lobby.outboxes outcome answer after
  gone : ∀ session ∈ lobby.sessions.sessions, session.username = target →
    lobby.outboxes.Refuses session.connection →
      Untold token Wire.ProtocolError.closed.toInvocationError lobby.outboxes outcome answer after
  tooLong : ∀ session ∈ lobby.sessions.sessions, session.username = target →
    ∀ box, lobby.outboxes.find? session.connection = some box → box.closed = false →
      box.limit < 56 + (Wire.Utf8.encode speaker).length + (Wire.Utf8.encode text).length →
        Untold token (.failed messageTooLong) lobby.outboxes outcome answer after
  told : ∀ session ∈ lobby.sessions.sessions, session.username = target →
    ∀ box, lobby.outboxes.find? session.connection = some box → box.closed = false →
      56 + (Wire.Utf8.encode speaker).length + (Wire.Utf8.encode text).length ≤ box.limit →
        Heard (line session.oid speaker text) token lobby.clock session box.limit lobby.outboxes
          outcome answer after

section

variable {α τ : Type} {lobby : Lobby α} {session : Session} {speaker target text : String}
  {registry : Registry τ (Lobby α)} {chain : Chain τ (Lobby α)} {chat : Oid}

theorem heard_of_handed {box : Outbox} {after : Outboxes} (token : Token) (clock : Nat)
    (fits : (line session.oid speaker text).encode.length ≤ box.limit)
    (handed : lobby.outboxes.Handed session.connection (line session.oid speaker text) after) :
    Heard (line session.oid speaker text) token clock session box.limit lobby.outboxes
      (.returned ()) (delivered token clock session.away) after := by
  refine ⟨rfl, handed, fun small => ?_, fun present => ?_, fun away absent => ?_⟩
  · exact conveyed_of_framable (Nat.lt_of_le_of_lt fits small) fits
  · rw [present, delivered]
  · refine ⟨_, by rw [absent, delivered], fun short => ?_⟩
    exact Int64.toInt_ofNat_of_lt short

/-- There is one client of a name at most, so its connection decides. -/
theorem Fate.of_addressee {token : Token} {outcome : Outcome Unit} {answer : Response}
    {after : Outboxes} (mem : session ∈ lobby.sessions.sessions) (name : session.username = target)
    (only : ∀ other ∈ lobby.sessions.sessions, other.username = target → other = session)
    (gone : lobby.outboxes.Refuses session.connection →
      Untold token Wire.ProtocolError.closed.toInvocationError lobby.outboxes outcome answer after)
    (opened : ∀ box, lobby.outboxes.find? session.connection = some box → box.closed = false →
      if box.limit < (line session.oid speaker text).encode.length then
        Untold token (.failed messageTooLong) lobby.outboxes outcome answer after
      else
        Heard (line session.oid speaker text) token lobby.clock session box.limit lobby.outboxes
          outcome answer after) :
    Fate lobby speaker target text token outcome answer after where
  offline nobody := (nobody session mem name).elim
  gone other mem name := by
    obtain rfl := only other mem name
    exact gone
  tooLong other mem name box there shut long := by
    obtain rfl := only other mem name
    rw [← length_line other.oid] at long
    simpa only [long, if_true] using opened box there shut
  told other mem name box there shut fits := by
    obtain rfl := only other mem name
    rw [← length_line other.oid] at fits
    simpa only [Nat.not_lt.2 fits, if_false] using opened box there shut

/-- One of five things becomes of a line that is told to somebody, and its speaker is given one
answer. A line that is not delivered leaves no trace in any buffer. -/
theorem fate_of_tell [Inhabited τ] (here : registry.find? chat = some chain)
    (primary : chain.primary = relay.table) (reachable : lobby.sessions.Reachable)
    (whole : lobby.poisoned = false) (sink : Response → Lobby α → Lobby α) (caller : Caller)
    (target text : String) (token : Token) :
    let after := registry.dispatch sink caller
      ⟨chat, tell, [.str target, .str text, .listener token]⟩ lobby
    ∃ outcome answer outboxes, Answered sink lobby after outcome answer outboxes ∧
      answer.token = token ∧
      Fate lobby caller.username target text token outcome answer outboxes := by
  intro after
  have consistent := reachable.consistent
  have known : registry.taker? chat tell = some _ := taker?_of_primary here primary rfl
  have handled : ∃ registry', after = _ :=
    Registry.dispatch_of_onShared known (rfl : _ = (relayTell caller target text 2).onShared)
  have heard : Arguments.listenerAt? [.str target, .str text, .listener token] 2 = some token := rfl
  have first : Arguments.firstListener? [.str target, .str text, .listener token] =
    some (2, token) := rfl
  obtain ⟨registry', ended⟩ := handled
  rw [run_relayTell caller target text heard rfl, Lobby.table?_of_whole whole] at ended
  dsimp only at ended
  cases found : lobby.sessions.findByUsername? target with
  | none =>
    rw [found] at ended
    have nobody (other : Session) (mem : other ∈ lobby.sessions.sessions) :
        other.username ≠ target := fun name => by
      cases found.symm.trans (consistent.findByUsername?_eq_some.2 ⟨mem, name⟩)
    refine ⟨_, _, _, ended ▸ answered_of_failed first _, rfl, fun _ => ⟨rfl, rfl, rfl⟩, ?_, ?_, ?_⟩
    · exact fun other mem name => (nobody other mem name).elim
    · exact fun other mem name => (nobody other mem name).elim
    · exact fun other mem name => (nobody other mem name).elim
  | some session =>
    rw [found] at ended
    dsimp only at ended
    obtain ⟨mem, name⟩ := consistent.findByUsername?_eq_some.1 found
    -- nobody else goes by the name, so the rest is up to the connection of this session
    have only (other : Session) (mem : other ∈ lobby.sessions.sessions)
        (name : other.username = target) : other = session :=
      Option.some.inj
        ((consistent.findByUsername?_eq_some.2 ⟨mem, name⟩).symm.trans found)
    obtain ⟨refuses, posted⟩ | ⟨box, there, opened, verdict⟩ :=
      lobby.post_verdict session.connection (line session.oid caller.username text)
    · rw [posted] at ended
      refine ⟨_, _, _, ended ▸ answered_of_failed first _, rfl, .of_addressee mem name only
        (fun _ => ⟨rfl, rfl, rfl⟩) fun box there opened => ?_⟩
      exact (Outboxes.not_refuses there opened refuses).elim
    · have takes : ¬ lobby.outboxes.Refuses session.connection := Outboxes.not_refuses there opened
      have same (other : Outbox) (there' : lobby.outboxes.find? session.connection = some other) :
          other = box := Option.some.inj (there'.symm.trans there)
      obtain ⟨long, posted⟩ | ⟨fits, outboxes, posted, handed⟩ := verdict
      · rw [posted] at ended
        refine ⟨_, _, _, ended ▸ answered_of_failed first _, rfl, .of_addressee mem name only
          (fun refuses => (takes refuses).elim) fun other there' _ => ?_⟩
        rw [same other there', if_pos long]
        exact ⟨rfl, rfl, rfl⟩
      · rw [posted] at ended
        refine ⟨_, _, _, ended ▸ answered_of_returned 2 _ outboxes, ?_, .of_addressee mem name only
          (fun refuses => (takes refuses).elim) fun other there' _ => ?_⟩
        · cases session.away <;> rfl
        · rw [same other there', if_neg (Nat.not_lt.2 fits)]
          exact heard_of_handed token _ fits handed

end

/-- Bob is away, and Carol's connection is gone. -/
def pub : Lobby Unit where
  sessions := (({ limit := 4 } : SessionTable).run
    [.add "alice" 2, .add "bob" 3, .add "carol" 4, .setAway 1001 "lunch" 5]).2
  outboxes := { boxes := [
    { id := 2, address := "", limit := 63 },
    { id := 3, address := "", limit := 63 },
    { id := 4, address := "", limit := 63, closed := true }] }
  clock := 12
  app := ()

theorem reachable_pub : pub.sessions.Reachable := ⟨4, _, by decide, rfl⟩

/-- A line of two bytes is as long as Bob's connection allows, and one of three is too long. -/
theorem fate_of_tell_pub :
    let told (text : String) := (registry : Registry Unit (Lobby Unit)).dispatch Lobby.route
      ⟨1000, "alice"⟩ ⟨1, tell, [.str "bob", .str text, .listener ⟨1000, 7⟩]⟩ pub
    (registry : Registry Unit (Lobby Unit)).find? 1 = some ⟨relay.table, []⟩ ∧
      pub.sessions.Reachable ∧ pub.poisoned = false ∧
      (∃ idle : Int64, idle.toInt = 7 ∧
        (told "é").2.2.ledger.posted = [⟨⟨1000, 7⟩, tellSucceededIdle, [.long idle]⟩]) ∧
      (told "né").2.2.ledger.posted = [.failed ⟨1000, 7⟩ messageTooLong] := by
  intro told
  have here : (registry : Registry Unit (Lobby Unit)).find? 1 = some ⟨relay.table, []⟩ := rfl
  have bob : ⟨1001, "bob", 3, some ⟨"lunch", 5⟩⟩ ∈ pub.sessions.sessions := by decide
  have place : pub.outboxes.find? 3 = some { id := 3, address := "", limit := 63 } := by decide
  refine ⟨here, reachable_pub, rfl, ?_, ?_⟩
  · obtain ⟨outcome, answer, outboxes, answered, -, fate⟩ := fate_of_tell here rfl reachable_pub rfl
      Lobby.route ⟨1000, "alice"⟩ "bob" "é" ⟨1000, 7⟩
    obtain ⟨idle, said, counted⟩ := (fate.told _ bob rfl _ place rfl (by decide)).idle _ rfl
    exact ⟨idle, counted (by decide), said ▸ answered.posted⟩
  · obtain ⟨outcome, answer, outboxes, answered, -, fate⟩ := fate_of_tell here rfl reachable_pub rfl
      Lobby.route ⟨1000, "alice"⟩ "bob" "né" ⟨1000, 7⟩
    have untold := fate.tooLong _ bob rfl _ place rfl (by decide)
    exact untold.reported ▸ answered.posted

/-! Saying a line to everybody. -/

def lines (speaker text : String) (sessions : List Session) : List (ConnectionId × Message) :=
  sessions.map fun session => (session.connection, line session.oid speaker text)

/-- Behind all that they were sent before, those that take anything have each been sent the line
under their own oid, so that it is read as it was written; nobody else has been sent anything. -/
structure Spread (before : Outboxes) (sessions : List Session) (speaker text : String)
    (after : ConnectionId → Option Outbox) : Prop where
  reached : ∀ session ∈ sessions, ∀ box, before.find? session.connection = some box →
    box.closed = false →
      after session.connection =
          some { box with buffer := box.buffer ++ (line session.oid speaker text).toFrame } ∧
        (box.limit < 2 ^ 32 →
          conveyed box.limit (line session.oid speaker text) = [line session.oid speaker text])
  gone : ∀ id, before.Refuses id → after id = before.find? id
  others : ∀ id, (∀ session ∈ sessions, session.connection ≠ id) → after id = before.find? id

section

variable {α τ : Type} {lobby : Lobby α} {before : Outboxes} {sessions : List Session}
  {session : Session} {speaker text : String} {id : ConnectionId}
  {registry : Registry τ (Lobby α)} {chain : Chain τ (Lobby α)} {chat : Oid}

theorem Spread.unique {after after' : ConnectionId → Option Outbox}
    (spread : Spread before sessions speaker text after)
    (spread' : Spread before sessions speaker text after') : after = after' := by
  funext id
  by_cases refuses : before.Refuses id
  · rw [spread.gone id refuses, spread'.gone id refuses]
  · by_cases listed : ∃ session ∈ sessions, session.connection = id
    · obtain ⟨session, mem, rfl⟩ := listed
      simp only [Outboxes.refuses_iff, Classical.not_forall, Bool.not_eq_true] at refuses
      obtain ⟨box, known, opened⟩ := refuses
      rw [(spread.reached session mem box known opened).1,
        (spread'.reached session mem box known opened).1]
    · have absent (session : Session) (mem : session ∈ sessions) : session.connection ≠ id :=
        fun own => listed ⟨session, mem, own⟩
      rw [spread.others id absent, spread'.others id absent]

theorem Spread.perm {visited : List Session} {after : ConnectionId → Option Outbox}
    (spread : Spread before visited speaker text after) (perm : visited.Perm sessions) :
    Spread before sessions speaker text after :=
  ⟨fun session mem => spread.reached session (perm.mem_iff.2 mem), spread.gone,
    fun id absent => spread.others id fun session mem => absent session (perm.mem_iff.1 mem)⟩

theorem mail_lines_of_absent (absent : ∀ session ∈ sessions, session.connection ≠ id) :
    Outboxes.mail id (lines speaker text sessions) = [] := by
  refine List.eq_nil_iff_forall_not_mem.2 fun message mem => ?_
  obtain ⟨session, listed, same⟩ := List.mem_map.1 (Outboxes.mem_mail.1 mem)
  exact absent session listed (congrArg Prod.fst same)

theorem mail_lines_of_mem (apart : (sessions.map (·.connection)).Nodup) (mem : session ∈ sessions) :
    Outboxes.mail session.connection (lines speaker text sessions) =
      [line session.oid speaker text] := by
  induction sessions with
  | nil => cases mem
  | cons first rest ih =>
    obtain ⟨fresh, apart⟩ := List.nodup_cons.1 apart
    rw [lines, List.map_cons, ← lines]
    obtain rfl | mem := List.mem_cons.1 mem
    · rw [Outboxes.mail_cons_self, mail_lines_of_absent fun other listed same => ?_]
      exact fresh (List.mem_map.2 ⟨other, listed, same⟩)
    · rw [Outboxes.mail_cons_of_ne fun same => ?_]
      · exact ih apart mem
      · exact fresh (List.mem_map.2 ⟨session, mem, same.symm⟩)

theorem announce_of_fits (fits : ∀ session ∈ sessions, ∀ box,
      lobby.outboxes.find? session.connection = some box → box.closed = false →
        (line session.oid speaker text).encode.length ≤ box.limit) :
    announce speaker text lobby sessions =
      (none, { lobby with outboxes := lobby.outboxes.offerAll (lines speaker text sessions) }) := by
  induction sessions generalizing lobby with
  | nil => rfl
  | cons session rest ih =>
    have later (other : Session) (mem : other ∈ rest) := fits other (List.mem_cons_of_mem _ mem)
    have first : lobby.outboxes.offerAll (lines speaker text (session :: rest)) =
      (lobby.post session.connection (line session.oid speaker text)).2.outboxes.offerAll
        (lines speaker text rest) := rfl
    rw [announce, first]
    obtain ⟨-, posted⟩ | ⟨box, known, opened, ⟨long, -⟩ | ⟨-, outboxes, posted, handed⟩⟩ :=
      lobby.post_verdict session.connection (line session.oid speaker text)
    · rw [posted]
      exact ih later
    · exact (Nat.not_lt.2 (fits session List.mem_cons_self box known opened) long).elim
    · -- a box that has been posted to has the limit that it had
      rw [posted]
      refine ih fun other mem box' known' opened' => ?_
      by_cases here : other.connection = session.connection
      · obtain ⟨old, found, now⟩ := handed.here
        rw [here] at known'
        obtain rfl := Option.some.inj (now.symm.trans known')
        exact later other mem old (here ▸ found) opened'
      · exact later other mem box' ((handed.elsewhere _ here).symm.trans known') opened'

theorem spread_offerAll (apart : (sessions.map (·.connection)).Nodup)
    (fits : ∀ session ∈ sessions, ∀ box, before.find? session.connection = some box →
      box.closed = false → (line session.oid speaker text).encode.length ≤ box.limit) :
    Spread before sessions speaker text (before.offerAll (lines speaker text sessions)).find? := by
  have room : ∀ post ∈ lines speaker text sessions, ∀ box, before.find? post.1 = some box →
      box.closed = false → post.2.encode.length ≤ box.limit := by
    intro post mem
    obtain ⟨session, listed, rfl⟩ := List.mem_map.1 mem
    exact fits session listed
  refine ⟨fun session mem box known opened => ⟨?_, fun small => ?_⟩, fun id refuses => ?_,
    fun id absent => ?_⟩
  · rw [Outboxes.find?_offerAll room, mail_lines_of_mem apart mem, known]
    simp [opened]
  · have short := fits session mem box known opened
    exact conveyed_of_framable (Nat.lt_of_le_of_lt short small) short
  · rw [Outboxes.find?_offerAll room]
    cases known : before.find? id with
    | none => rfl
    | some box => simp [Outboxes.refuses_iff.1 refuses box known]
  · rw [Outboxes.find?_offerAll room, mail_lines_of_absent absent]
    cases before.find? id <;> simp

variable (lobby) in
theorem answered_of_announce [Inhabited τ] (here : registry.find? chat = some chain)
    (primary : chain.primary = relay.table) (whole : lobby.poisoned = false)
    (sink : Response → Lobby α → Lobby α) (caller : Caller) (text : String) (token : Token) :
    let after := registry.dispatch sink caller ⟨chat, broadcast, [.str text, .listener token]⟩ lobby
    (∀ outboxes, announce caller.username text lobby lobby.sessions.sessions =
        (none, { lobby with outboxes }) →
      Answered sink lobby after (.returned ()) (.processed token) outboxes) ∧
    ∀ error, announce caller.username text lobby lobby.sessions.sessions = (some error, lobby) →
      Answered sink lobby after (.failed error) (.failed token error.text) lobby.outboxes := by
  intro after
  have known : registry.taker? chat broadcast = some _ := taker?_of_primary here primary rfl
  have handled : ∃ registry', after = _ :=
    Registry.dispatch_of_onShared known (rfl : _ = (relayBroadcast caller text 1).onShared)
  have heard : Arguments.listenerAt? [.str text, .listener token] 1 = some token := rfl
  have first : Arguments.firstListener? [.str text, .listener token] = some (1, token) := rfl
  obtain ⟨registry', ended⟩ := handled
  rw [run_relayBroadcast caller text heard rfl, Lobby.table?_of_whole whole] at ended
  dsimp only at ended
  refine ⟨fun outboxes announced => ?_, fun error announced => ?_⟩
  · rw [announced] at ended
    exact ended ▸ answered_of_returned 1 _ outboxes
  · rw [announced] at ended
    exact ended ▸ answered_of_failed first error

/-- A line is said to everybody who is there or to nobody, in whatever order the sessions are
visited. -/
theorem spread_of_broadcast [Inhabited τ] (here : registry.find? chat = some chain)
    (primary : chain.primary = relay.table) (reachable : lobby.sessions.Reachable)
    (whole : lobby.poisoned = false) {limit : Nat}
    (shared : ∀ session ∈ lobby.sessions.sessions, ∀ box,
      lobby.outboxes.find? session.connection = some box → box.limit = limit)
    (sink : Response → Lobby α → Lobby α) (caller : Caller) (text : String) (token : Token) :
    let request : Request := ⟨chat, broadcast, [.str text, .listener token]⟩
    let refused := limit <
        56 + (Wire.Utf8.encode caller.username).length + (Wire.Utf8.encode text).length ∧
      ∃ session ∈ lobby.sessions.sessions, ¬ lobby.outboxes.Refuses session.connection
    ∃ outcome answer heard,
      (refused → Untold token (.failed messageTooLong) lobby.outboxes outcome answer heard) ∧
      (¬ refused → outcome = .returned () ∧ answer = .processed token ∧
        Spread lobby.outboxes lobby.sessions.sessions caller.username text heard.find?) ∧
      ∀ byOid, byOid.Perm lobby.sessions.byOid →
        let visited : Lobby α := { lobby with sessions := { lobby.sessions with byOid } }
        ∃ outboxes,
          Answered sink visited (registry.dispatch sink caller request visited) outcome answer
            outboxes ∧
          outboxes.find? = heard.find? := by
  intro request refused
  have consistent := reachable.consistent
  by_cases long : refused
  · refine ⟨_, _, lobby.outboxes, fun _ => ⟨rfl, rfl, rfl⟩, fun short => (short long).elim,
      fun byOid perm => ?_⟩
    intro visited
    have listed : visited.sessions.sessions.Perm lobby.sessions.sessions := perm.map Prod.snd
    have tooLong : TooLong caller.username text visited.outboxes visited.sessions.sessions := by
      obtain ⟨less, session, mem, opened⟩ := long
      refine ⟨⟨session, listed.mem_iff.2 mem, opened⟩, fun session mem box known => ?_⟩
      rwa [length_line, shared session (listed.mem_iff.1 mem) box known]
    have ended := answered_of_announce visited here primary whole sink caller text token
    exact ⟨_, ended.2 _ (announce_of_long tooLong).1, rfl⟩
  · have fits : ∀ session ∈ lobby.sessions.sessions, ∀ box,
        lobby.outboxes.find? session.connection = some box → box.closed = false →
          (line session.oid caller.username text).encode.length ≤ box.limit := by
      intro session mem box known opened
      rw [length_line, shared session mem box known]
      by_contra less
      exact long ⟨Nat.not_le.1 less, session, mem, Outboxes.not_refuses known opened⟩
    have spread := spread_offerAll consistent.nodup_connections fits
    refine ⟨_, _, _, fun refused => (long refused).elim, fun _ => ⟨rfl, rfl, spread⟩,
      fun byOid perm => ?_⟩
    intro visited
    have listed : visited.sessions.sessions.Perm lobby.sessions.sessions := perm.map Prod.snd
    have apart : (visited.sessions.sessions.map (·.connection)).Nodup :=
      (listed.map _).nodup_iff.2 consistent.nodup_connections
    have room := fun session mem => fits session (listed.mem_iff.1 mem)
    have ended := answered_of_announce visited here primary whole sink caller text token
    exact ⟨_, ended.1 _ (announce_of_fits room),
      ((spread_offerAll apart room).perm listed).unique spread⟩

end

/-- Carol is not there to hear the first line; the second is too long, and Bob and Alice are. -/
theorem spread_of_broadcast_pub :
    let said (text : String) := (registry : Registry Unit (Lobby Unit)).dispatch Lobby.route
      ⟨1000, "alice"⟩ ⟨1, broadcast, [.str text, .listener ⟨1000, 7⟩]⟩ pub
    (registry : Registry Unit (Lobby Unit)).find? 1 = some ⟨relay.table, []⟩ ∧
      pub.sessions.Reachable ∧ pub.poisoned = false ∧
      (∀ session ∈ pub.sessions.sessions, ∀ box,
        pub.outboxes.find? session.connection = some box → box.limit = 63) ∧
      (said "hi").2.2.ledger.posted = [.processed ⟨1000, 7⟩] ∧
      (said "né").2.2.ledger.posted = [.failed ⟨1000, 7⟩ messageTooLong] := by
  intro said
  have here : (registry : Registry Unit (Lobby Unit)).find? 1 = some ⟨relay.table, []⟩ := rfl
  have shared : ∀ session ∈ pub.sessions.sessions, ∀ box,
      pub.outboxes.find? session.connection = some box → box.limit = 63 := by
    have all : ∀ box ∈ pub.outboxes.boxes, box.limit = 63 := by decide
    exact fun session _ box known => all box (List.mem_of_find?_eq_some known)
  refine ⟨here, reachable_pub, rfl, shared, ?_, ?_⟩
  · obtain ⟨outcome, answer, heard, -, spread, ended⟩ := spread_of_broadcast here rfl reachable_pub
      rfl shared Lobby.route ⟨1000, "alice"⟩ "hi" ⟨1000, 7⟩
    obtain ⟨outboxes, answered, -⟩ := ended _ (.refl _)
    obtain ⟨-, processed, -⟩ := spread fun long => absurd long.1 (by decide)
    exact processed ▸ answered.posted
  · obtain ⟨outcome, answer, heard, untold, -, ended⟩ := spread_of_broadcast here rfl reachable_pub
      rfl shared Lobby.route ⟨1000, "alice"⟩ "né" ⟨1000, 7⟩
    obtain ⟨outboxes, answered, -⟩ := ended _ (.refl _)
    have bob : ⟨1001, "bob", 3, some ⟨"lunch", 5⟩⟩ ∈ pub.sessions.sessions := by decide
    have refused := untold ⟨by decide, _, bob, Outboxes.not_refuses rfl rfl⟩
    exact refused.reported ▸ answered.posted

/-! Noting that somebody is away. -/

/-- If the client has a session, its connection takes the news of its away text. -/
def Notable (lobby : Lobby α) (client : Oid) (text : String) : Prop :=
  ∀ session, lobby.sessions.find? client = some session → ∃ box,
    lobby.outboxes.find? session.connection = some box ∧ box.closed = false ∧
      44 + (Wire.Utf8.encode text).length ≤ box.limit

/-- The lobby once a client is noted to be away, whoever hears of it. -/
def noted (lobby : Lobby α) (client : Oid) (text : String) : Lobby α :=
  { lobby with sessions := lobby.sessions.setAway client text lobby.clock }

/-- A client is noted to be away, or back if the text is empty, and is sent its away text behind
all that it was sent before; nothing else has changed. -/
structure Noted (lobby : Lobby α) (session : Session) (client : Oid) (text : String)
    (after : Lobby α) : Prop where
  state : after = { noted lobby client text with outboxes := after.outboxes }
  away : after.sessions.find? client = some { session with
    away := if text.isEmpty then none else some ⟨text, lobby.clock⟩ }
  handed : lobby.outboxes.Handed session.connection (awayChange client text) after.outboxes
  legible : ∀ box, lobby.outboxes.find? session.connection = some box → box.limit < 2 ^ 32 →
    conveyed box.limit (awayChange client text) = [awayChange client text]

/-- How noting that a client is away can end. -/
inductive Concluded (lobby : Lobby α) (client : Oid) (text : String) :
    Outcome Unit → Lobby α → Prop where
  | lost : lobby.poisoned = true →
      Concluded lobby client text (.failed (.failed internalError)) lobby
  | absent : lobby.sessions.find? client = none → Concluded lobby client text (.returned ()) lobby
  | heard {session : Session} {after : Lobby α} : lobby.sessions.find? client = some session →
      Notable lobby client text → Noted lobby session client text after →
        Concluded lobby client text (.returned ()) after
  | unheard (error : InvocationError) : lobby.poisoned = false → ¬ Notable lobby client text →
      Concluded lobby client text (.failed error) (noted lobby client text)

section

variable {α τ : Type} {lobby : Lobby α} {registry : Registry τ (Lobby α)}
  {chain : Chain τ (Lobby α)} {chat : Oid}

theorem post_awayChange {client : Oid} {session : Session} (text : String)
    (found : lobby.sessions.find? client = some session) :
    (Notable lobby client text ∧ ∃ outboxes,
      (noted lobby client text).post session.connection (awayChange client text) =
        (.ok (), { noted lobby client text with outboxes }) ∧
      lobby.outboxes.Handed session.connection (awayChange client text) outboxes) ∨
    ¬ Notable lobby client text ∧ ∃ error,
      (noted lobby client text).post session.connection (awayChange client text) =
        (.error error, noted lobby client text) := by
  have same (other : Session) (found' : lobby.sessions.find? client = some other) :
      other = session := Option.some.inj (found'.symm.trans found)
  have news := (noted lobby client text).post_verdict session.connection (awayChange client text)
  rw [length_awayChange] at news
  obtain ⟨refuses, posted⟩ | ⟨box, there, opened, ⟨long, posted⟩ | ⟨fits, after, posted, handed⟩⟩ :=
    news
  · refine .inr ⟨fun notable => ?_, _, posted⟩
    obtain ⟨box, there, opened, -⟩ := notable session found
    exact Outboxes.not_refuses there opened refuses
  · refine .inr ⟨fun notable => ?_, _, posted⟩
    obtain ⟨other, there', -, fits⟩ := notable session found
    obtain rfl := Option.some.inj (there'.symm.trans there)
    exact Nat.not_lt.2 fits long
  · refine .inl ⟨fun other found' => ?_, after, posted, handed⟩
    rw [same other found']
    exact ⟨box, there, opened, fits⟩

theorem noted_of_handed {client : Oid} {session : Session} {text : String} {outboxes : Outboxes}
    (found : lobby.sessions.find? client = some session) (notable : Notable lobby client text)
    (handed : lobby.outboxes.Handed session.connection (awayChange client text) outboxes) :
    Noted lobby session client text { noted lobby client text with outboxes } := by
  refine ⟨rfl, ?_, handed, fun box there small => ?_⟩
  · rw [noted]
    dsimp only
    rw [SessionTable.find?_setAway, found, Option.map_some, if_pos rfl]
  · obtain ⟨own, there', -, fits⟩ := notable session found
    obtain rfl := Option.some.inj (there'.symm.trans there)
    rw [← length_awayChange client] at fits
    exact conveyed_of_framable (Nat.lt_of_le_of_lt fits small) fits

variable (lobby) in
theorem concluded_of_away [Inhabited τ] (here : registry.find? chat = some chain)
    (primary : chain.primary = relay.table) (sink : Response → Lobby α → Lobby α) (caller : Caller)
    (text : String) :
    let after := registry.dispatch sink caller ⟨chat, away, [.str text]⟩ lobby
    Concluded lobby caller.oid text after.1 after.2.2.state := by
  intro after
  have known : registry.taker? chat away = some _ := taker?_of_primary here primary rfl
  have handled : ∃ registry', after = _ :=
    Registry.dispatch_of_unheard rfl known (rfl : _ = (relayAway caller text).onShared)
  obtain ⟨registry', ended⟩ := handled
  rw [run_relayAway caller text] at ended
  dsimp only at ended
  cases whole : lobby.poisoned with
  | true =>
    have none : lobby.table? = none := if_pos whole
    rw [none] at ended
    dsimp only at ended
    rw [ended]
    exact .lost whole
  | false =>
    rw [Lobby.table?_of_whole whole] at ended
    dsimp only at ended
    cases found : lobby.sessions.find? caller.oid with
    | none =>
      rw [found] at ended
      rw [ended]
      exact .absent found
    | some session =>
      rw [found] at ended
      dsimp only at ended
      obtain ⟨notable, outboxes, posted, handed⟩ | ⟨unheard, error, posted⟩ :=
        post_awayChange text found
      · rw [noted] at posted
        rw [posted] at ended
        rw [ended]
        exact .heard found notable (noted_of_handed found notable handed)
      · rw [noted] at posted
        rw [posted] at ended
        rw [ended]
        exact .unheard _ whole unheard

variable (lobby) in
/-- An away call that fails notes the client to be away all the same, unless the session table is
lost. -/
theorem noted_of_away [Inhabited τ] (here : registry.find? chat = some chain)
    (primary : chain.primary = relay.table) (sink : Response → Lobby α → Lobby α) (caller : Caller)
    (text : String) :
    let after := registry.dispatch sink caller ⟨chat, away, [.str text]⟩ lobby
    after.2.2.ledger.posted = [] ∧
    (after.1 = .returned () → ∀ session, lobby.sessions.find? caller.oid = some session →
      Noted lobby session caller.oid text after.2.2.state) ∧
    (∀ error, after.1 = .failed error → after.2.2.state.outboxes = lobby.outboxes) ∧
    (lobby.poisoned = true ∨ Notable lobby caller.oid text →
      ∀ error, after.1 = .failed error → after.2.2.state = lobby) ∧
    (lobby.poisoned = false → ¬ Notable lobby caller.oid text →
      ∃ error, after.1 = .failed error ∧ after.2.2.state = noted lobby caller.oid text) := by
  intro after
  have concluded : Concluded lobby caller.oid text after.1 after.2.2.state :=
    concluded_of_away lobby here primary sink caller text
  refine ⟨posted_of_tokens rfl sink caller lobby, ?_⟩
  generalize after.1 = outcome at concluded ⊢
  generalize after.2.2.state = state at concluded ⊢
  have returned {error : InvocationError} : (.returned () : Outcome Unit) ≠ .failed error :=
    fun same => by cases same
  cases concluded with
  | lost lost =>
    refine ⟨fun same => (returned same.symm).elim, fun _ _ => rfl, fun _ _ _ => rfl,
      fun whole => ?_⟩
    cases lost.symm.trans whole
  | absent absent =>
    refine ⟨fun _ session found => ?_, fun _ same => (returned same).elim,
      fun _ _ same => (returned same).elim, fun _ unheard => (unheard fun session found => ?_).elim⟩
    · cases absent.symm.trans found
    · cases absent.symm.trans found
  | heard found notable noted =>
    refine ⟨fun _ session found' => ?_, fun _ same => (returned same).elim,
      fun _ _ same => (returned same).elim, fun _ unheard => (unheard notable).elim⟩
    obtain rfl := Option.some.inj (found'.symm.trans found)
    exact noted
  | unheard error whole unheard =>
    refine ⟨fun same => (returned same.symm).elim, fun _ _ => rfl, fun heard => ?_,
      fun _ _ => ⟨error, rfl, rfl⟩⟩
    obtain lost | notable := heard
    · cases lost.symm.trans whole
    · exact (unheard notable).elim

end

/-- Alice notes that she is away in a text that is one byte too long: the call fails, and she is
away. -/
theorem noted_of_away_pub :
    let text := "back in two minutes!"
    let after := (registry : Registry Unit (Lobby Unit)).dispatch Lobby.route ⟨1000, "alice"⟩
      ⟨1, away, [.str text]⟩ pub
    (registry : Registry Unit (Lobby Unit)).find? 1 = some ⟨relay.table, []⟩ ∧
      (∃ error, after.1 = .failed error) ∧
      after.2.2.state.outboxes = pub.outboxes ∧
      (pub.sessions.find? 1000).map (·.away) = some none ∧
      (after.2.2.state.sessions.find? 1000).map (·.away) = some (some ⟨text, 12⟩) := by
  intro text after
  have here : (registry : Registry Unit (Lobby Unit)).find? 1 = some ⟨relay.table, []⟩ := rfl
  obtain ⟨-, -, unsent, -, slip⟩ :=
    noted_of_away pub here rfl Lobby.route ⟨1000, "alice"⟩ text
  have unheard : ¬ Notable pub 1000 text := fun notable => by
    obtain ⟨box, there, -, fits⟩ := notable ⟨1000, "alice", 2, none⟩ rfl
    obtain rfl := Option.some.inj there
    exact absurd fits (by decide)
  obtain ⟨error, failed, state⟩ := slip rfl unheard
  refine ⟨here, ⟨error, failed⟩, unsent error failed, rfl, ?_⟩
  rw [state]
  decide

end Parley.Chat
