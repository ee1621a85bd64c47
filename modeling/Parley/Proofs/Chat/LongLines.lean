import Parley.Proofs.Chat.Speech
import Parley.Proofs.Dispatch.Attempts

/-! Lines that are too long.
A line that is too long for whoever is to hear it is told to nobody, its speaker hears so, and
nothing else happens. -/

namespace Parley.Chat

open Dispatch Server

/-- Whom a line is said to. -/
inductive Line where
  | tell (target : String)
  | broadcast
  deriving DecidableEq, Repr

namespace Line

/-- The request that says a line, and hears of its fate under the token. -/
def request (text : String) (token : Token) : Line → Request
  | tell target => ⟨Call.target, Chat.tell, [.str target, .str text, .listener token]⟩
  | broadcast => ⟨Call.target, Chat.broadcast, [.str text, .listener token]⟩

def addressees (table : SessionTable) : Line → List Session
  | tell target => (table.findByUsername? target).toList
  | broadcast => table.sessions

end Line

variable {α τ : Type} {lobby : Lobby α} {caller : Caller} {connection : ConnectionId}
  {speaker text : String} {line : Line} {token : Token} {addressees : List Session}

theorem length_line (target : Oid) (speaker text : String) :
    (Chat.line target speaker text).encode.length =
      56 + (Wire.Utf8.encode speaker).length + (Wire.Utf8.encode text).length := by
  have name : (Wire.Utf8.encode messageEvent).length = 4 := by decide
  simp only [Chat.line, Message.encode, Message.write, ObjectEvent.write, Arguments.write,
    Value.writeAll, Value.write, Wire.length_writeWord, Wire.length_writeInt32,
    Wire.length_writeText, List.length_nil, List.length_cons, name]
  omega

theorem length_awayChange (client : Oid) (text : String) :
    (awayChange client text).encode.length = 44 + (Wire.Utf8.encode text).length := by
  have name : (Wire.Utf8.encode awayAttribute).length = 12 := by decide
  simp only [awayChange, Message.encode, Message.write, ObjectEvent.write, Value.write,
    Wire.length_writeWord, Wire.length_writeInt32, Wire.length_writeText, List.length_nil, name]
  omega

/-- Somebody is there to hear the line, and nobody takes one that long. -/
structure TooLong (speaker text : String) (outboxes : Outboxes) (addressees : List Session) :
    Prop where
  reached : ∃ session ∈ addressees, ¬ outboxes.Refuses session.connection
  long : ∀ session ∈ addressees, ∀ box, outboxes.find? session.connection = some box →
    box.limit < (Chat.line session.oid speaker text).encode.length

theorem post_of_long {message : Message}
    (long : ∀ box, lobby.outboxes.find? connection = some box →
      box.limit < message.encode.length) :
    (lobby.outboxes.Refuses connection ∧
      lobby.post connection message = (.error .closed, lobby)) ∨
    ¬ lobby.outboxes.Refuses connection ∧ ∃ length limit,
      lobby.post connection message = (.error (.frameTooLarge length limit), lobby) := by
  obtain ⟨refuses, posted⟩ | ⟨box, found, opened, ⟨-, posted⟩ | ⟨fits, -⟩⟩ :=
    lobby.post_verdict connection message
  · exact .inl ⟨refuses, posted⟩
  · exact .inr ⟨Outboxes.not_refuses found opened, _, _, posted⟩
  · exact (Nat.not_lt.2 fits (long box found)).elim

theorem announce_of_long (long : TooLong speaker text lobby.outboxes addressees) :
    announce speaker text lobby addressees = (some (.failed messageTooLong), lobby) ∧
      lobby.outboxes.offerAll (announced speaker text lobby addressees) = lobby.outboxes := by
  obtain ⟨reached, long⟩ := long
  induction addressees with
  | nil =>
    obtain ⟨session, mem, -⟩ := reached
    cases mem
  | cons session rest ih =>
    rw [announce, announced]
    obtain ⟨refuses, posted⟩ | ⟨-, length, limit, posted⟩ :=
      post_of_long (long session List.mem_cons_self)
    · -- whoever is there to hear it comes later
      obtain ⟨other, mem, opened⟩ := reached
      have later : other ∈ rest := by
        obtain rfl | later := List.mem_cons.1 mem
        · exact (opened refuses).elim
        · exact later
      obtain ⟨failed, none⟩ := ih ⟨other, later, opened⟩ fun s mem =>
        long s (List.mem_cons_of_mem _ mem)
      rw [posted]
      refine ⟨failed, ?_⟩
      rw [Outboxes.offerAll, Outboxes.post_of_error (refuses _)]
      exact none
    · rw [posted]
      refine ⟨rfl, ?_⟩
      have refused := congrArg Prod.fst posted
      rw [Outboxes.offerAll, Outboxes.post_of_error refused]
      rfl

def Line.program (caller : Caller) (text : String) : Line → Program (Lobby α) Unit
  | tell target => relayTell caller target text 2
  | broadcast => relayBroadcast caller text 1

/-- The line is not said, and its events leave no trace. -/
theorem run_of_long (token : Token) (whole : lobby.poisoned = false)
    (long : TooLong caller.username text lobby.outboxes (line.addressees lobby.sessions)) :
    (line.program caller text).run Lobby.route (line.request text token).args { state := lobby } =
        (.failed (.failed messageTooLong), { state := lobby }) ∧
      lobby.outboxes.offerAll
        ((Call.ofRequest (line.request text token)).events lobby caller) = lobby.outboxes := by
  have table : ({ state := lobby } : Exchange (Lobby α)).state.table? = some lobby.sessions :=
    Lobby.table?_of_whole whole
  cases line with
  | tell target =>
    have here : Arguments.listenerAt? (Line.request text token (.tell target)).args 2 =
        some token := rfl
    rw [Line.program, run_relayTell caller target text here rfl, table]
    change _ ∧ lobby.outboxes.offerAll (Call.events lobby caller (.tell target text)) = _
    rw [Call.events]
    dsimp only
    obtain ⟨⟨session, mem, opened⟩, long⟩ := long
    have found : lobby.sessions.findByUsername? target = some session := Option.mem_toList.1 mem
    rw [found]
    obtain ⟨refuses, -⟩ | ⟨-, length, limit, posted⟩ := post_of_long (long session mem)
    · exact (opened refuses).elim
    · dsimp only
      rw [posted]
      exact ⟨rfl, Outboxes.post_of_error (congrArg Prod.fst posted)⟩
  | broadcast =>
    have here : Arguments.listenerAt? (Line.request text token .broadcast).args 1 =
        some token := rfl
    rw [Line.program, run_relayBroadcast caller text here rfl, table]
    obtain ⟨failed, none⟩ := announce_of_long long
    rw [Line.addressees] at failed none
    dsimp only
    rw [failed]
    exact ⟨rfl, none⟩

theorem Line.taken [Inhabited τ] (line : Line) (caller : Caller) (text : String) (token : Token) :
    ∃ entry, (registry : Registry τ (Lobby α)).taker? (line.request text token).target
        (line.request text token).method = some entry ∧
      entry.handler caller (line.request text token).args =
        (line.program caller text).onShared := by
  cases line <;> exact ⟨_, rfl, rfl⟩

theorem Line.firstListener? (line : Line) (text : String) (token : Token) :
    ∃ position, (line.request text token).args.firstListener? = some (position, token) := by
  cases line <;> exact ⟨_, rfl⟩

theorem Line.unforged (line : Line) (text : String) (own : token.callerOid = caller.oid) :
    isForged caller (line.request text token).args = false := by
  have honest : decide (token.callerOid ≠ caller.oid) = false := by simp [own]
  cases line
  all_goals exact (Bool.or_false _).trans honest

end Parley.Chat

namespace Parley.Server

open Dispatch

variable {server : Server τ α} {connection : ConnectionId} {caller : Caller} {text : String}
  {line : Chat.Line} {token : Token}

theorem answers_of_long [Inhabited τ] (chat : server.registry = Chat.registry)
    (found : server.caller? connection = some caller) (own : token.callerOid = caller.oid)
    (long : Chat.TooLong caller.username text server.lobby.outboxes
      (line.addressees server.lobby.sessions)) :
    server.answers connection (line.request text token) =
      [.failed token Chat.messageTooLong] := by
  have whole : server.lobby.poisoned = false := by
    obtain ⟨table, there, -⟩ := Option.bind_eq_some_iff.1 found
    exact (table?_eq_some there).1
  obtain ⟨ran, -⟩ := Chat.run_of_long token whole long
  obtain ⟨entry, taken, shared⟩ :=
    line.taken (τ := τ) (α := α) caller text token
  obtain ⟨position, first⟩ := line.firstListener? text token
  have handled : ∃ registry', Chat.registry.handle Lobby.route caller (line.request text token)
      { state := server.lobby } = (_, registry', _) := Registry.handle_of_onShared taken shared
  obtain ⟨registry', handled⟩ := handled
  rw [answers_of_caller? found (line.unforged text own), chat, Registry.dispatch_eq, handled, ran]
  exact Registry.posted_report first rfl _

/-- A line that is too long for whoever is to hear it changes nothing but that its speaker is told
so. -/
theorem perform_of_long [Inhabited τ] (chat : server.registry = Chat.registry)
    (consistent : server.lobby.sessions.Consistent)
    (found : server.caller? connection = some caller) (own : token.callerOid = caller.oid)
    (long : Chat.TooLong caller.username text server.lobby.outboxes
      (line.addressees server.lobby.sessions)) :
    (server.perform (.handleRequest connection (line.request text token))).2 =
      server.modifyLobby
        (·.offer connection (.response (.failed token Chat.messageTooLong))) := by
  have honest := line.unforged text own
  have whole := (present_of_caller? consistent found).whole
  obtain ⟨-, silent⟩ := Chat.run_of_long token whole long
  have kept : (Chat.Call.ofRequest (line.request text token)).sessions server.lobby caller =
      server.lobby.sessions := by
    cases line <;> rfl
  rw [perform, handleRequest_eq chat consistent found honest, utters_of_caller? found honest,
    answers_of_long chat found own long, Outboxes.offerAll_append, silent, kept, ← chat]
  rfl

end Parley.Server
