import Parley.Proofs.Server.Commands

/-! Answers stay with whoever has asked.
An answer goes to the connection that its call has come from, and is for the client that is logged
on there; a call that would be answered to anybody else is not handled at all. -/

namespace Parley.Server

open Dispatch

/-- A command, with the outboxes and the time that it finds when its turn comes. -/
structure Turn where
  outboxes : Outboxes
  clock : Nat
  command : Command
  deriving DecidableEq, Repr

def meet (server : Server τ α) (turn : Turn) : Server τ α :=
  server.modifyLobby fun lobby => { lobby with outboxes := turn.outboxes, clock := turn.clock }

def take (server : Server τ α) (turn : Turn) : Server τ α :=
  ((server.meet turn).perform turn.command).2

def takeAll (server : Server τ α) (turns : List Turn) : Server τ α := turns.foldl take server

def oidAt? (server : Server τ α) (connection : ConnectionId) : Option Oid :=
  (server.lobby.sessions.findByConnection? connection).map (·.oid)

/-- The response answers a call that has come over the connection with this command, and is for
the client that is logged on there. -/
def IsAnswer (server : Server τ α) (command : Command) (connection : ConnectionId)
    (response : Response) : Prop :=
  ∃ request, command = .handleRequest connection request ∧
    response ∈ server.answers connection request ∧
    server.oidAt? connection = some response.token.callerOid

/-- Whoever is logged on over the connection, some argument is a listener of somebody else. -/
def IsForeign (server : Server τ α) (connection : ConnectionId) (args : Arguments) : Prop :=
  ∀ session ∈ server.lobby.sessions.sessions, session.connection = connection →
    ∃ token, .listener token ∈ args ∧ token.callerOid ≠ session.oid

variable {granted : ConnectionId → Oid → Prop} {server : Server τ α}
  {connection : ConnectionId} {request : Request}

theorem exists_session_of_caller? {caller : Caller}
    (consistent : server.lobby.sessions.Consistent)
    (found : server.caller? connection = some caller) :
    ∃ session ∈ server.lobby.sessions.sessions, session.connection = connection ∧
      session.oid = caller.oid ∧
      server.lobby.sessions.findByConnection? connection = some session := by
  obtain ⟨session, indexed, known, -⟩ := session_of_caller? found
  obtain ⟨same, known', own⟩ := consistent.oidOf?_eq_some.1 indexed
  obtain rfl := Option.some.inj (known.symm.trans known')
  have listed := consistent.find?_eq_some.1 known
  refine ⟨session, List.mem_map_of_mem listed, own, consistent.keyed _ session listed, ?_⟩
  rw [SessionTable.findByConnection?, indexed]
  exact known

theorem oidAt?_of_caller? {caller : Caller} (consistent : server.lobby.sessions.Consistent)
    (found : server.caller? connection = some caller) :
    server.oidAt? connection = some caller.oid := by
  obtain ⟨session, -, -, own, known⟩ := exists_session_of_caller? consistent found
  rw [oidAt?, known, ← own]
  rfl

theorem isForged_of_mem {caller : Caller} {args : Arguments} {token : Token}
    (mem : .listener token ∈ args) (other : token.callerOid ≠ caller.oid) :
    isForged caller args = true := by
  by_contra honest
  have listed : token ∈ args.tokens := List.mem_filterMap.2 ⟨_, mem, rfl⟩
  exact other (callerOid_of_unforged (by simpa using honest) listed)

/-- A call with a listener of somebody else is dropped, and so is one without a session. -/
theorem handleRequest_of_foreign (consistent : server.lobby.sessions.Consistent)
    (foreign : server.IsForeign connection request.args) :
    server.handleRequest connection request = (none, server) := by
  unfold handleRequest
  cases found : server.caller? connection with
  | none => rfl
  | some caller =>
    obtain ⟨session, mem, place, own, -⟩ := exists_session_of_caller? consistent found
    obtain ⟨token, mem, other⟩ := foreign session mem place
    exact if_pos (isForged_of_mem mem (own ▸ other))

/-- Of the commands only calls post answers, and these are where they belong. -/
theorem Sound.confined (sound : server.Sound granted) (command : Command) :
    server.lobby.outboxes.Grown
      (fun connection message => ∀ response, message = .response response →
        server.IsAnswer command connection response)
      (server.perform command).2.lobby.outboxes := by
  -- what services tell of their own accord, and what a logon is told, is no answer
  have quiet (none : server.responses command = []) :
      server.lobby.outboxes.Grown
        (fun connection message => ∀ response, message = .response response →
          server.IsAnswer command connection response)
        (server.perform command).2.lobby.outboxes := by
    refine (sound.perform command).outboxes.mono fun connection message posts response same => ?_
    subst same
    obtain ⟨_, same⟩ | ⟨_, same⟩ | ⟨_, mem, -⟩ | ⟨_, _, same, -⟩ := posts
    · cases same
    · cases same
    · rw [none] at mem
      cases mem
    · cases same
  cases command with
  | startSession connection version username => exact quiet rfl
  | endSession connection => exact quiet rfl
  | handleRequest connection request =>
    refine (sound.handleRequest connection request).2.outboxes.mono fun id message good r same => ?_
    subst same
    obtain ⟨_, same⟩ | ⟨rfl, response, mem, same⟩ := good
    · cases same
    · obtain rfl := Message.response.inj same
      obtain ⟨-, caller, found, own⟩ := sound.caller_of_answers mem
      exact ⟨request, rfl, mem, own ▸ oidAt?_of_caller? sound.consistent found⟩

theorem Sound.meet (sound : server.Sound granted) (turn : Turn) :
    (server.meet turn).Sound granted := sound.modifyLobby rfl rfl

theorem Sound.takeAll (sound : server.Sound granted) (turns : List Turn) :
    ∃ granted, (server.takeAll turns).Sound granted := by
  induction turns generalizing server granted with
  | nil => exact ⟨granted, sound⟩
  | cons turn rest ih => exact ih ((sound.meet turn).perform turn.command).sound

/-- Each answer that a server posts is for a call of the same connection and for the client that is
logged on there. -/
theorem answers_confined [Inhabited τ] (maxClients : Nat) (app : α) (past : List Turn)
    (turn : Turn) :
    let server := ((Server.new maxClients app : Server τ α).takeAll past).meet turn
    server.lobby.outboxes.Grown
      (fun connection message => ∀ response, message = .response response →
        server.IsAnswer turn.command connection response)
      (server.perform turn.command).2.lobby.outboxes ∧
    ∀ connection request, server.IsForeign connection request.args →
      ∀ registry : Registry τ (Lobby α),
        ({ server with registry } : Server τ α).handleRequest connection request =
          (none, { server with registry }) := by
  have start : (Server.new maxClients app : Server τ α).Sound fun _ _ => False :=
    .start maxClients app
  obtain ⟨granted, sound⟩ := start.takeAll past
  have sound := sound.meet turn
  exact ⟨sound.confined turn.command, fun connection request foreign registry =>
    handleRequest_of_foreign sound.consistent foreign⟩

def whisper (token : Token) : Request := ⟨1, Chat.tell, [.str "a", .str "b", .listener token]⟩

def attended : Server Unit Unit :=
  let outboxes : Outboxes := { boxes := [{ id := 2, address := "", limit := 1000 }] }
  let logon : Turn := ⟨outboxes, 0, .startSession 2 protocolVersion "a"⟩
  ((Server.new 4 ()).takeAll [logon]).meet ⟨outboxes, 0, .handleRequest 2 (whisper ⟨1000, 1⟩)⟩

/-- It is answered when it asks for itself, and not handled when it asks for another. -/
theorem answers_confined_whisper :
    attended.answers 2 (whisper ⟨1000, 1⟩) = [⟨⟨1000, 1⟩, Chat.tellSucceeded, []⟩] ∧
    attended.oidAt? 2 = some 1000 ∧
    attended.handleRequest 2 (whisper ⟨1001, 1⟩) = (none, attended) := by
  have foreign : attended.IsForeign 2 (whisper ⟨1001, 1⟩).args := by
    intro session mem _
    have known : attended.lobby.sessions.sessions =
        [{ oid := 1000, username := "a", connection := 2 }] := by decide
    rw [known, List.mem_singleton] at mem
    subst mem
    exact ⟨⟨1001, 1⟩, by simp [whisper], by decide⟩
  exact ⟨by decide, by decide,
    (answers_confined 4 () _ _).2 2 _ foreign attended.registry⟩

end Parley.Server
