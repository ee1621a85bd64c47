import Parley.Server.Lobby
import Parley.Proofs.Connection.Mail
import Parley.Proofs.Server.Sessions

/-! What services do to what they share: messages go into the outboxes, and sessions stay with
their clients and connections. -/

namespace Parley.Server.Lobby

theorem table?_of_whole {lobby : Lobby α} (whole : lobby.poisoned = false) :
    lobby.table? = some lobby.sessions := by
  rw [table?, whole, if_neg Bool.false_ne_true]

theorem post_verdict (lobby : Lobby α) (connection : ConnectionId) (message : Message) :
    (lobby.outboxes.Refuses connection ∧
      lobby.post connection message = (.error .closed, lobby)) ∨
    (∃ box, lobby.outboxes.find? connection = some box ∧ box.closed = false ∧
      ((box.limit < message.encode.length ∧ lobby.post connection message =
          (.error (.frameTooLarge message.encode.length box.limit), lobby)) ∨
        message.encode.length ≤ box.limit ∧ ∃ outboxes,
          lobby.post connection message = (.ok (), { lobby with outboxes }) ∧
            lobby.outboxes.Handed connection message outboxes)) := by
  unfold post
  obtain ⟨refuses, posted⟩ | ⟨box, found, opened, ⟨long, posted⟩ | ⟨fits, after, posted, handed⟩⟩ :=
    lobby.outboxes.post_verdict connection message
  · exact .inl ⟨refuses, by rw [posted]⟩
  · exact .inr ⟨box, found, opened, .inl ⟨long, by rw [posted]⟩⟩
  · exact .inr ⟨box, found, opened, .inr ⟨fits, after, by rw [posted], handed⟩⟩

/-- Between two states of the lobby messages as `P` says were posted, and nothing has happened to
the sessions but that away texts were set. -/
structure Advanced (P : ConnectionId → Message → Prop) (before after : Lobby α) : Prop where
  outboxes : before.outboxes.Grown P after.outboxes
  clients : after.sessions.withoutAway = before.sessions.withoutAway
  poisoned : after.poisoned = before.poisoned

namespace Advanced

variable {P Q : ConnectionId → Message → Prop} {lobby before after : Lobby α}

theorem refl (lobby : Lobby α) : Advanced P lobby lobby := ⟨.refl _, rfl, rfl⟩

theorem trans {first second third : Lobby α} (early : Advanced P first second)
    (late : Advanced P second third) : Advanced P first third :=
  ⟨early.outboxes.trans late.outboxes, late.clients.trans early.clients,
    late.poisoned.trans early.poisoned⟩

theorem mono (weaker : ∀ id message, P id message → Q id message)
    (advanced : Advanced P before after) : Advanced Q before after :=
  ⟨advanced.outboxes.mono weaker, advanced.clients, advanced.poisoned⟩

theorem nextOid (advanced : Advanced P before after) :
    after.sessions.nextOid = before.sessions.nextOid := congrArg (·.nextOid) advanced.clients

theorem sessions (advanced : Advanced P before after) {session : Session}
    (mem : session ∈ after.sessions.sessions) : ∃ old ∈ before.sessions.sessions,
      old.oid = session.oid ∧ old.connection = session.connection := by
  obtain ⟨⟨oid, session⟩, listed, rfl⟩ := List.mem_map.1 mem
  obtain ⟨old, known, own, -, place⟩ :=
    SessionTable.mem_byOid_of_withoutAway advanced.clients listed
  exact ⟨old, List.mem_map_of_mem known, own, place⟩

theorem post (lobby : Lobby α) {connection : ConnectionId} {message : Message}
    (good : P connection message) : Advanced P lobby (lobby.post connection message).2 :=
  ⟨lobby.outboxes.grown_post good, rfl, rfl⟩

theorem route (lobby : Lobby α) {response : Response}
    (good : ∀ session, lobby.sessions.find? response.token.callerOid = some session →
      P session.connection (.response response)) :
    Advanced P lobby (Lobby.route response lobby) := by
  unfold Lobby.route
  split
  · rename_i session found
    obtain ⟨table, known, found⟩ := Option.bind_eq_some_iff.1 found
    unfold table? at known
    split at known
    · cases known
    · cases known
      exact post lobby (good session found)
  · exact refl lobby

end Advanced

end Parley.Server.Lobby
