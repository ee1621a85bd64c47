import Parley.Proofs.Network.Order
import Parley.Proofs.Network.Utterances
import Parley.Proofs.Server.Runtime

/-! Sessions of a network and their connections.
The end of a connection goes through the notices and the queue of the server, behind all that came
in on the connection before. So a session whose connection is gone has not much longer to go: its
end is under way. -/

namespace Parley

namespace Outboxes

variable {outboxes : Outboxes} {id : ConnectionId} {box old : Outbox}

theorem refuses_of_replace (refuses : (outboxes.replace box).Refuses id)
    (found : outboxes.find? box.id = some old) (same : box.closed = old.closed) :
    outboxes.Refuses id := by
  rw [refuses_iff] at refuses ⊢
  intro b known
  have after := refuses (if id = box.id then box else b) (by rw [find?_replace, known]; rfl)
  by_cases own : id = box.id
  · subst own
    obtain rfl := Option.some.inj (known.symm.trans found)
    rwa [if_pos rfl, same] at after
  · rwa [if_neg own] at after

theorem refuses_of_post {other : ConnectionId} {message : Message}
    (refuses : (outboxes.post other message).2.Refuses id) : outboxes.Refuses id := by
  obtain ⟨error, refused⟩ | ⟨box, found, -, accepted⟩ := outboxes.post_cases other message
  · rwa [refused] at refuses
  · rw [accepted, refuses_requested] at refuses
    have found : outboxes.find? box.id = some box := by rwa [id_of_find? found]
    exact refuses_of_replace refuses found rfl

theorem refuses_of_offerAll {posts : List (ConnectionId × Message)}
    (refuses : (outboxes.offerAll posts).Refuses id) : outboxes.Refuses id := by
  induction posts generalizing outboxes with
  | nil => exact refuses
  | cons post rest ih => exact refuses_of_post (ih refuses)

theorem refuses_of_close {gone : ConnectionId} (apart : id ≠ gone)
    (refuses : (outboxes.close gone).Refuses id) : outboxes.Refuses id := by
  rw [refuses_iff] at refuses ⊢
  intro box known
  exact refuses box (by rw [find?_close, known, Option.map_some, if_neg apart])

end Outboxes

namespace Connection.Desk

/-- The connections of a desk come further: what comes in on one of them is told, or it ends. -/
inductive Proceeds : Desk → Desk → Prop
  | calm {before after : Desk} (ids : after.manager.ids = before.manager.ids)
      (notices : after.notices = before.notices)
      (takes : ∀ id, after.outboxes.Refuses id → before.outboxes.Refuses id) :
      Proceeds before after
  | hear {desk : Desk} {id : ConnectionId} (known : id ∈ desk.manager.ids) (message : Message) :
      Proceeds desk { desk with notices := desk.notices ++ [.received id message] }
  | close (desk : Desk) (id : ConnectionId) : Proceeds desk (desk.close id)
  | trans {first second third : Desk} (early : Proceeds first second)
      (late : Proceeds second third) : Proceeds first third

variable {desk : Desk} {id : ConnectionId}

theorem Proceeds.refl (desk : Desk) : Proceeds desk desk := .calm rfl rfl fun _ refuses => refuses

theorem proceeds_receive (known : id ∈ desk.manager.ids) (messages : List Message) :
    Proceeds desk (desk.receive id messages).2 := by
  induction messages generalizing desk with
  | nil => exact .refl desk
  | cons message rest ih =>
    cases message with
    | ping time =>
      have answered : Proceeds desk
          { desk with outboxes := (desk.outboxes.post id (.pong time)).2 } :=
        .calm rfl rfl fun _ refuses => Outboxes.refuses_of_post refuses
      exact answered.trans (ih known)
    | logoff => exact .refl desk
    | _ => exact (Proceeds.hear known _).trans (ih known)

theorem proceeds_replace (desk : Desk) (connection : Connection) :
    Proceeds desk { desk with manager := desk.manager.replace connection } :=
  .calm (desk.manager.ids_replace connection) rfl fun _ refuses => refuses

theorem proceeds_read (desk : Desk) (id : ConnectionId) (answers : List ReadAnswer) :
    Proceeds desk (desk.read id answers) := by
  unfold read
  cases found : desk.manager.find? id with
  | none => exact .refl desk
  | some connection =>
    dsimp only
    rcases connection.readMessages answers with ⟨outcome, next⟩
    have known : id ∈ (desk.manager.replace next).ids := by
      rw [Manager.ids_replace]
      exact Manager.mem_ids.2 ⟨connection, found⟩
    have received : Proceeds { desk with manager := desk.manager.replace next }
        (receive id { desk with manager := desk.manager.replace next } outcome.messages).2 :=
      proceeds_receive known outcome.messages
    dsimp only
    split
    · exact (desk.proceeds_replace next).trans (received.trans (.close _ id))
    · exact (desk.proceeds_replace next).trans received

theorem proceeds_pour (desk : Desk) (id : ConnectionId) (answers : List WriteAnswer) :
    Proceeds desk (desk.pour id answers).2.2 := by
  unfold pour
  cases found : desk.outboxes.find? id with
  | none => exact .refl desk
  | some box =>
    refine .calm rfl rfl fun other refuses => ?_
    have own : desk.outboxes.find? box.id = some box := by rwa [Outboxes.id_of_find? found]
    exact Outboxes.refuses_of_replace refuses own rfl

theorem proceeds_write (desk : Desk) (id : ConnectionId) (answers : List WriteAnswer) :
    Proceeds desk (desk.write id answers).2.2 := by
  have poured := desk.proceeds_pour id answers
  unfold write
  cases desk.manager.find? id with
  | none => exact .refl desk
  | some connection =>
    dsimp only
    rcases out : desk.pour id answers with ⟨error | done, written, next⟩
    all_goals rw [out] at poured
    · exact poured
    · dsimp only at poured ⊢
      unfold watch
      split
      · exact poured.trans (next.proceeds_replace _)
      · exact poured

theorem proceeds_flush (desk : Desk) (id : ConnectionId) (answers : List WriteAnswer) :
    Proceeds desk (desk.flush id answers).2 := by
  have written := desk.proceeds_write id answers
  unfold flush
  dsimp only
  split
  · exact written.trans (.close _ id)
  · exact written

end Connection.Desk

namespace Network

open Client (Code)
open Connection (Desk)
open Server (Command Followed Hall)

/-- The commands that the server has still to run, in the order in which they come up. -/
def coming (hall : Hall τ α) (desk : Desk) : List Command :=
  hall.pending ++ desk.notices.filterMap entailed

/-- Whoever has a session is connected, or its end comes up; and so for those who log on. -/
structure Seated (hall : Hall τ α) (desk : Desk) : Prop where
  takes : ∀ id ∈ desk.manager.ids, ¬ desk.outboxes.Refuses id
  sessions : hall.isClosed = false → hall.context.lobby.poisoned = false →
    ∀ session ∈ hall.context.lobby.sessions.sessions,
      session.connection ∈ desk.manager.ids ∨ .endSession session.connection ∈ coming hall desk
  followed : hall.isClosed = false → ∀ id ∉ desk.manager.ids, Followed (coming hall desk) id

variable {maxFrame : Nat} {net : Network τ α κ ν ω} {code : Code κ ν ω} {action : Action κ ν ω}
  {hall hall' : Hall τ α} {desk after : Desk}

theorem Seated.proceed (seated : Seated hall desk) (proceeds : desk.Proceeds after) :
    Seated hall after := by
  induction proceeds with
  | calm ids notices takes =>
    have same := congrArg (hall.pending ++ List.filterMap entailed ·) notices
    refine ⟨fun id mem refuses => ?_, fun accepting whole session mem => ?_,
      fun accepting id gone => ?_⟩
    · exact seated.takes id (ids ▸ mem) (takes id refuses)
    · rw [ids, coming, same]
      exact seated.sessions accepting whole session mem
    · rw [coming, same]
      exact seated.followed accepting id (ids ▸ gone)
  | @hear desk id known message =>
    have grown : coming hall { desk with notices := desk.notices ++ [.received id message] } =
        coming hall desk ++ (Server.command? id message).toList := by
      rw [coming, List.filterMap_append, ← List.append_assoc, coming]
      cases asked : Server.command? id message <;> simp [entailed, asked]
    refine ⟨seated.takes, fun accepting whole session mem => ?_, fun accepting other gone => ?_⟩
    · rw [grown]
      exact (seated.sessions accepting whole session mem).imp_right (List.mem_append_left _)
    · have apart : id ≠ other := fun same => gone (same ▸ known)
      have followed := seated.followed accepting other gone
      rw [grown]
      cases asked : Server.command? id message with
      | none => rwa [Option.toList_none, List.append_nil]
      | some command =>
        refine followed.append fun version username same => apart ?_
        have own := isFrom_of_command? asked other
        rw [same] at own
        simpa [Command.isFrom] using own
  | close desk id =>
    unfold Desk.close
    split
    · exact seated
    · have ids : ((desk.shut id).release id).manager.ids = desk.manager.ids.filter (· ≠ id) :=
        desk.manager.ids_erase id
      have grown : coming hall ((desk.shut id).release id) =
          coming hall desk ++ [.endSession id] := by
        rw [coming, coming, List.append_assoc]
        exact congrArg (hall.pending ++ ·) List.filterMap_append
      refine ⟨fun other mem refuses => ?_, fun accepting whole session mem => ?_,
        fun accepting other gone => ?_⟩
      · obtain ⟨known, apart⟩ := List.mem_filter.1 (ids ▸ mem)
        exact seated.takes other known
          (Outboxes.refuses_of_close (by simpa using apart) refuses)
      · rw [ids, grown]
        by_cases own : session.connection = id
        · exact .inr (own ▸ List.mem_append_right _ (List.mem_singleton_self _))
        · exact (seated.sessions accepting whole session mem).imp
            (fun known => List.mem_filter.2 ⟨known, by simpa using own⟩) (List.mem_append_left _)
      · rw [grown]
        by_cases own : other = id
        · exact own ▸ Server.followed_append_endSession _ _
        · refine (seated.followed accepting other fun known => gone ?_).append fun _ _ same => ?_
          · exact ids ▸ List.mem_filter.2 ⟨known, by simpa using own⟩
          · cases same
  | trans _ _ early late => exact late (early seated)

theorem Seated.new [Inhabited τ] (maxClients maxFrame : Nat) (app : α) :
    Seated (Network.new maxClients maxFrame app : Network τ α κ ν ω).hall
      (Network.new maxClients maxFrame app : Network τ α κ ν ω).desk := by
  refine ⟨fun id mem _ => ?_, fun _ _ session mem => ?_,
    fun _ id _ version username after behind => ?_⟩
  · cases mem
  · cases mem
  · cases List.suffix_nil.1 behind

theorem Seated.same (seated : Seated net.hall net.desk)
    (hall : (net.perform code action).hall = net.hall)
    (desk : (net.perform code action).desk = net.desk) :
    Seated (net.perform code action).hall (net.perform code action).desk := by
  rw [hall, desk]
  exact seated

theorem Seated.dial (seated : Seated net.hall net.desk) (sound : net.Sound maxFrame)
    (address : String) : Seated net.hall (net.desk.accept address) := by
  have ids : (net.desk.accept address).manager.ids =
    net.desk.manager.ids ++ [net.desk.manager.nextId] := List.map_append
  refine ⟨fun id mem refuses => ?_, fun accepting whole session mem => ?_,
    fun accepting id gone => ?_⟩
  · rw [Outboxes.refuses_iff] at refuses
    obtain known | new := List.mem_append.1 (ids ▸ mem)
    · refine seated.takes id known (Outboxes.refuses_iff.2 fun box found => refuses box ?_)
      rw [Desk.outbox_accept, found]
      rfl
    · obtain rfl := List.mem_singleton.1 new
      have shut := refuses _ (by
        rw [Desk.outbox_accept, sound.noOutbox _ (Nat.le_refl _), if_pos rfl]
        rfl)
      cases shut
  · exact (seated.sessions accepting whole session mem).imp_left fun known =>
      ids ▸ List.mem_append_left _ known
  · exact seated.followed accepting id fun known => gone (ids ▸ List.mem_append_left _ known)

theorem Seated.notify (seated : Seated net.hall net.desk) :
    Seated net.notify.hall net.notify.desk := by
  unfold Network.notify
  split
  · exact seated
  · rename_i notice rest notices
    obtain ⟨closed, way⟩ := notify_spec net.hall notice
    have context := context_notify net.hall [notice]
    have coming (accepting : net.hall.isClosed = false) :
        coming (Server.Host.notify net.hall [notice]) { net.desk with notices := rest } =
          coming net.hall net.desk := by
      obtain ⟨shut, -⟩ | ⟨-, pending⟩ := way
      · cases shut.symm.trans accepting
      · rw [Network.coming, pending, Network.coming, notices, List.append_assoc,
          ← List.filterMap_append]
        rfl
    refine ⟨seated.takes, fun accepting whole session mem => ?_, fun accepting id gone => ?_⟩
    · rw [context] at whole mem
      rw [coming (closed ▸ accepting)]
      exact seated.sessions (closed ▸ accepting) whole session mem
    · rw [coming (closed ▸ accepting)]
      exact seated.followed (closed ▸ accepting) id gone

/-- When nothing comes up any more, whoever has a session is connected. -/
theorem Seated.connected (seated : Seated hall desk) (accepting : hall.isClosed = false)
    (whole : hall.context.lobby.poisoned = false) (pending : hall.pending = [])
    (notices : desk.notices = []) {session : Session}
    (mem : session ∈ hall.context.lobby.sessions.sessions) :
    session.connection ∈ desk.manager.ids ∧ ¬ desk.outboxes.Refuses session.connection := by
  have known := (seated.sessions accepting whole session mem).resolve_right fun queued => by
    rw [coming, pending, notices] at queued
    cases queued
  exact ⟨known, seated.takes _ known⟩

section Steps

variable [Inhabited τ] (sound : net.Sound maxFrame)
  (chat : net.hall.context.registry = Chat.registry)

include sound chat

theorem Seated.serve (seated : Seated net.hall net.desk) :
    Seated (net.perform code .serve).hall (net.perform code .serve).desk := by
  cases next : net.hall.pending with
  | nil =>
    have same : net.perform code .serve = net := serve_of_idle next
    exact seated.same (congrArg (·.hall) same) (congrArg (·.desk) same)
  | cons command rest =>
    have outboxes : (net.perform code .serve).desk.outboxes =
      net.desk.outboxes.offerAll (net.server.utters command) := outboxes_serve sound chat next
    have upcoming : coming net.hall net.desk =
        command :: (rest ++ net.desk.notices.filterMap entailed) := by
      rw [coming, next]
      rfl
    rw [perform, serve_of_pending next] at outboxes ⊢
    refine ⟨fun id mem refuses => seated.takes id mem ?_, fun accepting whole session mem => ?_,
      fun accepting id gone => ?_⟩
    · dsimp only at outboxes refuses
      rw [outboxes] at refuses
      exact Outboxes.refuses_of_offerAll refuses
    · have followed (gone : session.connection ∉ net.desk.manager.ids) :=
        upcoming ▸ seated.followed accepting session.connection gone
      obtain ⟨other, old, known, place⟩ | ⟨version, username, rfl⟩ :=
        sound.ready.mem_sessions_perform whole mem
      · have found : net.hall.context.lobby.poisoned = false := by
          by_contra lost
          have lost : net.server.lobby.poisoned = true := Bool.not_eq_false _ ▸ lost
          cases (Server.poisoned_perform lost command).symm.trans whole
        refine (seated.sessions accepting found old known).imp (fun mem => place ▸ mem)
          fun queued => ?_
        rw [upcoming, place] at queued
        exact (List.mem_cons.1 queued).resolve_left fun same => other same.symm
      · by_cases known : session.connection ∈ net.desk.manager.ids
        · exact .inl known
        · exact .inr (followed known version username _ (List.suffix_refl _))
    · exact (upcoming ▸ seated.followed accepting id gone : Followed (command :: _) id).tail

/-- No step leaves a session behind whose connection is gone and whose end does not come up. -/
theorem Seated.perform (seated : Seated net.hall net.desk) (action : Action κ ν ω) :
    Seated (net.perform code action).hall (net.perform code action).desk := by
  cases action with
  | dial address username state => exact seated.dial sound address
  | serverReads id lull arrivals =>
    rw [Network.perform, Network.serverReads]
    split
    · rw [hall_onPeer]
      exact seated.proceed (Desk.proceeds_read _ _ _)
    · exact seated
  | serverWrites id answers =>
    rw [Network.perform, Network.serverWrites, hall_onPeer]
    exact seated.proceed (Desk.proceeds_flush _ _ _)
  | serverCloses id => exact seated.proceed (.close _ id)
  | notify => exact seated.notify
  | serve => exact seated.serve sound chat
  | wait milliseconds => exact ⟨seated.takes, seated.sessions, seated.followed⟩
  | stopServing =>
    refine ⟨seated.takes, fun accepting => ?_, fun accepting => ?_⟩
    · cases accepting
    · cases accepting
  | duplicate id response =>
    rw [Network.perform]
    split
    · rw [onClient, onJoined, hall_onPeer, desk_onPeer]
      exact seated
    · exact seated
  | _ => exact seated.same hall_onPeer desk_onPeer

end Steps

end Network

end Parley
