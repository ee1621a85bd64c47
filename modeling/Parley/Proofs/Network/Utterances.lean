import Parley.Proofs.Connection.Thread
import Parley.Proofs.Network.Order
import Parley.Proofs.Network.Voices
import Parley.Proofs.Server.Traffic

/-! What the server of a network tries to say.
While it runs a command it posts messages, and a connection that takes anything takes all of them
that are for it, as long as none is too long. -/

namespace Parley

namespace Network

open Client (Code)
open Wire (frames)

variable {maxFrame : Nat} {net : Network τ α κ ν ω} {code : Code κ ν ω} {id : ConnectionId}
  {action : Action κ ν ω} {command : Server.Command} {rest : List Server.Command}

/-- The messages that the server posts in a step in which it runs a command, whoever takes them. -/
def uttering (net : Network τ α κ ν ω) : Action κ ν ω → List (ConnectionId × Message)
  | .serve =>
    match net.hall.pending with
    | command :: _ => net.server.utters command
    | [] => []
  | _ => []

def utterances (code : Code κ ν ω) (net : Network τ α κ ν ω) :
    List (Action κ ν ω) → List (ConnectionId × Message)
  | [] => []
  | action :: rest => net.uttering action ++ (net.perform code action).utterances code rest

theorem uttering_of_pending (next : net.hall.pending = command :: rest) :
    net.uttering (.serve : Action κ ν ω) = net.server.utters command := by
  rw [uttering, next]

section Serving

variable [Inhabited τ] (sound : net.Sound maxFrame)
  (chat : net.hall.context.registry = Chat.registry) (next : net.hall.pending = command :: rest)

include sound chat next

theorem outboxes_serve : (net.perform code .serve).desk.outboxes =
    net.desk.outboxes.offerAll (net.server.utters command) := by
  have ready : net.server.registry = Chat.registry := chat
  rw [perform, serve_of_pending next]
  exact (Server.outboxes_perform ready sound.ready.consistent command).2

variable (fits : ∀ post ∈ net.server.utters command,
  post.2.encode.length ≤ maxFrame ∧ post.2.Framable)

include fits

theorem posted_serve (takes : ¬ net.desk.outboxes.Refuses id) :
    (net.entry code .serve).posted id = Outboxes.mail id (net.server.utters command) := by
  have posted : (net.entry code .serve).posted id =
    gained net.desk.outboxes (net.perform code .serve).desk.outboxes id := rfl
  rw [Outboxes.refuses_iff] at takes
  simp only [Classical.not_forall, Bool.not_eq_true] at takes
  obtain ⟨box, found, opened⟩ := takes
  have limit := sound.limits id box found
  have after : (net.perform code .serve).desk.outboxes.find? id = some { box with
      buffer := box.buffer ++ frames (Outboxes.mail id (net.server.utters command)) } := by
    rw [outboxes_serve sound chat next, Outboxes.find?_offerAll, found, Option.map_some,
      if_pos opened]
    intro post mem box known _
    rw [sound.limits post.1 box known]
    exact (fits post mem).1
  rw [posted, gained_of_present found after]
  dsimp only
  rw [List.drop_left]
  refine Wire.FrameReader.drainMessages_frames (fun message mem => ?_) fun message mem => ?_
  · rw [limit]
    exact (fits _ (Outboxes.mem_mail.1 mem)).1
  · exact (fits _ (Outboxes.mem_mail.1 mem)).2

theorem posted_serve_of_refuses (refuses : net.desk.outboxes.Refuses id) :
    (net.entry code .serve).posted id = [] := by
  have posted : (net.entry code .serve).posted id =
    gained net.desk.outboxes (net.perform code .serve).desk.outboxes id := rfl
  rw [posted]
  cases found : net.desk.outboxes.find? id with
  | none => exact gained_of_absent found
  | some box =>
    have shut := Outboxes.refuses_iff.1 refuses box found
    have after : (net.perform code .serve).desk.outboxes.find? id = some box := by
      rw [outboxes_serve sound chat next, Outboxes.find?_offerAll, found, Option.map_some, shut]
      · rfl
      · intro post mem box known _
        rw [sound.limits post.1 box known]
        exact (fits post mem).1
    exact gained_of_shorter found after (Nat.le_refl _)

end Serving

theorem refuses_perform [Inhabited τ] (sound : net.Sound maxFrame)
    (chat : net.hall.context.registry = Chat.registry) (known : id < net.desk.manager.nextId)
    (refuses : net.desk.outboxes.Refuses id) (action : Action κ ν ω) :
    (net.perform code action).desk.outboxes.Refuses id := by
  cases action with
  | dial address username state => exact refuses.add (Nat.ne_of_lt known)
  | serverReads other lull arrivals =>
    rw [perform, Network.serverReads]
    split
    · exact Connection.Desk.refuses_read refuses other _
    · exact refuses
  | serverWrites other answers => exact Connection.Desk.refuses_flush refuses other answers
  | serverCloses other => exact Connection.Desk.refuses_close refuses other
  | notify =>
    rw [perform, outboxes_notify]
    exact refuses
  | serve =>
    cases next : net.hall.pending with
    | nil =>
      rw [perform, serve_of_idle next]
      exact refuses
    | cons command rest =>
      rw [outboxes_serve sound chat next]
      exact (Outboxes.Stands.offerAll _ _).refuses id refuses
  | duplicate other response =>
    rw [perform]
    split
    · rw [onClient, onJoined, desk_onPeer]
      exact refuses
    · exact refuses
  | wait milliseconds => exact refuses
  | stopServing => exact refuses
  | clientReads other lull arrivals =>
    rw [perform, clientReads, desk_onPeer]
    exact refuses
  | clientWrites other answers =>
    rw [perform, clientWrites, onJoined, desk_onPeer]
    exact refuses
  | begin other call =>
    rw [perform, Network.begin, onJoined, desk_onPeer]
    exact refuses
  | conclude other index =>
    rw [perform, Network.conclude, onJoined, desk_onPeer]
    exact refuses
  | _ =>
    rw [perform, onClient, onJoined, desk_onPeer]
    exact refuses

end Network

end Parley
