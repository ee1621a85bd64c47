import Parley.Proofs.Chat.Speech
import Parley.Proofs.Network.Downstream

/-! What the server of a network says.
The one service of the server stays the chat service, whatever happens; so all that the server ever
posts while it runs a command is what such a server has to say. -/

namespace Parley.Network

open Client (Code)

variable {maxFrame : Nat} {net : Network τ α κ ν ω} {code : Code κ ν ω} {action : Action κ ν ω}

theorem context_perform (other : action ≠ .serve)
    (still : ∀ milliseconds, action ≠ .wait milliseconds) :
    (net.perform code action).hall.context = net.hall.context := by
  cases action with
  | serve => exact (other rfl).elim
  | wait milliseconds => exact (still milliseconds rfl).elim
  | dial address username state => rfl
  | serverReads id lull arrivals =>
    unfold perform serverReads
    dsimp only
    split
    · dsimp only
      rw [hall_onPeer]
    · rfl
  | serverWrites id answers =>
    unfold perform serverWrites
    dsimp only
    rw [hall_onPeer]
  | serverCloses id => rfl
  | notify =>
    unfold perform Network.notify
    dsimp only
    split
    · rfl
    · exact context_notify _ _
  | stopServing => rfl
  | duplicate id response =>
    unfold perform
    dsimp only
    split
    · rw [onClient, onJoined, hall_onPeer]
    · rfl
  | clientReads id lull arrivals => rw [perform, clientReads, hall_onPeer]
  | clientWrites id answers => rw [perform, clientWrites, onJoined, hall_onPeer]
  | clientRuns id => rw [perform, onClient, onJoined, hall_onPeer]
  | begin id call => rw [perform, Network.begin, onJoined, hall_onPeer]
  | conclude id index => rw [perform, Network.conclude, onJoined, hall_onPeer]
  | ping id time => rw [perform, onClient, onJoined, hall_onPeer]
  | logoff id => rw [perform, onClient, onJoined, hall_onPeer]
  | observe id name => rw [perform, onClient, onJoined, hall_onPeer]
  | stopQueue id => rw [perform, onClient, onJoined, hall_onPeer]
  | stopWriting id => rw [perform, onClient, onJoined, hall_onPeer]

variable [Inhabited τ]

theorem registry_perform (sound : net.Sound maxFrame)
    (chat : net.hall.context.registry = Chat.registry) (action : Action κ ν ω) :
    (net.perform code action).hall.context.registry = Chat.registry := by
  by_cases serving : action = .serve
  · subst serving
    unfold perform
    dsimp only
    cases next : net.hall.pending with
    | nil => rwa [serve_of_idle next]
    | cons command rest =>
      have ready : net.server.registry = Chat.registry := chat
      rw [serve_of_pending next]
      exact (Server.outboxes_perform ready sound.ready.consistent command).1
  · by_cases waiting : ∃ milliseconds, action = .wait milliseconds
    · obtain ⟨milliseconds, rfl⟩ := waiting
      exact chat
    · rwa [context_perform serving fun milliseconds same => waiting ⟨milliseconds, same⟩]

/-- In every state that a network comes to, its server offers chat and nothing else. -/
theorem Reachable.chat (reachable : net.Reachable code maxFrame) :
    net.hall.context.registry = Chat.registry := by
  obtain ⟨maxClients, app, actions, rfl⟩ := reachable
  have start : (Network.new maxClients maxFrame app : Network τ α κ ν ω).Sound maxFrame := .new ..
  have chat : (Network.new maxClients maxFrame app : Network τ α κ ν ω).hall.context.registry =
    Chat.registry := rfl
  revert start chat
  generalize (Network.new maxClients maxFrame app : Network τ α κ ν ω) = net
  intro sound chat
  induction actions generalizing net with
  | nil => exact chat
  | cons action rest ih =>
    exact ih _ (sound.perform action) (registry_perform sound chat action)

end Parley.Network
