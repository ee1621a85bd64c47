import Parley.Server.Host
import Parley.Proofs.Client.Conduct
import Parley.Proofs.Client.Reading
import Parley.Proofs.Connection.Desk
import Parley.Proofs.Server.Commands

/-! A server and its clients, run in any order of steps.
A step is one that a thread takes on its own: a turn of reading or writing at either end of a
connection, one queued command at either end, one half of a call. What is under way between the
ends is bytes, and they arrive in pieces of any size. -/

namespace Parley

open Client (Call Code Deed Logon)
open Connection (Arrival Desk Lull Notice WriteAnswer turn)
open Server (Hall)
open Wire (Bytes FrameReader)

namespace Network

inductive Stage (κ ν ω : Type) where
  | joining (reader : FrameReader)
  | joined (client : Client κ ν ω)
  | failed (error : Client.ClientError)

structure Peer (κ ν ω : Type) where
  id : ConnectionId
  /-- The state in which the client's own code begins. -/
  state : ω
  stage : Stage κ ν ω := .joining { limit := Wire.defaultMaxFrame }
  toServer : Bytes := []
  toClient : Bytes := []
  /-- Calls that were begun and are not concluded, the oldest first. -/
  calls : List (Request × List Token) := []

/-- What there is to remember of a run. -/
inductive Event (κ : Type) where
  | dialled (connection : ConnectionId) (username : String)
  | granted (connection : ConnectionId) (oid : Oid)
  /-- The server has handled a request, and has posted the responses on that occasion. -/
  | dispatched (connection : ConnectionId) (request : Request) (responses : List Response)
  | did (connection : ConnectionId) (deed : Deed κ)
  deriving DecidableEq, Repr

inductive Action (κ ν ω : Type) where
  /-- A new client connects, and says its name. -/
  | dial (address username : String) (state : ω)
  | serverReads (id : ConnectionId) (lull : Lull) (arrivals : List Arrival)
  | serverWrites (id : ConnectionId) (answers : List WriteAnswer)
  | serverCloses (id : ConnectionId)
  /-- The server puts into its queue what it was told first of all. -/
  | notify
  /-- The server runs the oldest queued command. -/
  | serve
  | wait (milliseconds : Nat)
  | stopServing
  | clientReads (id : ConnectionId) (lull : Lull) (arrivals : List Arrival)
  | clientWrites (id : ConnectionId) (answers : List WriteAnswer)
  /-- The client runs the oldest queued command. -/
  | clientRuns (id : ConnectionId)
  | begin (id : ConnectionId) (call : Call κ)
  | conclude (id : ConnectionId) (index : Nat)
  | ping (id : ConnectionId) (time : UInt64)
  | logoff (id : ConnectionId)
  | observe (id : ConnectionId) (name : ν)
  /-- The client's director is handed once more what the server has posted to anybody. -/
  | duplicate (id : ConnectionId) (response : Response)
  | stopQueue (id : ConnectionId)
  | stopWriting (id : ConnectionId)

end Network

open Network

structure Network (τ α κ ν ω : Type) where
  hall : Hall τ α
  desk : Desk
  peers : List (Peer κ ν ω) := []
  history : List (Event κ) := []

namespace Network

variable (code : Code κ ν ω)

def new [Inhabited τ] (maxClients maxFrame : Nat) (app : α) : Network τ α κ ν ω where
  hall := .new maxClients app
  desk := { manager := { limit := maxFrame }, outboxes := {} }

/-- Works on a client and its connection, and remembers what comes of it. -/
def onPeer (net : Network τ α κ ν ω) (id : ConnectionId)
    (work : Peer κ ν ω → List (Event κ) × Peer κ ν ω) : Network τ α κ ν ω :=
  match net.peers.find? (·.id = id) with
  | none => net
  | some peer =>
    let (events, peer) := work peer
    { net with
      peers := net.peers.map fun p => if p.id = id then peer else p
      history := net.history ++ events }

def whenJoined (id : ConnectionId) (work : Client κ ν ω → Peer κ ν ω → List (Deed κ) × Peer κ ν ω)
    (peer : Peer κ ν ω) : List (Event κ) × Peer κ ν ω :=
  match peer.stage with
  | .joined client => ((work client peer).1.map (.did id), (work client peer).2)
  | _ => ([], peer)

def onJoined (net : Network τ α κ ν ω) (id : ConnectionId)
    (work : Client κ ν ω → Peer κ ν ω → List (Deed κ) × Peer κ ν ω) : Network τ α κ ν ω :=
  net.onPeer id (whenJoined id work)

def onClient (net : Network τ α κ ν ω) (id : ConnectionId)
    (work : Client κ ν ω → List (Deed κ) × Client κ ν ω) : Network τ α κ ν ω :=
  net.onJoined id fun client peer =>
    let (deeds, client) := work client
    (deeds, { peer with stage := .joined client })

def dial (net : Network τ α κ ν ω) (address username : String) (state : ω) :
    Network τ α κ ν ω :=
  let id := net.desk.manager.nextId
  { net with
    desk := net.desk.accept address
    peers := net.peers ++ [{ id, state, toServer := (Logon.greeting username).toFrame }]
    history := net.history ++ [.dialled id username] }

def serverReads (net : Network τ α κ ν ω) (id : ConnectionId) (lull : Lull)
    (arrivals : List Arrival) : Network τ α κ ν ω :=
  match net.peers.find? (·.id = id), net.desk.manager.find? id with
  | some peer, some _ =>
    let (answers, toServer) := turn lull peer.toServer arrivals
    { net.onPeer id fun peer => ([], { peer with toServer }) with
      desk := net.desk.read id answers }
  | _, _ => net

def serverWrites (net : Network τ α κ ν ω) (id : ConnectionId) (answers : List WriteAnswer) :
    Network τ α κ ν ω :=
  let (written, desk) := net.desk.flush id answers
  { net.onPeer id fun peer => ([], { peer with toClient := peer.toClient ++ written }) with desk }

def notify (net : Network τ α κ ν ω) : Network τ α κ ν ω :=
  match net.desk.notices with
  | [] => net
  | notice :: rest =>
    { net with
      hall := Server.Host.notify net.hall [notice]
      desk := { net.desk with notices := rest } }

def serverEvents (server : Server τ α) : Server.Command → List (Event κ)
  | .handleRequest connection request =>
    [.dispatched connection request (server.answers connection request)]
  | command => (server.grants command).map fun (connection, oid) => .granted connection oid

def server (net : Network τ α κ ν ω) : Server τ α :=
  net.hall.context.modifyLobby fun lobby => { lobby with outboxes := net.desk.outboxes }

def serve (net : Network τ α κ ν ω) : Network τ α κ ν ω :=
  let hall : Hall τ α := { net.hall with context := net.server }
  match net.hall.pending, hall.step? Server.behave with
  | command :: _, some hall =>
    { net with
      hall
      desk := { net.desk with outboxes := hall.context.lobby.outboxes }
      history := net.history ++ serverEvents net.server command }
  | _, _ => net

def Peer.read (peer : Peer κ ν ω) (lull : Lull) (arrivals : List Arrival) : Peer κ ν ω :=
  let (answers, toClient) := turn lull peer.toClient arrivals
  match peer.stage with
  | .joining reader =>
    match Logon.proceed reader answers with
    | (.waiting reader, _) => { peer with stage := .joining reader, toClient }
    | (.welcome oid services reader, answers) =>
      let client := (Client.new oid services reader peer.state).read answers
      { peer with stage := .joined client, toClient }
    | (.failed error, _) => { peer with stage := .failed error, toClient }
  | .joined client =>
    if client.reading then { peer with stage := .joined (client.read answers), toClient }
    else peer
  | .failed _ => peer

def clientReads (net : Network τ α κ ν ω) (id : ConnectionId) (lull : Lull)
    (arrivals : List Arrival) : Network τ α κ ν ω :=
  net.onPeer id fun peer => ([], peer.read lull arrivals)

def clientWrites (net : Network τ α κ ν ω) (id : ConnectionId) (answers : List WriteAnswer) :
    Network τ α κ ν ω :=
  net.onJoined id fun client peer =>
    let (written, client) := client.write answers
    ([], { peer with stage := .joined client, toServer := peer.toServer ++ written })

def runOne (client : Client κ ν ω) : List (Deed κ) × Client κ ν ω :=
  match client.queue.pending, client.queue.step? (Client.Context.behave code) with
  | command :: _, some queue =>
    (client.queue.context.deeds code command, { client with queue })
  | _, _ => ([], client)

def begin (net : Network τ α κ ν ω) (id : ConnectionId) (call : Call κ) : Network τ α κ ν ω :=
  net.onJoined id fun client peer =>
    let (result, director) := client.desk.director.begin call
    let client' := client.setDesk { client.desk with director }
    let calls := peer.calls ++ result.toOption.toList
    (client.desk.callDeeds call, { peer with stage := .joined client', calls })

def conclude (net : Network τ α κ ν ω) (id : ConnectionId) (index : Nat) :
    Network τ α κ ν ω :=
  net.onJoined id fun client peer =>
    match peer.calls[index]? with
    | some (request, tokens) =>
      let client := client.setDesk (client.desk.conclude request tokens).2
      ([], { peer with stage := .joined client, calls := peer.calls.eraseIdx index })
    | none => ([], peer)

def posted (history : List (Event κ)) : List Response :=
  history.flatMap fun | .dispatched _ _ responses => responses | _ => []

def perform (net : Network τ α κ ν ω) : Action κ ν ω → Network τ α κ ν ω
  | .dial address username state => net.dial address username state
  | .serverReads id lull arrivals => net.serverReads id lull arrivals
  | .serverWrites id answers => net.serverWrites id answers
  | .serverCloses id => { net with desk := net.desk.close id }
  | .notify => net.notify
  | .serve => net.serve
  | .wait milliseconds =>
    let context := net.hall.context.modifyLobby fun lobby =>
      { lobby with clock := lobby.clock + milliseconds }
    { net with hall := { net.hall with context } }
  | .stopServing => { net with hall := net.hall.shutdown }
  | .clientReads id lull arrivals => net.clientReads id lull arrivals
  | .clientWrites id answers => net.clientWrites id answers
  | .clientRuns id => net.onClient id (runOne code)
  | .begin id call => net.begin id call
  | .conclude id index => net.conclude id index
  | .ping id time => net.onClient id fun client => ([], (client.post (.ping time)).2)
  | .logoff id => net.onClient id fun client => ([], (client.post .logoff).2)
  | .observe id name => net.onClient id fun client => ([], (client.enqueue (.addObserver name)).2)
  | .duplicate id response =>
    if response ∈ posted net.history then
      net.onClient id fun client =>
        (client.desk.dispatchDeeds code.listen response,
          client.setDesk (client.desk.dispatch code.listen response).2)
    else net
  | .stopQueue id =>
    net.onClient id fun client => ([], { client with queue := client.queue.shutdown })
  | .stopWriting id =>
    net.onClient id fun client =>
      ([], { client with unsent := [], writing := false }.setDesk
        { client.desk with outgoing := { refusal := some .closed } })

def run (net : Network τ α κ ν ω) (actions : List (Action κ ν ω)) : Network τ α κ ν ω :=
  actions.foldl (perform code) net

/-- The states that a network comes to from its start, in any order of steps. -/
def Reachable [Inhabited τ] (maxFrame : Nat) (net : Network τ α κ ν ω) : Prop :=
  ∃ maxClients app actions, (Network.new maxClients maxFrame app).run code actions = net

theorem run_append (net : Network τ α κ ν ω) (actions more : List (Action κ ν ω)) :
    net.run code (actions ++ more) = (net.run code actions).run code more := List.foldl_append

def deedsOf (connection : ConnectionId) (history : List (Event κ)) : List (Deed κ) :=
  history.filterMap fun
    | .did id deed => if id = connection then some deed else none
    | _ => none

/-- The outcomes for a token of a client: the listener that had it, and the answer it comes from, or
none for the end of the session. -/
def outcomes (connection : ConnectionId) (token : Token) (history : List (Event κ)) :
    List (κ × Option Response) :=
  (deedsOf connection history).filterMap fun
    | .heard heard name cause => if heard = token then some (name, cause) else none
    | _ => none

section Bookkeeping

variable {net : Network τ α κ ν ω} {id : ConnectionId}

theorem serve_of_pending {command : Server.Command} {rest : List Server.Command}
    (next : net.hall.pending = command :: rest) :
    net.serve = { net with
      hall := { net.hall with
        context := (net.server.perform command).2
        pending := rest
        executed := net.hall.executed + 1 }
      desk := { net.desk with outboxes := (net.server.perform command).2.lobby.outboxes }
      history := net.history ++ serverEvents net.server command } := by
  have stepped : ({ net.hall with context := net.server } : Hall τ α).step? Server.behave = _ :=
    Server.step?_behave next
  dsimp only at stepped
  unfold serve
  dsimp only
  rw [stepped, next]

theorem serve_of_idle (idle : net.hall.pending = []) : net.serve = net := by
  unfold serve
  rw [idle]

theorem runOne_of_pending {client : Client κ ν ω} {command : Client.Command ν}
    {rest : List (Client.Command ν)} (next : client.queue.pending = command :: rest) :
    runOne code client = (client.queue.context.deeds code command, { client with
      queue := { client.queue with
        context := (client.queue.context.perform code command).2
        pending := rest
        executed := client.queue.executed + 1 } }) := by
  unfold runOne
  rw [Client.Context.step?_behave code next, next]

theorem runOne_of_idle {client : Client κ ν ω} (idle : client.queue.pending = []) :
    runOne code client = ([], client) := by
  unfold runOne
  rw [idle]

variable {work : Peer κ ν ω → List (Event κ) × Peer κ ν ω}

@[simp] theorem hall_onPeer : (net.onPeer id work).hall = net.hall := by
  unfold onPeer
  split <;> rfl

@[simp] theorem desk_onPeer : (net.onPeer id work).desk = net.desk := by
  unfold onPeer
  split <;> rfl

theorem id_of_find? {peers : List (Peer κ ν ω)} {peer : Peer κ ν ω}
    (found : peers.find? (·.id = id) = some peer) : peer.id = id := by
  simpa using List.find?_some found

theorem onPeer_of_found {peer : Peer κ ν ω} (found : net.peers.find? (·.id = id) = some peer) :
    (net.onPeer id work).history = net.history ++ (work peer).1 := by
  unfold onPeer
  rw [found]

theorem of_mem_onPeer {p : Peer κ ν ω} (mem : p ∈ (net.onPeer id work).peers) :
    (∃ peer, net.peers.find? (·.id = id) = some peer ∧ p = (work peer).2) ∨
      (p ∈ net.peers ∧ p.id ≠ id) := by
  unfold onPeer at mem
  split at mem
  · rename_i missing
    exact .inr ⟨mem, by simpa using List.find?_eq_none.1 missing p mem⟩
  · rename_i peer found
    obtain ⟨q, known, rfl⟩ := List.mem_map.1 mem
    by_cases own : q.id = id
    · exact .inl ⟨peer, found, if_pos own⟩
    · rw [if_neg own]
      exact .inr ⟨known, own⟩

theorem onPeer_spec (net : Network τ α κ ν ω) (id : ConnectionId)
    (work : Peer κ ν ω → List (Event κ) × Peer κ ν ω) :
    net.onPeer id work = net ∨ ∃ peer ∈ net.peers, peer.id = id ∧
      (net.onPeer id work).history = net.history ++ (work peer).1 := by
  cases found : net.peers.find? (·.id = id) with
  | none => exact .inl (by rw [onPeer, found])
  | some peer =>
    exact .inr ⟨peer, List.mem_of_find?_eq_some found, id_of_find? found, onPeer_of_found found⟩

/-- What holds of every peer goes on holding if it outlasts what the others do, and if the work
keeps it up for the peer that is worked on. -/
theorem forall_onPeer {P : List (Event κ) → Peer κ ν ω → Prop}
    (all : ∀ peer ∈ net.peers, P net.history peer)
    (others : ∀ peer ∈ net.peers, ∀ p ∈ net.peers, p.id ≠ id →
      P net.history p → P (net.history ++ (work peer).1) p)
    (own : ∀ peer ∈ net.peers, peer.id = id →
      (net.onPeer id work).history = net.history ++ (work peer).1 →
      P net.history peer → P (net.history ++ (work peer).1) (work peer).2) :
    ∀ peer ∈ (net.onPeer id work).peers, P (net.onPeer id work).history peer := by
  intro p mem
  obtain ⟨peer, found, rfl⟩ | ⟨known, apart⟩ := of_mem_onPeer mem
  · have mem' := List.mem_of_find?_eq_some found
    have history : (net.onPeer id work).history = net.history ++ (work peer).1 :=
      onPeer_of_found found
    rw [history]
    exact own peer mem' (id_of_find? found) history (all peer mem')
  · obtain same | ⟨peer, mem', -, history⟩ := net.onPeer_spec id work
    · rw [same]
      exact all p known
    · rw [history]
      exact others peer mem' p known apart (all p known)

theorem map_id_onPeer (same : ∀ peer ∈ net.peers, (work peer).2.id = peer.id) :
    (net.onPeer id work).peers.map (·.id) = net.peers.map (·.id) := by
  unfold onPeer
  split
  · rfl
  · rename_i peer found
    rw [List.map_map]
    refine List.map_congr_left fun p _ => ?_
    by_cases own : p.id = id
    · simp [own, same peer (List.mem_of_find?_eq_some found), id_of_find? found]
    · simp [own]

theorem history_onPeer (silent : ∀ peer, (work peer).1 = []) :
    (net.onPeer id work).history = net.history := by
  obtain same | ⟨peer, -, -, history⟩ := net.onPeer_spec id work
  · rw [same]
  · rw [history, silent, List.append_nil]

theorem whenJoined_cases (id : ConnectionId) (peer : Peer κ ν ω)
    (work : Client κ ν ω → Peer κ ν ω → List (Deed κ) × Peer κ ν ω) :
    (∃ client, peer.stage = .joined client ∧
      whenJoined id work peer = ((work client peer).1.map (.did id), (work client peer).2)) ∨
    whenJoined id work peer = ([], peer) := by
  unfold whenJoined
  cases peer.stage with
  | joined client => exact .inl ⟨client, rfl, rfl⟩
  | _ => exact .inr rfl

theorem whenJoined_of_joined {peer : Peer κ ν ω} {client : Client κ ν ω}
    {work : Client κ ν ω → Peer κ ν ω → List (Client.Deed κ) × Peer κ ν ω}
    (stage : peer.stage = .joined client) :
    whenJoined id work peer = ((work client peer).1.map (.did id), (work client peer).2) := by
  unfold whenJoined
  rw [stage]

theorem whenJoined_of_stranger {peer : Peer κ ν ω}
    {work : Client κ ν ω → Peer κ ν ω → List (Client.Deed κ) × Peer κ ν ω}
    (stage : ∀ client, peer.stage ≠ .joined client) : whenJoined id work peer = ([], peer) := by
  unfold whenJoined
  cases known : peer.stage with
  | joined client => exact (stage client known).elim
  | _ => rfl

theorem prefix_onPeer : net.history <+: (net.onPeer id work).history := by
  obtain same | ⟨peer, -, -, history⟩ := net.onPeer_spec id work
  · exact ⟨[], by rw [same, List.append_nil]⟩
  · exact ⟨_, history.symm⟩

end Bookkeeping

end Network

end Parley
