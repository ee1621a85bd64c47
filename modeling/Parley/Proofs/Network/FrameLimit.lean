import Parley.Proofs.Chat.LongLines
import Parley.Proofs.Network.Downstream

/-! How long a message a client can be sent.
A client takes messages up to a length that is the same for all clients, and the server posts
messages up to a length that it was configured with. No client is sent a message that is too long
for it if the server's limit is no greater than that of the clients; if it is greater, a client can
be. -/

namespace Parley

open Client (Call Logon)
open Dispatch (Chain DispatchTable Program Registry)
open Connection (Desk Manager Notice WriteAnswer turn)
open Server (Hall)
open Wire (Bytes FrameReader)

namespace Network

variable {maxFrame limit : Nat} {net : Network τ α κ ν ω} {code : Client.Code κ ν ω}

/-- The client has met a frame that is too long for it, and can read no further. -/
def Peer.Overrun (peer : Peer κ ν ω) : Prop :=
  match peer.stage with
  | .joining reader => ∃ error, reader.next.1 = .error error
  | .joined client => ∃ error, client.reader.next.1 = .error error
  | .failed error => ∃ length limit, error = .protocol (.frameTooLarge length limit)

theorem Hears.not_overrun {outboxes : Outboxes} {history : List (Event κ)} {id : ConnectionId}
    {toClient : Bytes} {reader : FrameReader} {reading : Bool}
    (hears : Hears maxFrame outboxes history id toClient reader reading)
    (within : maxFrame ≤ Wire.defaultMaxFrame) : ¬ ∃ error, reader.next.1 = .error error := by
  obtain ⟨limit, coming, messages, awaits, good, -⟩ := hears
  intro overrun
  obtain ⟨error, failed⟩ := overrun
  rcases next : reader.next with ⟨result, after⟩
  rw [next] at failed
  obtain rfl : result = .error error := failed
  obtain ⟨-, message, mem, large⟩ := awaits.next_error next
  have small := (good message mem).1
  omega

theorem Sound.not_overrun (sound : net.Sound maxFrame) (within : maxFrame ≤ Wire.defaultMaxFrame)
    {peer : Peer κ ν ω} (mem : peer ∈ net.peers) : ¬ peer.Overrun := by
  have small : maxFrame < 256 ^ Wire.headerLength := Nat.lt_of_le_of_lt within (by decide)
  have listens := sound.listens small peer mem
  unfold Peer.Listens at listens
  unfold Peer.Overrun
  cases stage : peer.stage with
  | joining reader =>
    rw [stage] at listens
    exact Hears.not_overrun listens within
  | joined client =>
    rw [stage] at listens
    exact listens.1.not_overrun within
  | failed error =>
    rw [stage] at listens
    intro overrun
    obtain ⟨length, limit, same⟩ := overrun
    obtain ⟨cause, io⟩ | beyond := listens _ same
    · cases io
    · omega

def lone (limit : Nat) (hall : Hall τ α) (outboxes : Outboxes) (notices : List Notice)
    (peer : Peer κ ν ω) (history : List (Event κ)) : Network τ α κ ν ω where
  hall
  desk :=
    { manager := { limit, connections := [{ id := 2, reader := { limit } }], nextId := 3 }
      outboxes, notices }
  peers := [peer]
  history

def holding (limit : Nat) (buffer : Bytes) (requested : List ConnectionId) (woken : Bool) :
    Outboxes := ⟨[{ id := 2, address := "", limit, buffer }], requested, woken⟩

section Lone

variable {hall : Hall τ α} {outboxes : Outboxes} {notices : List Notice}
  {peer : Peer κ ν ω} {history : List (Event κ)} {message : Message}

theorem lone_onPeer (own : peer.id = 2) (work : Peer κ ν ω → List (Event κ) × Peer κ ν ω) :
    (lone limit hall outboxes notices peer history).onPeer 2 work =
      lone limit hall outboxes notices (work peer).2 (history ++ (work peer).1) := by
  simp [onPeer, lone, own]

theorem lone_serverReads (own : peer.id = 2) (written : peer.toServer = message.toFrame)
    (small : message.Framable) (le : message.encode.length ≤ limit)
    (noted : ∀ desk : Desk, desk.receive 2 [message] =
      (false, { desk with notices := desk.notices ++ [.received 2 message] })) :
    (lone limit hall outboxes notices peer history).serverReads 2 .wouldBlock
        [.piece message.toFrame.length] =
      lone limit hall outboxes (notices ++ [.received 2 message]) { peer with toServer := [] }
        history := by
  have found : (lone limit hall outboxes notices peer history).peers.find? (·.id = 2) =
      some peer := by simp [lone, own]
  have connected : (lone limit hall outboxes notices peer history).desk.manager.find? 2 =
      some { id := 2, reader := { limit } } := rfl
  have turned : turn .wouldBlock peer.toServer [.piece message.toFrame.length] =
      ([.data message.toFrame, .wouldBlock], []) := by
    rw [written, turn, List.take_length, List.drop_length]
    rfl
  have read : (lone limit hall outboxes notices peer history).desk.read 2
      [.data message.toFrame, .wouldBlock] =
      { (lone limit hall outboxes notices peer history).desk with
        notices := notices ++ [.received 2 message] } := by
    rw [Desk.read, connected]
    dsimp only
    rw [Connection.readMessages_toFrame small le rfl]
    dsimp only
    rw [noted]
    rfl
  unfold serverReads
  rw [found, connected]
  dsimp only
  rw [turned]
  dsimp only
  rw [read, lone_onPeer own, List.append_nil]
  rfl

theorem lone_serverWrites (own : peer.id = 2) {bytes : Bytes} (some : bytes ≠ [])
    (requested : List ConnectionId) (woken : Bool) :
    (lone limit hall (holding limit bytes requested woken) notices peer history).serverWrites 2
        [.accepted bytes.length] =
      lone limit hall (holding limit [] requested woken) notices
        { peer with toClient := peer.toClient ++ bytes } history := by
  have flush : (lone limit hall (holding limit bytes requested woken) notices peer
      history).desk.flush 2 [.accepted bytes.length] = (bytes,
      (lone limit hall (holding limit [] requested woken) notices peer history).desk) := by
    simp [Desk.flush, Desk.write, Desk.pour, Desk.watch, lone, holding, Manager.find?,
      Outboxes.find?, Outboxes.replace, Outbox.flush, Connection.writeOut_accepted some]
  unfold serverWrites
  rw [flush]
  dsimp only
  rw [lone_onPeer own, List.append_nil]
  rfl

theorem lone_clientReads (own : peer.id = 2) (lull : Connection.Lull)
    (arrivals : List Connection.Arrival) :
    (lone limit hall outboxes notices peer history).clientReads 2 lull arrivals =
      lone limit hall outboxes notices (peer.read lull arrivals) history := by
  rw [clientReads, lone_onPeer own, List.append_nil]

theorem lone_notify (accepting : hall.isClosed = false) {command : Server.Command}
    (asked : Server.command? 2 message = some command) :
    (lone limit hall outboxes [.received 2 message] peer history).notify =
      lone limit { hall with pending := hall.pending ++ [command] } outboxes [] peer history := by
  simp [notify, lone, Server.Host.notify, Hall.receive, asked, ActionQueue.enqueue, accepting]

theorem lone_serve (limit : Nat) (server : Server τ α) (command : Server.Command)
    (executed : Nat) (outboxes : Outboxes) (notices : List Notice) (peer : Peer κ ν ω)
    (history : List (Event κ)) :
    (lone limit { context := server, pending := [command], executed } outboxes notices peer
        history).serve =
      let server := server.modifyLobby fun lobby => { lobby with outboxes }
      lone limit { context := (server.perform command).2, executed := executed + 1 }
        (server.perform command).2.lobby.outboxes notices peer
        (history ++ serverEvents server command) := by
  have next : (lone limit ({ context := server, pending := [command], executed } : Hall τ α)
      outboxes notices peer history).hall.pending = command :: [] := rfl
  rw [serve_of_pending next]
  rfl

end Lone

/-! A run in which a client sets an away text, and is told of it. -/

theorem run_deliver {lobby lobby' : Server.Lobby α} {connection : ConnectionId}
    {message : Message} (posted : lobby.post connection message = (.ok (), lobby')) (own : τ)
    (sink : Response → τ × Server.Lobby α → τ × Server.Lobby α) (args : Arguments)
    (ledger : Ledger) :
    (Chat.deliver connection message).onShared.run sink args ⟨(own, lobby), ledger⟩ =
      (.returned (), ⟨(own, lobby'), ledger⟩) := by
  simp only [Chat.deliver, bind, Program.bind, Program.get, Program.onShared, Program.run, posted]

section Away

variable [Inhabited τ] (limit) (app : α)

def welcome : Message := .bootstrap 1000 [⟨Chat.service.name, 1⟩]

def hosting (outboxes : Outboxes) : Server τ α where
  registry := (Server.new 1 app : Server τ α).registry
  lobby :=
    { sessions :=
        { limit := 1, byOid := [(1000, { oid := 1000, username := "a", connection := 2 })],
          byConnection := [(2, 1000)], nextOid := 1001 }
      outboxes, app }

theorem post_holding {message : Message} (le : message.encode.length ≤ limit)
    (requested : List ConnectionId) (woken : Bool) :
    (holding limit [] requested woken).post 2 message =
      (.ok (), holding limit message.toFrame (requested ++ [2]) true) := by
  have posted : ({ id := 2, address := "", limit } : Outbox).post message =
      .ok { id := 2, address := "", limit, buffer := message.toFrame } :=
    (if_neg Bool.false_ne_true).trans (if_neg (Nat.not_lt.2 le))
  have found : (holding limit [] requested woken).find? 2 =
      some { id := 2, address := "", limit } := rfl
  rw [Outboxes.post, found]
  dsimp only
  rw [posted]
  rfl

theorem perform_logon (le : welcome.encode.length ≤ limit) :
    (((Server.new 1 app : Server τ α).modifyLobby fun lobby =>
      { lobby with outboxes := holding limit [] [] false }).perform
        (.startSession 2 protocolVersion "a")).2 =
      hosting app (holding limit welcome.toFrame [2] true) := by
  have offered : (((Server.new 1 app : Server τ α).modifyLobby fun lobby =>
      { lobby with outboxes := holding limit [] [] false }).perform
        (.startSession 2 protocolVersion "a")).2 =
      (hosting app (holding limit [] [] false)).modifyLobby (·.offer 2 welcome) := rfl
  rw [offered, Server.modifyLobby, Server.Lobby.offer, Server.Lobby.post]
  dsimp only [hosting]
  rw [post_holding limit le]
  rfl

def parting (text : String) : Request := ⟨1, Chat.away, [.str text]⟩

def noted (text : String) (requested : List ConnectionId) : Server.Lobby α :=
  let outboxes := holding limit (Chat.awayChange 1000 text).toFrame (requested ++ [2]) true
  let lobby := (hosting app outboxes : Server Unit α).lobby
  { lobby with sessions := lobby.sessions.setAway 1000 text lobby.clock }

theorem run_away {text : String} (le : (Chat.awayChange 1000 text).encode.length ≤ limit)
    (requested : List ConnectionId) (woken : Bool) (own : τ)
    (sink : Response → τ × Server.Lobby α → τ × Server.Lobby α) :
    (Chat.relay.onAway ⟨1000, "a"⟩ (parting text).args).onShared.run sink (parting text).args
      ⟨(own, (hosting app (holding limit [] requested woken) : Server τ α).lobby), {}⟩ =
      (.returned (), ⟨(own, noted limit app text requested), {}⟩) := by
  let lobby := (hosting app (holding limit [] requested woken) : Server τ α).lobby
  let later := { lobby with sessions := lobby.sessions.setAway 1000 text lobby.clock }
  have posted : later.post 2 (Chat.awayChange 1000 text) =
      (.ok (), noted limit app text requested) := by
    have same : later.outboxes = holding limit [] requested woken := rfl
    rw [Server.Lobby.post, same, post_holding limit le requested woken]
    rfl
  exact run_deliver posted own sink (parting text).args {}

theorem perform_away {text : String} (le : (Chat.awayChange 1000 text).encode.length ≤ limit)
    (requested : List ConnectionId) (woken : Bool) :
    ((hosting app (holding limit [] requested woken) : Server τ α).perform
      (.handleRequest 2 (parting text))).2.lobby = noted limit app text requested := by
  let server : Server τ α := hosting app (holding limit [] requested woken)
  have caller : server.caller? 2 = some ⟨1000, "a"⟩ := rfl
  have honest : Server.isForged ⟨1000, "a"⟩ (parting text).args = false := rfl
  have found : server.registry.find? (parting text).target = some ⟨Chat.relay.table, []⟩ := rfl
  let table : DispatchTable τ (Server.Lobby α) := Chat.relay.table
  have entry : table.entry? (parting text).method =
      some ⟨Chat.away, default, fun caller args => (Chat.relay.onAway caller args).onShared⟩ := rfl
  have dispatched : ∃ registry, server.registry.dispatch Server.Lobby.route ⟨1000, "a"⟩
      (parting text) server.lobby =
      (.returned (), registry, ⟨noted limit app text requested, {}⟩) := by
    rw [Registry.dispatch, Registry.handle, found]
    dsimp only
    rw [Chain.dispatch, DispatchTable.dispatch?, entry]
    dsimp only [Option.map]
    rw [run_away limit app le]
    exact ⟨_, rfl⟩
  obtain ⟨registry, dispatched⟩ := dispatched
  rw [Server.perform, Server.handleRequest, caller]
  dsimp only
  rw [honest, if_neg Bool.false_ne_true, dispatched]

end Away

theorem overrun_of_large {peer : Peer κ ν ω} (client : Client κ ν ω) {message : Message}
    (stage : peer.stage = .joined client) (reading : client.reading = true)
    (empty : client.reader.buffer = []) (sent : peer.toClient = message.toFrame)
    (small : message.Framable) (large : client.reader.limit < message.encode.length) :
    (peer.read .wouldBlock [.piece message.toFrame.length]).Overrun := by
  have turned : turn .wouldBlock peer.toClient [.piece message.toFrame.length] =
      ([.data message.toFrame, .wouldBlock], []) := by
    rw [sent, turn, List.take_length, List.drop_length]
    rfl
  have bound : Client.messageBound client.reader [.data message.toFrame, .wouldBlock] =
      message.toFrame.length + 1 := by
    simp [Client.messageBound_eq, empty, Connection.carried]
  have halted : (client.read [.data message.toFrame, .wouldBlock]).reader =
      client.reader.extend message.toFrame := by
    rw [Client.read, bound, Client.readAtMost, reading]
    dsimp only [Bool.not_true, Bool.false_eq_true, ↓reduceIte]
    rw [Client.nextMessage_of_large empty small large]
    rfl
  have next := FrameReader.next_extend_large empty small large
  unfold Peer.Overrun Peer.read
  rw [turned, stage]
  dsimp only
  rw [if_pos reading]
  dsimp only
  rw [halted, next]
  exact ⟨_, rfl⟩

/-- Logging on, as far as it goes in a network with one client. -/
def arrive (state : ω) : List (Action κ ν ω) :=
  [.dial "" "a" state, .serverReads 2 .wouldBlock [.piece (Logon.greeting "a").toFrame.length],
    .notify, .serve, .serverWrites 2 [.accepted welcome.toFrame.length],
    .clientReads 2 .wouldBlock [.piece welcome.toFrame.length]]

def guest (state : ω) : Client κ ν ω :=
  .new 1000 [⟨Chat.service.name, 1⟩] { limit := Wire.defaultMaxFrame } state

theorem read_welcome (state : ω) :
    ({ id := 2, state, toClient := welcome.toFrame } : Peer κ ν ω).read .wouldBlock
      [.piece welcome.toFrame.length] =
    { id := 2, state, stage := .joined (guest state) } := by
  have proceeded : Logon.proceed { limit := Wire.defaultMaxFrame }
      [.data welcome.toFrame, .wouldBlock] =
      (.welcome 1000 [⟨Chat.service.name, 1⟩] { limit := Wire.defaultMaxFrame },
        [.wouldBlock]) := by
    decide +kernel
  have turned : turn .wouldBlock welcome.toFrame [.piece welcome.toFrame.length] =
      ([.data welcome.toFrame, .wouldBlock], []) := by
    rw [turn, List.take_length, List.drop_length]
    rfl
  unfold Peer.read
  dsimp only
  rw [turned]
  dsimp only
  rw [proceeded]
  rfl

theorem run_arrive [Inhabited τ] (code : Client.Code κ ν ω) (app : α) (state : ω)
    (enough : 100 ≤ limit) :
    (Network.new 1 limit app : Network τ α κ ν ω).run code (arrive state) =
      lone limit { context := hosting app (holding limit welcome.toFrame [2] true), executed := 1 }
        (holding limit [] [2] true) [] { id := 2, state, stage := .joined (guest state) }
        [.dialled 2 "a", .granted 2 1000] := by
  have dialled : (Network.new 1 limit app : Network τ α κ ν ω).dial "" "a" state =
      lone limit (.new 1 app) (holding limit [] [] false) []
        { id := 2, state, toServer := (Logon.greeting "a").toFrame } [.dialled 2 "a"] := rfl
  have said : (Logon.greeting "a").encode.length ≤ limit := Nat.le_trans (by decide) enough
  have heard : welcome.encode.length ≤ limit := Nat.le_trans (by decide) enough
  simp only [arrive, run, List.foldl_cons, List.foldl_nil, perform]
  rw [dialled, lone_serverReads rfl rfl (by decide) said fun _ => rfl, List.nil_append,
    lone_notify rfl rfl]
  rw [Hall.new, List.nil_append, lone_serve]
  dsimp only
  rw [perform_logon limit app heard]
  dsimp only [hosting]
  rw [lone_serverWrites rfl (Wire.toFrame_ne_nil welcome), List.nil_append, lone_clientReads rfl,
    read_welcome]
  rfl

def speaker (state : ω) (calls : List (Request × List Token)) (messages : List Message)
    (toServer : Bytes) : Peer κ ν ω where
  id := 2
  state
  stage :=
    let client : Client κ ν ω := guest state
    .joined (client.setDesk { client.desk with outgoing := { messages } })
  toServer
  calls

section Speaker

variable {hall : Hall τ α} {outboxes : Outboxes} {notices : List Notice}
  {history : List (Event κ)} (state : ω)

theorem lone_begin (text : String) :
    (lone limit hall outboxes notices (speaker state [] [] [] : Peer κ ν ω) history).begin 2
        (Chat.awayCall 1 text) =
      lone limit hall outboxes notices (speaker state [(parting text, [])] [] [])
        (history ++ [.did 2 (.begun (Chat.awayCall 1 text) (parting text) [])]) := by
  rw [begin, onJoined, lone_onPeer rfl]
  rfl

theorem lone_conclude (request : Request) :
    (lone limit hall outboxes notices (speaker state [(request, [])] [] [] : Peer κ ν ω)
        history).conclude 2 0 =
      lone limit hall outboxes notices (speaker state [] [.invocation request] []) history := by
  rw [conclude, onJoined, lone_onPeer rfl]
  exact congrArg (lone limit hall outboxes notices _) (List.append_nil history)

theorem lone_clientWrites (message : Message) :
    (lone limit hall outboxes notices (speaker state [] [message] [] : Peer κ ν ω)
        history).clientWrites 2 [.accepted message.toFrame.length] =
      lone limit hall outboxes notices (speaker state [] [] message.toFrame) history := by
  let client : Client κ ν ω := guest state
  have written := (client.setDesk
    { client.desk with outgoing := { messages := [message] } }).write_of_accepted rfl rfl rfl
  rw [clientWrites, onJoined, lone_onPeer rfl]
  dsimp only [speaker, whenJoined]
  rw [written]
  exact congrArg (lone limit hall outboxes notices _) (List.append_nil history)

end Speaker

def depart (text : String) : List (Action κ ν ω) :=
  let request := Message.invocation (parting text)
  let event := Chat.awayChange 1000 text
  [.begin 2 (Chat.awayCall 1 text), .conclude 2 0,
    .clientWrites 2 [.accepted request.toFrame.length],
    .serverReads 2 .wouldBlock [.piece request.toFrame.length], .notify, .serve,
    .serverWrites 2 [.accepted event.toFrame.length],
    .clientReads 2 .wouldBlock [.piece event.toFrame.length]]

theorem overrun_depart [Inhabited τ] (code : Client.Code κ ν ω) (app : α) (state : ω)
    {text : String} (enough : 100 ≤ limit)
    (asked : (Message.invocation (parting text)).encode.length ≤ limit)
    (told : (Chat.awayChange 1000 text).encode.length ≤ limit)
    (small : (Message.invocation (parting text)).Framable)
    (small' : (Chat.awayChange 1000 text).Framable)
    (large : Wire.defaultMaxFrame < (Chat.awayChange 1000 text).encode.length) :
    ∃ peer ∈ ((Network.new 1 limit app : Network τ α κ ν ω).run code
      (arrive state ++ depart text)).peers, peer.Overrun := by
  rw [run_append, run_arrive code app state enough]
  change ∃ peer ∈ ((lone limit
      { context := hosting app (holding limit welcome.toFrame [2] true), executed := 1 }
      (holding limit [] [2] true) [] (speaker state [] [] [])
      [.dialled 2 "a", .granted 2 1000] : Network τ α κ ν ω).run code (depart text)).peers,
    peer.Overrun
  simp only [depart, run, List.foldl_cons, List.foldl_nil, perform]
  rw [lone_begin, lone_conclude, lone_clientWrites,
    lone_serverReads rfl rfl small asked fun _ => rfl, List.nil_append, lone_notify rfl rfl,
    List.nil_append, lone_serve]
  dsimp only
  have same : ((hosting app (holding limit welcome.toFrame [2] true) : Server τ α).modifyLobby
      fun lobby => { lobby with outboxes := holding limit [] [2] true }) =
      hosting app (holding limit [] [2] true) := rfl
  have outboxes : ((hosting app (holding limit [] [2] true) : Server τ α).perform
      (.handleRequest 2 (parting text))).2.lobby.outboxes =
      holding limit (Chat.awayChange 1000 text).toFrame [2, 2] true := by
    rw [perform_away limit app told]
    rfl
  rw [same, outboxes, lone_serverWrites rfl (Wire.toFrame_ne_nil _), lone_clientReads rfl]
  refine ⟨_, List.mem_singleton_self _, ?_⟩
  exact overrun_of_large (guest state) rfl rfl rfl (List.nil_append _) small' large

def letters : Nat → String
  | 0 => ""
  | count + 1 => letters count ++ "x"

theorem length_letters (count : Nat) : (Wire.Utf8.encode (letters count)).length = count := by
  induction count with
  | zero => rfl
  | succ count ih =>
    have more : Wire.Utf8.encode (letters count ++ "x") =
        Wire.Utf8.encode (letters count) ++ Wire.Utf8.encode "x" := by
      simp [Wire.Utf8.encode]
    rw [letters, more, List.length_append, ih]
    rfl

theorem exists_text (length : Nat) : ∃ text : String, (Wire.Utf8.encode text).length = length :=
  ⟨letters length, length_letters length⟩

theorem length_parting (text : String) :
    (Message.invocation (parting text)).encode.length = 29 + (Wire.Utf8.encode text).length := by
  simp only [Message.encode, Message.write, parting, Request.write, Arguments.write,
    Value.writeAll, Value.write, Wire.length_writeWord, Wire.length_writeInt32,
    Wire.length_writeText, List.length_nil]
  omega

/-- No client is ever sent a frame that is too long for it if the limit of the server is no greater
than that of the clients, and only then. -/
theorem not_overrun_iff [Inhabited τ] [Inhabited α] [Inhabited ω] (code : Client.Code κ ν ω)
    (maxFrame : Nat) :
    (∀ net : Network τ α κ ν ω, net.Reachable code maxFrame → ∀ peer ∈ net.peers,
      ¬ peer.Overrun) ↔ maxFrame ≤ Wire.defaultMaxFrame := by
  refine ⟨fun never => Nat.le_of_not_lt fun beyond => ?_, fun within net reachable peer mem => ?_⟩
  · obtain ⟨text, length⟩ := exists_text (Wire.defaultMaxFrame - 43)
    have asked := length_parting text
    have told := Chat.length_awayChange 1000 text
    rw [length] at asked told
    have limit : Wire.defaultMaxFrame = 524288 := rfl
    have room : 256 ^ Wire.headerLength = 4294967296 := rfl
    have overrun : ∃ peer ∈ ((Network.new 1 maxFrame default : Network τ α κ ν ω).run code
        (arrive default ++ depart text)).peers, peer.Overrun :=
      overrun_depart code default default (by omega) (by omega) (by omega) (by omega) (by omega)
        (by omega)
    obtain ⟨peer, mem, overrun⟩ := overrun
    exact never _ ⟨1, default, _, rfl⟩ peer mem overrun
  · obtain ⟨maxClients, app, actions, rfl⟩ := reachable
    exact ((Sound.new maxClients maxFrame app).run actions).not_overrun within mem

end Network

end Parley
