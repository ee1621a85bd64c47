import Parley.Proofs.Chat.Conversation
import Parley.Proofs.Chat.LongLines
import Parley.Proofs.Network.Correlation
import Parley.Proofs.Network.FrameLimit
import Parley.Proofs.Network.Journal
import Parley.Proofs.Network.Voices

/-! What becomes of a line that is too long.
If the server takes the request it answers that the line is too long, and the listener of the call
hears that; if the request itself is too long the server closes the connection it has come by. -/

namespace Parley

open Client (Code)
open Connection (Desk Manager Notice turn)
open Wire (Bytes FrameReader)

namespace Chat

variable {caller : Dispatch.Caller} {token : Token} {director : Client.Director κ}

def Line.call (text : String) (name : κ) : Line → Client.Call κ
  | tell target => tellCall Call.target target text name
  | broadcast => broadcastCall Call.target text name

theorem Line.begin_call (line : Line) (text : String) (name : κ)
    (opened : director.closed = false) :
    director.begin (line.call text name) =
      (.ok (line.request text (director.park name).1, [(director.park name).1]),
        (director.park name).2) := by
  rw [Client.Director.begin, opened, if_neg Bool.false_ne_true]
  cases line <;> rfl

theorem Line.length_request (line : Line) (text : String) (token : Token) :
    (Message.invocation (line.request text token)).encode.length =
      (match line with
        | tell target => 53 + (Wire.Utf8.encode target).length
        | broadcast => 41) + (Wire.Utf8.encode text).length := by
  cases line
  all_goals
    simp only [request, Message.encode, Message.write, Request.write, Arguments.write,
      Value.writeAll, Value.write, Wire.length_writeWord, Wire.length_writeInt32,
      Wire.length_writeText, Token.length_write, List.length_nil, List.length_cons]
    omega

theorem length_refusal (token : Token) :
    (Message.response (.failed token messageTooLong)).encode.length = 51 := by
  have args : (Arguments.write [.str messageTooLong] []).length = 38 := by decide
  simp only [Message.encode, Message.write, Response.write, Wire.length_writeWord,
    Token.length_write, Response.failed, args]

variable {listen : κ → Client.Dispatcher κ ω} {name : κ} {desk : Client.Desk κ ω}

theorem methodName_requestFailed (kind : ListenerDescriptor) :
    (kind.methodName requestFailed).isNone = false := by
  unfold ListenerDescriptor.methodName
  cases kind.methods.nameOf requestFailed <;> rfl

theorem dispatch_failed (parked : desk.director.pending.lookup token = some name)
    (cause : String) :
    desk.dispatch listen (.failed token cause) = ((listen name).fail cause).run listen
      { desk with director := desk.director.withdraw [token] } := by
  rw [Response.failed, dispatch_of_parked parked, Client.Desk.deliver,
    methodName_requestFailed, if_neg Bool.false_ne_true, if_pos rfl]
  rfl

theorem dispatchDeeds_failed (parked : desk.director.pending.lookup token = some name)
    (cause : String) :
    desk.dispatchDeeds listen (.failed token cause) =
      .heard token name (some (.failed token cause)) :: ((listen name).fail cause).deeds listen
        { desk with director := desk.director.withdraw [token] } := by
  rw [Client.Desk.dispatchDeeds, Client.Director.take, Response.failed, parked]
  dsimp only
  rw [Client.Desk.deliverDeeds]
  dsimp only
  rw [methodName_requestFailed, if_neg Bool.false_ne_true, if_pos rfl]
  rfl

end Chat

namespace Server

variable {server : Server τ α} {connection : ConnectionId} {caller : Dispatch.Caller}

theorem endSession_of_caller? (found : server.caller? connection = some caller) :
    server.endSession connection = server.modifyLobby fun lobby =>
      { lobby with sessions := (server.lobby.sessions.removeByConnection connection).2 } := by
  obtain ⟨table, there, -⟩ := Option.bind_eq_some_iff.1 found
  obtain ⟨-, rfl⟩ := table?_eq_some there
  rw [endSession, there]

end Server

namespace Connection

variable {connection : Connection} {message : Message} {desk : Desk} {id : ConnectionId}

theorem readMessages_of_large (small : message.Framable)
    (large : connection.reader.limit < message.encode.length)
    (empty : connection.reader.buffer = []) :
    connection.readMessages [.data message.toFrame, .wouldBlock] =
      (⟨[], false, some (.frameTooLarge message.encode.length connection.reader.limit)⟩,
        { connection with reader := connection.reader.extend message.toFrame }) := by
  have failed := FrameReader.next_extend_large empty small large
  have drained : (connection.reader.extend message.toFrame).drainMessages =
      ([], some (.frameTooLarge message.encode.length connection.reader.limit),
        connection.reader.extend message.toFrame) := by
    rw [FrameReader.drainMessages, FrameReader.drain, FrameReader.drainAtMost, failed]
    rfl
  unfold readMessages
  rw [fill_data (Wire.toFrame_ne_nil message)]
  dsimp only
  rw [drained]
  rfl

theorem Desk.read_of_small {request : Request} (found : desk.manager.find? id = some connection)
    (small : (Message.invocation request).Framable)
    (le : (Message.invocation request).encode.length ≤ connection.reader.limit)
    (empty : connection.reader.buffer = []) :
    desk.read id [.data (Message.invocation request).toFrame, .wouldBlock] =
      { desk with
        manager := desk.manager.replace connection
        notices := desk.notices ++ [.received id (.invocation request)] } := by
  rw [Desk.read, found]
  dsimp only
  rw [readMessages_toFrame small le empty]
  rfl

/-- The server closes a connection on which a message has come that is too long. -/
theorem Desk.read_of_large (found : desk.manager.find? id = some connection)
    (small : message.Framable) (large : connection.reader.limit < message.encode.length)
    (empty : connection.reader.buffer = []) :
    ∃ manager : Manager, manager.find? id = none ∧
      desk.read id [.data message.toFrame, .wouldBlock] =
        ⟨manager, desk.outboxes.close id, desk.notices ++ [.closed id]⟩ := by
  let broken : Connection := { connection with reader := connection.reader.extend message.toFrame }
  have own := Manager.id_of_find? found
  have still : (desk.manager.replace broken).find? id = some broken := by
    rw [Manager.find?_replace, found, Option.map_some, if_pos own.symm]
  refine ⟨(desk.manager.replace broken).erase id, ?_, ?_⟩
  · rw [Manager.find?_erase, if_pos rfl]
  · rw [Desk.read, found]
    dsimp only
    rw [readMessages_of_large small large empty]
    dsimp only [Desk.receive]
    rw [Desk.close]
    dsimp only
    rw [still]
    rfl

theorem Desk.written_flush {box : Outbox} (connected : desk.manager.find? id = some connection)
    (found : desk.outboxes.find? id = some box) (held : box.buffer ≠ []) :
    (desk.flush id [.accepted box.buffer.length]).1 = box.buffer := by
  rw [Desk.flush, Desk.write, connected]
  dsimp only
  rw [Desk.pour, found]
  dsimp only
  rw [Outbox.flush, writeOut_accepted held]

end Connection

namespace Network

variable {maxFrame : Nat} {net : Network τ α κ ν ω} {id : ConnectionId} {client : Client κ ν ω}
  {caller : Dispatch.Caller} {line : Chat.Line} {text : String}

/-- A client is logged on as the caller, and nothing is under way on its connection or in the
server. -/
structure Quiet (maxFrame : Nat) (net : Network τ α κ ν ω) (id : ConnectionId)
    (client : Client κ ν ω) (caller : Dispatch.Caller) : Prop where
  peer : ∃ peer, net.peer? id = some peer ∧ peer.stage = .joined client ∧ peer.calls = [] ∧
    peer.toServer = []
  outgoing : client.desk.outgoing = {}
  unsent : client.unsent = []
  writing : client.writing = true
  opened : client.desk.director.closed = false
  connection : ∃ connection, net.desk.manager.find? id = some connection ∧
    connection.reader = { limit := maxFrame }
  takes : ¬ net.desk.outboxes.Refuses id
  notices : net.desk.notices = []
  accepting : net.hall.isClosed = false
  pending : net.hall.pending = []
  logged : net.server.caller? id = some caller
  own : client.desk.director.oid = caller.oid

/-- The client listens, and nothing is on its way to it. -/
structure Listening (net : Network τ α κ ν ω) (id : ConnectionId) (client : Client κ ν ω) :
    Prop where
  toClient : ∀ peer, net.peer? id = some peer → peer.toClient = []
  box : ∀ box, net.desk.outboxes.find? id = some box → box.buffer = []
  reading : client.reading = true
  reader : client.reader = { limit := Wire.defaultMaxFrame }
  accepting : client.queue.isClosed = false
  pending : client.queue.pending = []
  few : client.desk.director.pending.length < 2 ^ 32

theorem run_say (quiet : Quiet maxFrame net id client caller) (code : Code κ ν ω)
    (line : Chat.Line) (text : String) (name : κ) :
    let frame := (Message.invocation
      (line.request text (client.desk.director.park name).1)).toFrame
    let after := net.run code
      [.begin id (line.call text name), .conclude id 0, .clientWrites id [.accepted frame.length]]
    let director := (client.desk.director.park name).2
    after.hall = net.hall ∧ after.desk = net.desk ∧
      ∃ peer, after.peer? id = some peer ∧ peer.toServer = frame ∧
        (∀ old, net.peer? id = some old → peer.toClient = old.toClient) ∧
        peer.stage = .joined ({ client with unsent := [] }.setDesk
          { client.desk with director, outgoing := {} }) := by
  intro frame after director
  obtain ⟨peer, found, stage, calls, written⟩ := quiet.peer
  let request := line.request text (client.desk.director.park name).1
  have began : ∃ p, (net.begin id (line.call text name)).peer? id = some p ∧
      p.stage = .joined (client.setDesk { client.desk with director }) ∧
      p.calls = [(request, [(client.desk.director.park name).1])] ∧ p.toServer = [] ∧
      p.toClient = peer.toClient := by
    refine ⟨_, peer?_onJoined found stage fun _ _ => rfl, ?_⟩
    rw [line.begin_call text name quiet.opened]
    refine ⟨rfl, ?_, written, rfl⟩
    dsimp only
    rw [calls]
    rfl
  obtain ⟨p, began, stage, calls, written, same⟩ := began
  have concluded : ∃ p, ((net.begin id (line.call text name)).conclude id 0).peer? id = some p ∧
      p.stage = .joined (client.setDesk
        { client.desk with director, outgoing := { messages := [.invocation request] } }) ∧
      p.toServer = [] ∧ p.toClient = peer.toClient := by
    refine ⟨_, peer?_onJoined began stage fun c q => by dsimp only; split <;> rfl, ?_⟩
    rw [calls]
    refine ⟨?_, written, same⟩
    have posted : (client.setDesk { client.desk with director }).desk.outgoing = {} :=
      quiet.outgoing
    dsimp only [List.getElem?_cons_zero]
    rw [Client.Desk.conclude, posted]
    rfl
  obtain ⟨p, concluded, stage, written, same⟩ := concluded
  let ready := client.setDesk
    { client.desk with director, outgoing := { messages := [.invocation request] } }
  have sent : ready.write [.accepted frame.length] = (frame, _) :=
    ready.write_of_accepted quiet.writing quiet.unsent rfl
  refine ⟨?_, ?_, _, peer?_onJoined concluded stage fun _ _ => rfl, ?_, fun old known => ?_, ?_⟩
  · simp only [after, run, List.foldl_cons, List.foldl_nil, perform]
    simp only [clientWrites, Network.conclude, Network.begin, onJoined, hall_onPeer]
  · simp only [after, run, List.foldl_cons, List.foldl_nil, perform]
    simp only [clientWrites, Network.conclude, Network.begin, onJoined, desk_onPeer]
  · dsimp only
    rw [sent, written, List.nil_append]
  · obtain rfl := Option.some.inj (found.symm.trans known)
    exact same
  · dsimp only
    rw [sent]
    rfl

/-- The server reads one frame, notes what has come of it, and runs the command for it. -/
theorem run_hear {said : Network τ α κ ν ω} {peer : Peer κ ν ω} {frame : Bytes}
    {manager : Manager} {outboxes : Outboxes} {notice : Notice} {command : Server.Command}
    (code : Code κ ν ω) (hall : said.hall = net.hall) (desk : said.desk = net.desk)
    (found : said.peer? id = some peer) (written : peer.toServer = frame)
    (connected : ∃ connection, net.desk.manager.find? id = some connection)
    (read : net.desk.read id [.data frame, .wouldBlock] = ⟨manager, outboxes, [notice]⟩)
    (noted : Server.Host.notify net.hall [notice] = { net.hall with pending := [command] }) :
    let after := said.run code [.serverReads id .wouldBlock [.piece frame.length], .notify, .serve]
    let done := ((net.hall.context.modifyLobby fun lobby =>
      { lobby with outboxes }).perform command).2
    after.hall.context = done ∧ after.desk.outboxes = done.lobby.outboxes ∧
      after.desk.manager = manager ∧ after.peer? id = some { peer with toServer := [] } := by
  intro after done
  obtain ⟨connection, connected⟩ := connected
  have turned : turn .wouldBlock frame [.piece frame.length] =
      ([.data frame, .wouldBlock], []) := by
    rw [turn, List.take_length, List.drop_length]
    rfl
  have taken : (said.serverReads id .wouldBlock [.piece frame.length]).desk =
      ⟨manager, outboxes, [notice]⟩ ∧
      (said.serverReads id .wouldBlock [.piece frame.length]).hall = net.hall ∧
      (said.serverReads id .wouldBlock [.piece frame.length]).peer? id =
        some { peer with toServer := [] } := by
    have known : said.peers.find? (·.id = id) = some peer := found
    unfold serverReads
    rw [known, desk, connected]
    dsimp only
    rw [written, turned]
    dsimp only
    rw [read, hall_onPeer]
    exact ⟨rfl, hall, peer?_onPeer_of_found found fun _ => rfl⟩
  have whole : after =
      (said.serverReads id .wouldBlock [.piece frame.length]).notify.serve := rfl
  revert whole taken
  generalize said.serverReads id .wouldBlock [.piece frame.length] = read
  rintro ⟨desk, hall, kept⟩ whole
  have told : read.notify = { read with
      hall := { net.hall with pending := [command] }, desk := ⟨manager, outboxes, []⟩ } := by
    rw [Network.notify, desk]
    dsimp only
    rw [hall, noted]
  rw [told, serve_of_pending rfl] at whole
  rw [whole]
  exact ⟨rfl, rfl, rfl, kept⟩

theorem notify_received {request : Request} (accepting : net.hall.isClosed = false)
    (pending : net.hall.pending = []) :
    Server.Host.notify net.hall [.received id (.invocation request)] =
      { net.hall with pending := [.handleRequest id request] } := by
  rw [Server.Host.notify, Server.Hall.receive, Server.command?]
  dsimp only
  rw [ActionQueue.enqueue_of_open accepting, pending]
  rfl

theorem notify_closed (accepting : net.hall.isClosed = false) (pending : net.hall.pending = []) :
    Server.Host.notify net.hall [.closed id] = { net.hall with pending := [.endSession id] } := by
  rw [Server.Host.notify, Server.Hall.disconnect, ActionQueue.enqueue_of_open accepting, pending]
  rfl

/-- Saying a line, as far as it goes until the server is done with it. -/
def say (id : ConnectionId) (call : Client.Call κ) (length : Nat) : List (Action κ ν ω) :=
  [.begin id call, .conclude id 0, .clientWrites id [.accepted length]] ++
    [.serverReads id .wouldBlock [.piece length], .notify, .serve]

/-- What is posted to a client goes all the way: it is written, read and run. -/
def learn (id : ConnectionId) (length : Nat) : List (Action κ ν ω) :=
  [.serverWrites id [.accepted length], .clientReads id .wouldBlock [.piece length],
    .clientRuns id]

theorem run_learn {peer : Peer κ ν ω} {box : Outbox} {message : Message}
    {command : Client.Command ν} (code : Code κ ν ω) (found : net.peer? id = some peer)
    (stage : peer.stage = .joined client) (idle : peer.toClient = [])
    (connected : ∃ connection, net.desk.manager.find? id = some connection)
    (boxed : net.desk.outboxes.find? id = some box) (held : box.buffer = message.toFrame)
    (asked : Client.command? message = some command) (reading : client.reading = true)
    (accepting : client.queue.isClosed = false) (pending : client.queue.pending = [])
    (empty : client.reader.buffer = []) (small : message.Framable)
    (le : message.encode.length ≤ client.reader.limit) :
    let after := net.run code (learn id message.toFrame.length)
    after.history = net.history ++ (client.queue.context.deeds code command).map (.did id) ∧
      ∃ peer listener, after.peer? id = some peer ∧ peer.stage = .joined listener ∧
        listener.queue.context = (client.queue.context.perform code command).2 := by
  intro after
  obtain ⟨connection, connected⟩ := connected
  have written := Connection.Desk.written_flush connected boxed
    (held ▸ Wire.toFrame_ne_nil message)
  rw [held] at written
  let sent := net.serverWrites id [.accepted message.toFrame.length]
  have wrote : sent.peer? id = some { peer with toClient := message.toFrame } := by
    have kept : sent.peer? id = some { peer with toClient := peer.toClient ++
        (net.desk.flush id [.accepted message.toFrame.length]).1 } :=
      peer?_onPeer_of_found found fun _ => rfl
    rwa [written, idle, List.nil_append] at kept
  let taken : Client κ ν ω := { client with
    queue := { client.queue with pending := client.queue.pending ++ [command] } }
  have read : ({ peer with toClient := message.toFrame } : Peer κ ν ω).read .wouldBlock
      [.piece message.toFrame.length] = { peer with stage := .joined taken } := by
    have turned : turn .wouldBlock message.toFrame [.piece message.toFrame.length] =
        ([.data message.toFrame, .wouldBlock], []) := by
      rw [turn, List.take_length, List.drop_length]
      rfl
    unfold Peer.read
    dsimp only
    rw [turned, stage]
    dsimp only
    rw [if_pos reading, client.read_toFrame asked reading accepting empty small le, idle]
  let got := sent.clientReads id .wouldBlock [.piece message.toFrame.length]
  have arrived : got.peer? id = some { peer with stage := .joined taken } :=
    read ▸ peer?_onPeer_of_found wrote fun p => (p.moved_read _ _).id
  have history : got.history = net.history :=
    (history_onPeer fun _ => rfl).trans (history_onPeer fun _ => rfl)
  have next : taken.queue.pending = command :: [] := by
    dsimp only [taken]
    rw [pending]
    rfl
  have ran := runOne_of_pending code next
  refine ⟨?_, _, _, peer?_onJoined arrived rfl fun _ _ => rfl, rfl, ?_⟩
  · have told : after.history = got.history ++ (runOne code taken).1.map (.did id) :=
      onPeer_of_found arrived
    rw [told, history, ran]
  · rw [ran]

/-- A failure that is posted to the speaker gets to the listener of its call. -/
theorem run_refusal {after : Network τ α κ ν ω} {peer : Peer κ ν ω} {name : κ} {cause : String}
    (quiet : Quiet maxFrame net id client caller) (listening : Listening net id client)
    (code : Code κ ν ω) (found : after.peer? id = some peer)
    (stage : peer.stage = .joined ({ client with unsent := [] }.setDesk
      { client.desk with director := (client.desk.director.park name).2, outgoing := {} }))
    (idle : peer.toClient = [])
    (connected : ∃ connection, after.desk.manager.find? id = some connection) :
    let token := (client.desk.director.park name).1
    let refusal : Message := .response (.failed token cause)
    let told := after.run code (learn id refusal.toFrame.length)
    let failing := (code.listen name).fail cause
    let desk := { client.desk with
      director := (client.desk.director.park name).2.withdraw [token] }
    let deeds := .heard token name (some (.failed token cause)) ::
      failing.deeds code.listen desk
    net.desk.outboxes.post id refusal = (.ok (), after.desk.outboxes) →
    refusal.encode.length ≤ Wire.defaultMaxFrame →
    told.history = after.history ++ deeds.map (.did id) ∧
      ∃ peer listener, told.peer? id = some peer ∧ peer.stage = .joined listener ∧
        listener.desk = (failing.run code.listen desk).2 := by
  intro token refusal told failing desk deeds posted within
  obtain ⟨error, refused⟩ | ⟨box, boxed, -, accepted⟩ := net.desk.outboxes.post_cases id refusal
  · cases refused.symm.trans posted
  have held : after.desk.outboxes.find? id =
      some { box with buffer := refusal.toFrame } := by
    have grown : after.desk.outboxes = _ := (Prod.mk.inj (posted.symm.trans accepted)).2
    rw [grown, Outboxes.find?_requested, Outboxes.find?_replace, boxed, Option.map_some,
      if_pos (Outboxes.id_of_find? boxed).symm, listening.box box boxed, List.nil_append]
  let speaking : Client.Desk κ ω := { client.desk with
    director := (client.desk.director.park name).2, outgoing := {} }
  have parked : speaking.director.pending.lookup token = some name :=
    Client.Director.lookup_park listening.few name
  have same : ({ speaking with director := speaking.director.withdraw [token] } :
      Client.Desk κ ω) = desk := by
    dsimp only [speaking, desk]
    rw [← quiet.outgoing]
  obtain ⟨history, peer, listener, found, joined, context⟩ :=
    run_learn code found stage idle connected held rfl rfl listening.reading
      listening.accepting listening.pending (congrArg (·.buffer) listening.reader)
      (Nat.lt_of_le_of_lt within (by decide))
      (Nat.le_trans within (Nat.le_of_eq (congrArg (·.limit) listening.reader).symm))
  refine ⟨?_, peer, listener, found, joined, ?_⟩
  · have heard : speaking.dispatchDeeds code.listen (.failed token cause) = deeds := by
      rw [Chat.dispatchDeeds_failed parked, same]
    exact history.trans (congrArg (fun deeds => after.history ++ deeds.map (.did id)) heard)
  · have heard : speaking.dispatch code.listen (.failed token cause) =
        failing.run code.listen desk := by
      rw [Chat.dispatch_failed parked, same]
    exact (congrArg (·.desk) context).trans (congrArg Prod.snd heard)

/-- What becomes of a line that is too long when nothing else is under way: its listener hears of
the refusal, or, if the request is too long as well, the speaker loses its connection. -/
theorem refused_or_cut [Inhabited τ] {code : Code κ ν ω} (reachable : net.Reachable code maxFrame)
    (enough : 256 ≤ maxFrame) (quiet : Quiet maxFrame net id client caller) (line : Chat.Line)
    (text : String) (name : κ)
    (reached : ∃ session ∈ line.addressees net.hall.context.lobby.sessions,
      ¬ net.desk.outboxes.Refuses session.connection)
    (long : maxFrame <
      56 + (Wire.Utf8.encode caller.username).length + (Wire.Utf8.encode text).length)
    (small : (Message.invocation
      (line.request text (client.desk.director.park name).1)).Framable) :
    let token := (client.desk.director.park name).1
    let request : Message := .invocation (line.request text token)
    let refusal : Message := .response (.failed token Chat.messageTooLong)
    let after := net.run code (say id (line.call text name) request.toFrame.length)
    (request.encode.length ≤ maxFrame →
      net.desk.outboxes.post id refusal = (.ok (), after.desk.outboxes) ∧
      after.hall.context.lobby.sessions = net.hall.context.lobby.sessions ∧
      (∀ other, (after.desk.manager.find? other).isSome =
        (net.desk.manager.find? other).isSome) ∧
      (Listening net id client →
        let told := after.run code (learn id refusal.toFrame.length)
        let failing := (code.listen name).fail Chat.messageTooLong
        let desk := { client.desk with
          director := (client.desk.director.park name).2.withdraw [token] }
        let deeds := .heard token name (some (.failed token Chat.messageTooLong)) ::
          failing.deeds code.listen desk
        told.history = after.history ++ deeds.map (.did id) ∧
        ∃ peer listener, told.peer? id = some peer ∧ peer.stage = .joined listener ∧
          listener.desk = (failing.run code.listen desk).2)) ∧
    (maxFrame < request.encode.length →
      after.desk.outboxes = net.desk.outboxes.close id ∧ after.desk.manager.find? id = none ∧
      after.hall.context.lobby.sessions.oidOf? id = none) := by
  intro token request refusal after
  obtain ⟨connection, connected, fresh⟩ := quiet.connection
  obtain ⟨hall, desk, peer, found, written, coming, stage⟩ := run_say quiet code line text name
  have whole : after = (net.run code [.begin id (line.call text name), .conclude id 0,
      .clientWrites id [.accepted request.toFrame.length]]).run code
        [.serverReads id .wouldBlock [.piece request.toFrame.length], .notify, .serve] :=
    net.run_append code _ _
  have ready : net.server.registry = Chat.registry := reachable.chat
  have sound : net.Sound maxFrame := by
    obtain ⟨maxClients, app, actions, rfl⟩ := reachable
    exact (Sound.new maxClients maxFrame app).run actions
  refine ⟨fun fits => ?_, fun beyond => ?_⟩
  · have read := Connection.Desk.read_of_small connected small (by rwa [fresh]) (by rw [fresh])
    rw [quiet.notices, List.nil_append] at read
    obtain ⟨context, outboxes, manager, here⟩ := run_hear code hall desk found written
      ⟨connection, connected⟩ read (notify_received quiet.accepting quiet.pending)
    rw [← whole] at context outboxes manager here
    have unheard : Chat.TooLong caller.username text net.server.lobby.outboxes
        (line.addressees net.server.lobby.sessions) := by
      refine ⟨reached, fun session _ box found => ?_⟩
      rw [sound.limits session.connection box found, Chat.length_line]
      exact long
    have own : token.callerOid = caller.oid := quiet.own
    have performed := Server.perform_of_long ready sound.ready.consistent quiet.logged own unheard
    have room (box : Outbox) (found : net.desk.outboxes.find? id = some box) :
        refusal.encode.length ≤ box.limit := by
      rw [sound.limits id box found, Chat.length_refusal]
      omega
    have posted : net.desk.outboxes.post id refusal = (.ok (), after.desk.outboxes) :=
      Prod.ext (Outboxes.post_of_fits quiet.takes room)
        (outboxes.trans (congrArg (·.lobby.outboxes) performed)).symm
    refine ⟨posted, ?_, fun other => ?_, fun listening => ?_⟩
    · exact (congrArg (·.lobby.sessions) context).trans (congrArg (·.lobby.sessions) performed)
    · rw [manager, Connection.Manager.find?_replace, Option.isSome_map]
    · obtain ⟨old, known, -⟩ := quiet.peer
      refine run_refusal quiet listening code here stage
        ((coming old known).trans (listening.toClient old known)) ?_ posted ?_
      · rw [manager, Connection.Manager.find?_replace, connected]
        exact ⟨_, rfl⟩
      · rw [Chat.length_refusal]
        decide
  · obtain ⟨manager, gone, read⟩ := Connection.Desk.read_of_large connected small
      (by rwa [fresh]) (by rw [fresh])
    rw [quiet.notices, List.nil_append] at read
    obtain ⟨context, outboxes, kept, -⟩ := run_hear code hall desk found written
      ⟨connection, connected⟩ read (notify_closed quiet.accepting quiet.pending)
    rw [← whole] at context outboxes kept
    let cut := net.hall.context.modifyLobby fun lobby =>
      { lobby with outboxes := net.desk.outboxes.close id }
    have ended : cut.endSession id = cut.modifyLobby fun lobby => { lobby with
        sessions := (net.hall.context.lobby.sessions.removeByConnection id).2 } :=
      Server.endSession_of_caller? quiet.logged
    refine ⟨outboxes.trans (congrArg (·.lobby.outboxes) ended), kept ▸ gone, ?_⟩
    have sessions : after.hall.context.lobby.sessions =
        (net.hall.context.lobby.sessions.removeByConnection id).2 :=
      (congrArg (·.lobby.sessions) context).trans (congrArg (·.lobby.sessions) ended)
    rw [sessions]
    exact sound.ready.consistent.oidOf?_removeByConnection id

/-- A network whose one client has logged on, over connections that take 256 bytes at a time. -/
def settled : Network Unit Unit Unit Unit Unit := (Network.new 1 256 ()).run listeners (arrive ())

theorem settled_eq : settled =
    lone 256 { context := hosting () (holding 256 welcome.toFrame [2] true), executed := 1 }
      (holding 256 [] [2] true) [] { id := 2, state := (), stage := .joined (guest ()) }
      [.dialled 2 "a", .granted 2 1000] :=
  run_arrive listeners () () (by decide)

theorem quiet_settled : Quiet 256 settled 2 (guest ()) ⟨1000, "a"⟩ := by
  rw [settled_eq]
  refine ⟨⟨_, rfl, rfl, rfl, rfl⟩, rfl, rfl, rfl, rfl, ⟨_, rfl, rfl⟩, ?_, rfl, rfl, rfl, rfl, rfl⟩
  rw [Outboxes.refuses_iff]
  exact fun shut => Bool.noConfusion (shut _ rfl)

def muttering (count : Nat) : Message :=
  .invocation ((Chat.Line.tell "a").request (letters count) ⟨1000, 1⟩)

theorem length_muttering (count : Nat) : (muttering count).encode.length = 54 + count := by
  rw [muttering, Chat.Line.length_request, length_letters]
  rfl

def mutter (count : Nat) : Network Unit Unit Unit Unit Unit :=
  settled.run listeners
    (say 2 ((Chat.Line.tell "a").call (letters count) ()) (muttering count).toFrame.length)

theorem listening_settled : Listening settled 2 (guest ()) := by
  rw [settled_eq]
  refine ⟨fun peer found => ?_, fun box found => ?_, rfl, rfl, rfl, rfl, by decide⟩
  · cases found
    rfl
  · cases found
    rfl

/-- Telling itself 201 letters is refused, which its listener hears, and telling itself 300 costs
the client its connection. -/
theorem refused_or_cut_muttering :
    settled.Reachable listeners 256 ∧ Quiet 256 settled 2 (guest ()) ⟨1000, "a"⟩ ∧
    (settled.desk.outboxes.post 2 (.response (.failed ⟨1000, 1⟩ Chat.messageTooLong)) =
      (.ok (), (mutter 201).desk.outboxes) ∧ (mutter 201).desk.manager.find? 2 ≠ none ∧
      .did 2 (.heard ⟨1000, 1⟩ () (some (.failed ⟨1000, 1⟩ Chat.messageTooLong))) ∈
        ((mutter 201).run listeners (learn 2 55)).history) ∧
    (mutter 300).desk.manager.find? 2 = none := by
  have reachable : settled.Reachable listeners 256 := ⟨1, (), arrive (), rfl⟩
  have reached : ∃ session ∈ (Chat.Line.tell "a").addressees settled.hall.context.lobby.sessions,
      ¬ settled.desk.outboxes.Refuses session.connection := by
    rw [settled_eq]
    exact ⟨⟨1000, "a", 2, none⟩, List.mem_singleton_self _, (settled_eq ▸ quiet_settled).takes⟩
  have token : ((guest () : Client Unit Unit Unit).desk.director.park ()).1 = ⟨1000, 1⟩ := rfl
  have answer : (Message.response (.failed ⟨1000, 1⟩ Chat.messageTooLong)).toFrame.length = 55 := by
    rw [Wire.length_toFrame, Chat.length_refusal]
    rfl
  have length := length_muttering
  have fate (count : Nat) (long : 256 < 57 + count)
      (small : (muttering count).encode.length < 256 ^ Wire.headerLength) :
      ((muttering count).encode.length ≤ 256 →
        settled.desk.outboxes.post 2 (.response (.failed ⟨1000, 1⟩ Chat.messageTooLong)) =
          (.ok (), (mutter count).desk.outboxes) ∧ (mutter count).desk.manager.find? 2 ≠ none ∧
        .did 2 (.heard ⟨1000, 1⟩ () (some (.failed ⟨1000, 1⟩ Chat.messageTooLong))) ∈
          ((mutter count).run listeners (learn 2 55)).history) ∧
      (256 < (muttering count).encode.length → (mutter count).desk.manager.find? 2 = none) := by
    have both := refused_or_cut reachable (Nat.le_refl 256) quiet_settled (.tell "a")
      (letters count) () reached (by rwa [length_letters]) small
    dsimp only at both
    rw [token, ← muttering, ← mutter, answer] at both
    obtain ⟨refused, cut⟩ := both
    refine ⟨fun fits => ?_, fun beyond => (cut beyond).2.1⟩
    obtain ⟨posted, -, stays, heard⟩ := refused fits
    refine ⟨posted, fun gone => ?_, ?_⟩
    · obtain ⟨connection, connected, -⟩ := quiet_settled.connection
      have same := stays 2
      rw [gone, connected] at same
      cases same
    · rw [(heard listening_settled).1]
      exact List.mem_append_right _ List.mem_cons_self
  exact ⟨reachable, quiet_settled,
    (fate 201 (by omega) (by rw [length]; decide)).1 (by rw [length]; decide),
    (fate 300 (by omega) (by rw [length]; decide)).2 (by rw [length]; decide)⟩

end Network

end Parley
