import Mathlib.Data.List.Nodup
import Parley.Proofs.Chat.Listener
import Parley.Proofs.Network.Books
import Parley.Proofs.Network.FrameLimit
import Parley.Proofs.Network.Notebooks
import Parley.Proofs.Network.Upstream

/-! Calls and their answers, from end to end.
Whatever the order in which things happen, a listener of a call has one outcome at most, and that
is the end of the session, or an answer which the server has posted for this listener while it
handled the request of this very call. -/

namespace Parley

open Client (Deed Noted Voiced hearings informed parked)
open Wire (Bytes)

namespace Network

variable {maxFrame : Nat} {net : Network τ α κ ν ω} {code : Client.Code κ ν ω}

/-- What a network keeps up in every step. -/
structure Orderly (maxFrame : Nat) (net : Network τ α κ ν ω) : Prop where
  sound : net.Sound maxFrame
  faithful : Ordinary net.history → net.Faithful
  balanced : Balanced maxFrame net.peers net.history

theorem Orderly.new [Inhabited τ] (maxClients maxFrame : Nat) (app : α) :
    (Network.new maxClients maxFrame app : Network τ α κ ν ω).Orderly maxFrame :=
  ⟨.new maxClients maxFrame app, fun _ => .new maxClients maxFrame app, .nil⟩

theorem prefix_perform (net : Network τ α κ ν ω) (action : Action κ ν ω) :
    net.history <+: (net.perform code action).history := by
  have same {net' : Network τ α κ ν ω} (same : net'.history = net.history) :
      net.history <+: net'.history := same ▸ List.prefix_refl _
  cases action with
  | dial address username state => exact List.prefix_append _ _
  | serverReads id lull arrivals =>
    rw [Network.perform]
    unfold Network.serverReads
    split
    · exact prefix_onPeer
    · exact List.prefix_refl _
  | notify =>
    rw [Network.perform]
    unfold Network.notify
    split
    all_goals exact List.prefix_refl _
  | serve =>
    rw [Network.perform]
    cases next : net.hall.pending with
    | nil => exact same (congrArg _ (serve_of_idle next))
    | cons command rest =>
      rw [serve_of_pending next]
      exact List.prefix_append _ _
  | duplicate id response =>
    rw [Network.perform]
    split
    · exact prefix_onPeer
    · exact List.prefix_refl _
  | serverCloses id => exact List.prefix_refl _
  | wait milliseconds => exact List.prefix_refl _
  | stopServing => exact List.prefix_refl _
  | _ => exact prefix_onPeer

theorem prefix_run (net : Network τ α κ ν ω) (actions : List (Action κ ν ω)) :
    net.history <+: (net.run code actions).history := by
  induction actions generalizing net with
  | nil => exact List.prefix_refl _
  | cons action rest ih => exact (net.prefix_perform action).trans (ih _)

theorem Orderly.perform (orderly : net.Orderly maxFrame) (lawful : code.Lawful)
    {action : Action κ ν ω} (few : Few (net.perform code action).history) :
    (net.perform code action).Orderly maxFrame := by
  refine ⟨orderly.sound.perform action, fun ordinary => ?_,
    orderly.balanced.perform orderly.sound lawful few⟩
  have before := ordinary.mono (net.prefix_perform action).subset
  exact (orderly.faithful before).perform orderly.sound lawful ordinary

theorem Orderly.run (orderly : net.Orderly maxFrame) (lawful : code.Lawful)
    (actions : List (Action κ ν ω)) (few : Few (net.run code actions).history) :
    (net.run code actions).Orderly maxFrame := by
  induction actions generalizing net with
  | nil => exact orderly
  | cons action rest ih =>
    have step := orderly.perform lawful (few.mono (prefix_run (net.perform code action) rest))
    exact ih step few

theorem begun_inj {deeds : List (Deed κ)} (apart : ((parked deeds).map (·.1)).Nodup)
    {call call' : Client.Call κ} {request request' : Request} {tokens tokens' : List Token}
    (begun : .begun call request tokens ∈ deeds) (begun' : .begun call' request' tokens' ∈ deeds)
    {token : Token} (mem : token ∈ (tokens.zip call.listeners).map (·.1))
    (mem' : token ∈ (tokens'.zip call'.listeners).map (·.1)) : request = request' := by
  have pairs : deeds.Pairwise fun one other => ∀ t ∈ (parked [one]).map (·.1),
      ∀ t' ∈ (parked [other]).map (·.1), t ≠ t' := by
    rw [parked, List.map_flatMap] at apart
    simpa [parked] using (List.pairwise_flatMap.1 apart).2
  have same : (.begun call request tokens : Deed κ) = .begun call' request' tokens' := by
    refine List.Pairwise.forall_of_forall_of_flip
      (R := fun one other => token ∈ (parked [one]).map (·.1) →
        token ∈ (parked [other]).map (·.1) → one = other)
      (fun _ _ _ _ => rfl) ?_ ?_ begun begun' (by simpa using mem) (by simpa using mem')
    · exact pairs.imp fun apart here there => (apart token here token there rfl).elim
    · exact pairs.imp fun apart there here => (apart token here token there rfl).elim
  exact (Deed.begun.inj same).2.1

theorem length_outcomes (id : ConnectionId) (token : Token) (history : List (Event κ)) :
    (outcomes id token history).length =
      ((informed (deedsOf id history)).map (·.1)).count token := by
  rw [outcomes]
  induction deedsOf id history with
  | nil => rfl
  | cons deed rest ih =>
    cases deed with
    | begun call request tokens => exact ih
    | heard heard name cause =>
      by_cases same : heard = token
      · simp [same, ih]
      · simp [same, ih]

theorem mem_outcomes {id : ConnectionId} {token : Token} {history : List (Event κ)} {name : κ}
    {cause : Option Response} :
    (name, cause) ∈ outcomes id token history ↔ .did id (.heard token name cause) ∈ history := by
  rw [← mem_deedsOf, outcomes, List.mem_filterMap]
  refine ⟨fun found => ?_, fun mem => ⟨_, mem, if_pos rfl⟩⟩
  obtain ⟨deed, mem, known⟩ := found
  cases deed with
  | begun call request tokens => cases known
  | heard heard name' cause' =>
    by_cases same : heard = token
    · obtain ⟨rfl, rfl⟩ : name' = name ∧ cause' = cause := by simpa [same] using known
      exact same ▸ mem
    · simp [same] at known

/-- A client that has done something is logged on, under an oid that it was granted if what it heard
was what the server had said. -/
theorem Orderly.book (orderly : net.Orderly maxFrame) {id : ConnectionId} {deed : Deed κ}
    (mem : .did id deed ∈ net.history) : ∃ (oid : Oid) (director : Client.Director κ),
      (maxFrame < 256 ^ Wire.headerLength → .granted id oid ∈ net.history) ∧
      director.Accounts oid (parked (deedsOf id net.history))
        (informed (deedsOf id net.history)) := by
  have done : deedsOf id net.history ≠ [] := List.ne_nil_of_mem (mem_deedsOf.2 mem)
  have known : ∃ peer ∈ net.peers, peer.id = id := by
    refine Classical.byContradiction fun unknown => done ?_
    exact orderly.balanced.strangers id fun peer mem same => unknown ⟨peer, mem, same⟩
  obtain ⟨peer, here, rfl⟩ := known
  have book := orderly.balanced.books peer here
  unfold Peer.Balanced at book
  cases stage : peer.stage with
  | joined client =>
    rw [stage] at book
    refine ⟨client.oid, client.desk.director, fun small => ?_, book⟩
    have listens := orderly.sound.listens small peer here
    unfold Peer.Listens at listens
    rw [stage] at listens
    exact listens.2.1
  | _ =>
    rw [stage] at book
    exact (done book).elim

theorem Orderly.apart (orderly : net.Orderly maxFrame) (few : Few net.history)
    {id : ConnectionId} {deed : Deed κ} (mem : .did id deed ∈ net.history) :
    ((parked (deedsOf id net.history)).map (·.1)).Nodup := by
  obtain ⟨oid, director, -, book⟩ := orderly.book mem
  exact book.order ▸ Client.nodup_issued (few id)

theorem Orderly.mem_zip (orderly : net.Orderly maxFrame) (ordinary : Ordinary net.history)
    {id : ConnectionId} {call : Client.Call κ} {request : Request} {tokens : List Token}
    (begun : .did id (.begun call request tokens) ∈ net.history) {token : Token}
    (mem : token ∈ request.args.tokens) : token ∈ (tokens.zip call.listeners).map (·.1) := by
  obtain ⟨count, plain⟩ :=
    (orderly.balanced.backed id).tokens call request tokens (mem_deedsOf.2 begun)
  rw [plain (ordinary.calls id call request tokens begun).1] at mem
  rwa [List.map_fst_zip (Nat.le_of_eq count)]

/-- No two requests of a client share a listener. -/
theorem Orderly.eq_of_called (orderly : net.Orderly maxFrame) (ordinary : Ordinary net.history)
    (few : Few net.history) {id : ConnectionId} {one other : Request}
    (called : Called net.history id one) (called' : Called net.history id other) {token : Token}
    (mem : token ∈ one.args.tokens) (mem' : token ∈ other.args.tokens) : one = other := by
  obtain ⟨call, tokens, begun⟩ := called
  obtain ⟨call', tokens', begun'⟩ := called'
  exact begun_inj (orderly.apart few begun) (mem_deedsOf.2 begun) (mem_deedsOf.2 begun')
    (orderly.mem_zip ordinary begun mem) (orderly.mem_zip ordinary begun' mem')

/-- What the server has posted for a token of a call, it has posted while it handled the request of
that call. -/
theorem Orderly.dispatched_of_posted (orderly : net.Orderly maxFrame)
    (small : maxFrame < 256 ^ Wire.headerLength) (ordinary : Ordinary net.history)
    (few : Few net.history) {id : ConnectionId}
    {call : Client.Call κ} {request : Request} {tokens : List Token}
    (begun : .did id (.begun call request tokens) ∈ net.history) {response : Response}
    (listed : response.token ∈ (tokens.zip call.listeners).map (·.1))
    (known : response ∈ posted net.history) :
    ∃ responses, .dispatched id request responses ∈ net.history ∧ response ∈ responses := by
  obtain ⟨oid, director, granted, book⟩ := orderly.book begun
  have own := mem_deedsOf.2 begun
  obtain ⟨event, dispatched, mem⟩ := List.mem_flatMap.1 known
  cases event with
  | dispatched id' request' responses =>
    obtain ⟨listed', granted'⟩ :=
      orderly.balanced.answers id' request' responses dispatched response mem
    -- the token is one of the caller's own, so the other request is its own as well
    have held : response.token ∈ (parked (deedsOf id net.history)).map (·.1) := by
      obtain ⟨pair, listed, same⟩ := List.mem_map.1 listed
      exact same ▸ List.mem_map_of_mem (List.mem_flatMap.2 ⟨_, own, listed⟩)
    have issued : response.token ∈ Client.issued oid (parked (deedsOf id net.history)).length :=
      book.order ▸ held
    rw [Client.callerOid_of_issued issued] at granted'
    obtain rfl := orderly.sound.server.unique id' id oid granted' (granted small)
    obtain ⟨call', tokens', begun'⟩ :=
      (orderly.faithful ordinary).dispatched id' request' responses dispatched
    obtain rfl := begun_inj (orderly.apart few begun) own (mem_deedsOf.2 begun') listed
      (orderly.mem_zip ordinary begun' listed')
    exact ⟨responses, dispatched, mem⟩
  | _ => cases mem

/-- No listener is told more often than it was handed to calls. -/
theorem Orderly.subperm_notes (orderly : net.Orderly maxFrame) {id : ConnectionId}
    {notes : List (κ × Client.Word)}
    (voiced : List.Forall₂ Voiced (hearings (deedsOf id net.history)) notes) :
    (notes.map (·.1)).Subperm ((parked (deedsOf id net.history)).map (·.2)) := by
  rw [Client.map_fst_of_voiced voiced, Client.map_fst_hearings]
  by_cases silent : deedsOf id net.history = []
  · rw [silent]
    exact List.nil_subperm
  · obtain ⟨deed, mem⟩ := List.exists_mem_of_ne_nil _ silent
    obtain ⟨oid, director, -, book⟩ := orderly.book (mem_deedsOf.1 mem)
    have once := book.once
    rw [List.map_append, List.nodup_append] at once
    obtain ⟨some, perm, sub⟩ := List.subperm_of_subset once.2.1.of_map fun pair mem =>
      book.known pair (List.mem_append_right director.pending mem)
    exact ⟨_, perm.map _, sub.map _⟩

/-- A listener that was handed to a call has one outcome at most. If all frames tell how long they
are, an answer that it hears was posted while the request of this very call was handled. -/
theorem outcomes_of_call [Inhabited τ] (code : Client.Code κ ν ω) (maxClients maxFrame : Nat)
    (app : α) (actions : List (Action κ ν ω)) (id : ConnectionId) :
    let start : Network τ α κ ν ω := .new maxClients maxFrame app
    let net := start.run code actions
    let noting := start.keepingNotes code actions
    noting.map Noted.state = net ∧
    List.Forall₂ Voiced (hearings (deedsOf id net.history)) (noting.notes id) ∧
    (code.Lawful → Few net.history →
      ((noting.notes id).map (·.1)).Subperm ((parked (deedsOf id net.history)).map (·.2)) ∧
      ∀ call request tokens, .did id (.begun call request tokens) ∈ net.history →
        tokens.length = call.listeners.length ∧
        ∀ token name, (token, name) ∈ tokens.zip call.listeners →
          (outcomes id token net.history).length ≤ 1 ∧
          ∀ name' cause, (name', cause) ∈ outcomes id token net.history → name' = name ∧
            ∀ response, cause = some response → response.token = token ∧
              (maxFrame < 256 ^ Wire.headerLength → Ordinary net.history → ∃ responses,
                .dispatched id request responses ∈ net.history ∧ response ∈ responses)) := by
  intro start net noting
  have voiced := start.voiced_keepingNotes code rfl rfl actions id
  refine ⟨start.map_keepingNotes code actions, voiced, fun lawful few => ?_⟩
  have orderly : net.Orderly maxFrame :=
    (Orderly.new maxClients maxFrame app).run lawful actions few
  refine ⟨orderly.subperm_notes voiced, fun call request tokens begun => ?_⟩
  obtain ⟨oid, director, -, book⟩ := orderly.book begun
  have backed := orderly.balanced.backed id
  have own := mem_deedsOf.2 begun
  have told : ((informed (deedsOf id net.history)).map (·.1)).Nodup := by
    have once := book.once
    rw [List.map_append, List.nodup_append] at once
    exact once.2.1
  refine ⟨(backed.tokens call request tokens own).1, fun token name listed =>
    ⟨?_, fun name' cause mem => ⟨?_, fun response same => ?_⟩⟩⟩
  · rw [length_outcomes]
    exact List.nodup_iff_count_le_one.1 told token
  · have heard : (token, name') ∈ informed (deedsOf id net.history) :=
      List.mem_filterMap.2 ⟨_, mem_deedsOf.2 (mem_outcomes.1 mem), rfl⟩
    have known := book.known _ (List.mem_append_right director.pending heard)
    have held : (token, name) ∈ parked (deedsOf id net.history) :=
      List.mem_flatMap.2 ⟨_, own, listed⟩
    exact congrArg (·.2) (List.inj_on_of_nodup_map (orderly.apart few begun) known held rfl)
  · subst same
    obtain ⟨rfl, known⟩ :=
      backed.causes token name' response (mem_deedsOf.2 (mem_outcomes.1 mem))
    refine ⟨rfl, fun small ordinary => ?_⟩
    exact orderly.dispatched_of_posted small ordinary few begun (List.mem_map_of_mem listed)
      (known small)

/-- Clients whose listeners hear of what they have said. -/
def listeners : Client.Code Unit Unit Unit where
  listen _ := Chat.onTell fun _ => .done
  observe _ _ _ _ := .done

/-- A client logs on, says something to itself, and hears what came of it. -/
def soliloquy : List (Action Unit Unit Unit) :=
  [.dial "" "a" (), .serverReads 2 .wouldBlock [.piece 30], .notify, .serve,
    .serverWrites 2 [.accepted 100], .clientReads 2 .wouldBlock [.piece 100],
    .begin 2 (Chat.tellCall 1 "a" "b" ()), .conclude 2 0, .clientWrites 2 [.accepted 200],
    .serverReads 2 .wouldBlock [.piece 200], .notify, .serve, .serverWrites 2 [.accepted 200],
    .clientReads 2 .wouldBlock [.piece 200], .clientRuns 2, .clientRuns 2]

def parlour : Network Unit Unit Unit Unit Unit := .new 4 1000 ()

def remark : Request := ⟨1, Chat.tell, [.str "a", .str "b", .listener ⟨1000, 1⟩]⟩

def echo : Response := ⟨⟨1000, 1⟩, Chat.tellSucceeded, []⟩

theorem history_soliloquy : (parlour.run listeners soliloquy).history =
    [.dialled 2 "a", .granted 2 1000,
      .did 2 (.begun (Chat.tellCall 1 "a" "b" ()) remark [⟨1000, 1⟩]),
      .dispatched 2 remark [echo], .did 2 (.heard ⟨1000, 1⟩ () (some echo))] := by
  decide +kernel

theorem lawful_listeners : listeners.Lawful :=
  fun _ => Chat.lawful_onTell fun _ _ _ _ same => by cases same

theorem outcomes_of_call_soliloquy :
    let history := (parlour.run listeners soliloquy).history
    outcomes 2 ⟨1000, 1⟩ history = [((), some echo)] ∧
    (outcomes 2 ⟨1000, 1⟩ history).length ≤ 1 ∧
    (∃ responses, .dispatched 2 remark responses ∈ history ∧ echo ∈ responses) ∧
    List.Forall₂ Voiced [((), some echo)] [((), .answer Chat.tellSucceeded [])] := by
  intro history
  have known : history = _ := history_soliloquy
  have ordinary : Ordinary history := by
    rw [known]
    refine ⟨fun id username mem => ?_, fun id call request tokens mem => ?_⟩
    · simp only [List.mem_cons, Event.dialled.injEq, reduceCtorEq, List.not_mem_nil,
        or_false] at mem
      obtain ⟨-, rfl⟩ := mem
      decide
    · simp only [List.mem_cons, Event.did.injEq, Deed.begun.injEq, reduceCtorEq, false_or,
        List.not_mem_nil, or_false, and_false] at mem
      obtain ⟨-, rfl, rfl, -⟩ := mem
      refine ⟨fun v mem => ?_, by decide⟩
      simp only [Chat.tellCall, List.mem_cons, Client.Argument.value.injEq, reduceCtorEq,
        List.not_mem_nil, or_false] at mem
      obtain rfl | rfl := mem
      all_goals rfl
  have few : Few history := by
    rw [known]
    intro id
    by_cases own : 2 = id
    · subst own
      decide
    · simp [deedsOf, own]
  have begun : .did 2 (.begun (Chat.tellCall 1 "a" "b" ()) remark [⟨1000, 1⟩]) ∈ history := by
    rw [known]
    decide
  have heard : outcomes 2 ⟨1000, 1⟩ history = [((), some echo)] := by
    rw [known]
    decide
  obtain ⟨-, voiced, told⟩ := @outcomes_of_call Unit Unit Unit Unit Unit _ listeners 4 1000 ()
    soliloquy 2
  obtain ⟨-, outcome⟩ := told lawful_listeners few
  obtain ⟨once, source⟩ := (outcome _ remark _ begun).2 ⟨1000, 1⟩ () (by decide)
  obtain ⟨-, answered⟩ := source () (some echo) (heard ▸ List.mem_singleton_self _)
  have spoken : hearings (deedsOf 2 history) = [((), some echo)] := by
    rw [known]
    decide
  have noted : (parlour.keepingNotes listeners soliloquy).notes 2 =
      [((), .answer Chat.tellSucceeded [])] := by
    decide +kernel
  refine ⟨heard, once, (answered echo rfl).2 (by decide) ordinary, ?_⟩
  rw [← spoken, ← noted]
  exact voiced

/-! A call that is handed more bytes than the header of a frame can count. -/

def shipping (data : Bytes) : Client.Call Unit :=
  ⟨1, Chat.tell, [.listener (), .value (.bytes data)]⟩

def shipment (data : Bytes) : Request := ⟨1, Chat.tell, [.listener ⟨1000, 1⟩, .bytes data]⟩

/-- What stands in front of 2 ^ 32 bytes in the frame of such a request. The header counts what
comes between it and the bytes, and no more. -/
def label : Bytes :=
  [0, 0, 0, 41, 1, 0, 0, 0, 1, 0, 0, 0, 1, 2, 0, 0, 0, 0, 0, 0, 0, 8, 0, 0, 0, 232, 3, 0, 0,
    1, 0, 0, 0, 6, 0, 0, 0, 0, 0, 0, 0, 1, 0, 0, 0]

theorem toFrame_shipment {data : Bytes} (length : data.length = 256 ^ Wire.headerLength) :
    (Message.invocation (shipment data)).toFrame = label ++ data := by
  have body : (Message.invocation (shipment data)).encode = label.drop 4 ++ data := by
    simp only [shipment, Message.encode, Message.write, Request.write, Arguments.write,
      Value.writeAll, Value.write, Wire.writeInt32, Wire.writeBytes, Wire.writeWord, Token.write,
      List.append_nil, length, List.length_cons, List.length_nil, ← List.append_assoc]
    exact congrArg (· ++ data) (by decide +kernel)
  rw [Message.toFrame, Wire.frame, body, List.length_append, length, ← List.append_assoc]
  exact congrArg (· ++ data) (by decide +kernel)

def shipper (calls : List (Request × List Token)) (messages : List Message)
    (toServer unsent : Bytes) : Peer Unit Unit Unit where
  id := 2
  state := ()
  stage :=
    let client : Client Unit Unit Unit := guest ()
    let director := { oid := 1000, pending := [(⟨1000, 1⟩, ())], nextRequest := 2 }
    .joined ({ client with unsent }.setDesk { director, outgoing := { messages }, state := () })
  toServer
  calls

def moored (peer : Peer Unit Unit Unit) (history : List (Event Unit)) :
    Network Unit Unit Unit Unit Unit :=
  lone 1000 { context := hosting () (holding 1000 welcome.toFrame [2] true), executed := 1 }
    (holding 1000 [] [2] true) [] peer history

def manifest (data : Bytes) : List (Event Unit) :=
  [.dialled 2 "a", .granted 2 1000,
    .did 2 (.begun (shipping data) (shipment data) [⟨1000, 1⟩])]

theorem begin_shipping (data : Bytes) :
    (moored { id := 2, state := (), stage := .joined (guest ()) }
      [.dialled 2 "a", .granted 2 1000]).begin 2 (shipping data) =
      moored (shipper [(shipment data, [⟨1000, 1⟩])] [] [] []) (manifest data) := by
  rw [Network.begin, moored, onJoined, lone_onPeer rfl]
  rfl

theorem conclude_shipping (request : Request) (history : List (Event Unit)) :
    (moored (shipper [(request, [⟨1000, 1⟩])] [] [] []) history).conclude 2 0 =
      moored (shipper [] [.invocation request] [] []) history := by
  rw [Network.conclude, moored, onJoined, lone_onPeer rfl]
  exact congrArg (moored _) (List.append_nil history)

theorem clientWrites_shipping {message : Message} {front rest : Bytes} (some : front ≠ [])
    (whole : message.toFrame = front ++ rest) (history : List (Event Unit)) :
    (moored (shipper [] [message] [] []) history).clientWrites 2 [.accepted front.length] =
      moored (shipper [] [] front rest) history := by
  rw [clientWrites, moored, onJoined, lone_onPeer rfl]
  dsimp only [shipper, whenJoined]
  rw [Client.write_of_front _ some rfl rfl rfl whole]
  exact congrArg (moored _) (List.append_nil history)

def stowaway : Bytes := (Message.invocation remark).toFrame

def ballast : Bytes := .replicate (256 ^ Wire.headerLength - stowaway.length) 0

theorem length_cargo : (stowaway ++ ballast).length = 256 ^ Wire.headerLength := by
  have short : stowaway.length ≤ 256 ^ Wire.headerLength := by decide
  rw [List.length_append, ballast, List.length_replicate, Nat.add_sub_cancel' short]

def ship : List (Action Unit Unit Unit) :=
  [.begin 2 (shipping (stowaway ++ ballast)), .conclude 2 0,
    .clientWrites 2 [.accepted (label ++ stowaway).length]]

def unloading : List (Action Unit Unit Unit) :=
  [.serverReads 2 .wouldBlock [.piece 200], .notify, .serve, .serverWrites 2 [.accepted 200],
    .clientReads 2 .wouldBlock [.piece 200], .clientRuns 2, .clientRuns 2]

def harbour : Network Unit Unit Unit Unit Unit := .new 1 1000 ()

def laden : Network Unit Unit Unit Unit Unit :=
  moored (shipper [] [] (label ++ stowaway) ballast) (manifest (stowaway ++ ballast))

theorem toFrame_cargo : (Message.invocation (shipment (stowaway ++ ballast))).toFrame =
    (label ++ stowaway) ++ ballast := by
  rw [toFrame_shipment length_cargo, List.append_assoc]

theorem run_ship : harbour.run listeners (arrive () ++ ship) = laden := by
  rw [harbour, run_append, run_arrive listeners () () (by decide), ← moored]
  simp only [ship, run, List.foldl_cons, List.foldl_nil, perform]
  rw [begin_shipping, conclude_shipping, clientWrites_shipping (by decide) toFrame_cargo]
  rfl

/-- A client logs on, and makes a call whose bytes hide a request. -/
def voyage : List (Action Unit Unit Unit) := (arrive () ++ ship) ++ unloading

theorem run_voyage : harbour.run listeners voyage = laden.run listeners unloading := by
  rw [voyage, run_append, run_ship]

theorem history_voyage : (harbour.run listeners voyage).history =
    manifest (stowaway ++ ballast) ++
      [.dispatched 2 remark [echo], .did 2 (.heard ⟨1000, 1⟩ () (some echo))] := by
  have later : (laden.run listeners unloading).history.drop 3 =
      [.dispatched 2 remark [echo], .did 2 (.heard ⟨1000, 1⟩ () (some echo))] := by
    decide +kernel
  rw [run_voyage, ← later]
  exact (List.prefix_iff_eq_append.1 (prefix_run laden unloading)).symm

/-- The listener of a call hears the answer to another request if the first does not tell how long it
is. -/
theorem misled_voyage :
    let history := (harbour.run listeners voyage).history
    let data := stowaway ++ ballast
    listeners.Lawful ∧ Few history ∧
    .did 2 (.begun (shipping data) (shipment data) [⟨1000, 1⟩]) ∈ history ∧
    outcomes 2 ⟨1000, 1⟩ history = [((), some echo)] ∧
    ¬ ∃ responses, .dispatched 2 (shipment data) responses ∈ history := by
  intro history data
  have known : history = _ := history_voyage
  rw [known]
  revert data
  generalize stowaway ++ ballast = data
  refine ⟨lawful_listeners, fun id => ?_, ?_, rfl, fun posted => ?_⟩
  · by_cases own : 2 = id
    · subst own
      change 1 < 2 ^ 32
      decide
    · simp [manifest, deedsOf, own]
  · simp [manifest]
  · obtain ⟨responses, mem⟩ := posted
    have same : shipment data = remark := by
      simp only [manifest, List.cons_append, List.nil_append, List.mem_cons, reduceCtorEq,
        Event.dispatched.injEq, true_and, List.not_mem_nil, or_false, false_or] at mem
      exact mem.1
    have count : 2 = 3 := congrArg (·.args.length) same
    cases count

end Network

end Parley
