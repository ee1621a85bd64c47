import Parley.Proofs.Connection.Desk
import Parley.Proofs.Wire.Chunks

/-! Connections as channels.
Whoever posts to a connection and whenever it is flushed, and however much its socket takes at a
time: what was written and what is still to be written are together the frames of the messages that
were accepted, in their order. So the other side decodes these messages and no others. -/

namespace Parley

namespace Wire

theorem parse_frames {limit : Nat} {messages : List Message}
    (le : ∀ message ∈ messages, message.encode.length ≤ limit)
    (small : ∀ message ∈ messages, message.Framable) :
    parse limit (frames messages) = (messages.map Message.encode, none) := by
  have admitted : ∀ body ∈ messages.map Message.encode, Admitted limit body := by
    intro body mem
    obtain ⟨message, known, rfl⟩ := List.mem_map.1 mem
    exact ⟨le message known, small message known⟩
  have bodies : frames messages = (messages.map Message.encode).flatMap frame ++ [] := by
    rw [List.append_nil, List.flatMap_map]
    rfl
  have rest : parse limit [] = ([], none) := parse_of_more rfl
  rw [bodies, parse_frames_append admitted, rest, List.append_nil]

theorem map_decode_encode {messages : List Message}
    (small : ∀ message ∈ messages, message.Framable) :
    (messages.map Message.encode).map Message.decode = messages.map .ok := by
  rw [List.map_map]
  exact List.map_congr_left fun message mem => (small message mem).decode_encode

namespace FrameReader

variable {limit : Nat} {messages : List Message} {uses : List Use}

theorem decoded_of_fed (room : limit < 256 ^ headerLength)
    (le : ∀ message ∈ messages, message.encode.length ≤ limit) {ahead : Bytes}
    (whole : fed uses ++ ahead = frames messages) :
    let reader := (FrameReader.mk limit []).run uses
    (∃ taken, taken <+: messages ∧ (bodies reader.1).map Message.decode = taken.map .ok) ∧
      ∀ error, .error error ∉ reader.1 := by
  intro reader
  have small (message : Message) (mem : message ∈ messages) : message.Framable :=
    Nat.lt_of_le_of_lt (le message mem) room
  have yields : (FrameReader.mk limit []).Yields (fed uses) (bodies reader.1) reader.2 :=
    yields_run _ uses
  have parsed : parse limit (fed uses ++ ahead) = _ := yields.parse_append ahead
  rw [whole, parse_frames le small] at parsed
  obtain ⟨first, last⟩ := Prod.mk.inj parsed
  refine ⟨?_, fun error mem => ?_⟩
  · obtain ⟨taken, later, rfl, given, -⟩ := List.map_eq_append_iff.1 first
    refine ⟨taken, List.prefix_append taken later, ?_⟩
    rw [← given,
      map_decode_encode fun message mem => small message (List.mem_append_left later mem)]
  · -- a reader that has met an error would meet it in what is ahead as well
    have stuck := parse_of_next_error (next_extend_of_error (next_run_of_error_mem mem) ahead)
    have same : parse reader.2.limit (reader.2.buffer ++ ahead) = ([], some error) := stuck
    rw [same] at last
    cases last

/-- A reader that is fed all the frames of some messages, and asked until it has nothing more, gives
all of these messages, if each frame can tell how long it is. -/
theorem decoded_of_framable (le : ∀ message ∈ messages, message.encode.length ≤ limit)
    (small : ∀ message ∈ messages, message.Framable) (whole : fed uses = frames messages) :
    let reader := (FrameReader.mk limit []).run uses
    (bodies reader.1 ++ reader.2.drain.1).map Message.decode = messages.map .ok ∧
      reader.2.drain.2.1 = none := by
  intro reader
  have parsed : parse limit (fed uses) = _ := parse_fed limit uses
  rw [whole, parse_frames le small] at parsed
  obtain ⟨first, ending⟩ := Prod.mk.inj parsed
  exact ⟨by rw [← first, map_decode_encode small], ending.symm⟩

theorem decoded_of_drained (room : limit < 256 ^ headerLength)
    (le : ∀ message ∈ messages, message.encode.length ≤ limit)
    (whole : fed uses = frames messages) :
    let reader := (FrameReader.mk limit []).run uses
    (bodies reader.1 ++ reader.2.drain.1).map Message.decode = messages.map .ok ∧
      reader.2.drain.2.1 = none :=
  decoded_of_framable le (fun message mem => Nat.lt_of_le_of_lt (le message mem) room) whole

theorem drainMessages_frames (le : ∀ message ∈ messages, message.encode.length ≤ limit)
    (small : ∀ message ∈ messages, message.Framable) :
    (FrameReader.mk limit (frames messages)).drainMessages.1 = messages := by
  have all : fed [.feed (frames messages)] = frames messages := List.append_nil _
  have bodies : ((FrameReader.mk limit (frames messages)).drain.1).map Message.decode =
      messages.map .ok := (decoded_of_framable le small all).1
  have given := congrArg (List.filterMap Except.toOption) bodies
  rw [List.filterMap_map, List.filterMap_map] at given
  exact given.trans List.filterMap_some

end FrameReader

end Wire

namespace Connection

open Wire (Bytes FrameReader IoError ProtocolError frames frames_append)

namespace Desk

inductive Use where
  | post (id : ConnectionId) (message : Message)
  | flush (id : ConnectionId) (answers : List WriteAnswer)
  | shut (id : ConnectionId)
  deriving DecidableEq, Repr

inductive Event where
  | posted (id : ConnectionId) (message : Message) (result : Except ProtocolError Unit)
  | flushed (id : ConnectionId) (result : Except IoError Bool) (written : Bytes)
  | shut (id : ConnectionId)

def use (desk : Desk) : Use → Event × Desk
  | .post id message =>
    let (result, outboxes) := desk.outboxes.post id message
    (.posted id message result, { desk with outboxes })
  | .flush id answers =>
    let (result, written, desk) := desk.pour id answers
    (.flushed id result written, desk)
  | .shut id => (.shut id, desk.shut id)

def run (desk : Desk) : List Use → List Event × Desk
  | [] => ([], desk)
  | use :: uses =>
    let (event, desk) := desk.use use
    let (events, desk) := desk.run uses
    (event :: events, desk)

def acceptances (events : List Event) : List (ConnectionId × Message) :=
  events.filterMap fun
    | .posted id message (.ok ()) => some (id, message)
    | _ => none

def accepted (id : ConnectionId) (events : List Event) : List Message :=
  (acceptances events).filterMap fun (other, message) => if other = id then some message else none

def written (id : ConnectionId) (events : List Event) : Bytes :=
  events.flatMap fun
    | .flushed other _ bytes => if other = id then bytes else []
    | _ => []

variable {id : ConnectionId} {before after desk : Desk} {events more : List Event}

theorem acceptances_append (events more : List Event) :
    acceptances (events ++ more) = acceptances events ++ acceptances more :=
  List.filterMap_append

theorem accepted_append (id : ConnectionId) (events more : List Event) :
    accepted id (events ++ more) = accepted id events ++ accepted id more := by
  rw [accepted, acceptances_append, List.filterMap_append]
  rfl

theorem written_append (id : ConnectionId) (events more : List Event) :
    written id (events ++ more) = written id events ++ written id more := List.flatMap_append

/-- Between two states a connection has carried what the events tell, and for every message that
was accepted a flush was asked for. -/
structure Carried (id : ConnectionId) (events : List Event) (before after : Desk) : Prop where
  requested : after.outboxes.requested =
    before.outboxes.requested ++ (acceptances events).map (·.1)
  box : ∀ box, before.outboxes.find? id = some box → ∃ box',
    after.outboxes.find? id = some box' ∧ box'.limit = box.limit ∧
      written id events ++ box'.buffer = box.buffer ++ frames (accepted id events) ∧
      ∀ message ∈ accepted id events, message.encode.length ≤ box.limit

theorem Carried.refl (id : ConnectionId) (desk : Desk) : Carried id [] desk desk :=
  ⟨(List.append_nil _).symm, fun box h => ⟨box, h, rfl, (List.append_nil _).symm, nofun⟩⟩

theorem Carried.trans {last : Desk} (early : Carried id events before after)
    (late : Carried id more after last) : Carried id (events ++ more) before last := by
  refine ⟨?_, fun box h => ?_⟩
  · rw [late.requested, early.requested, acceptances_append, List.map_append, List.append_assoc]
  · obtain ⟨box', h', limit', whole', le'⟩ := early.box box h
    obtain ⟨box'', h'', limit'', whole'', le''⟩ := late.box box' h'
    refine ⟨box'', h'', limit''.trans limit', ?_, fun message mem => ?_⟩
    · rw [written_append, accepted_append, frames_append, List.append_assoc, whole'',
        ← List.append_assoc, whole', List.append_assoc]
    · rw [accepted_append] at mem
      exact (List.mem_append.1 mem).elim (le' message) fun mem => limit' ▸ le'' message mem

theorem carried_post (id : ConnectionId) (desk : Desk) (other : ConnectionId) (message : Message) :
    Carried id [(desk.use (.post other message)).1] desk (desk.use (.post other message)).2 := by
  obtain ⟨error, refused⟩ | ⟨box, found, le, taken⟩ := desk.outboxes.post_cases other message
  · have same : desk.use (.post other message) = (.posted other message (.error error), desk) := by
      rw [use, refused]
    rw [same]
    exact ⟨(List.append_nil _).symm, fun box h => ⟨box, h, rfl, (List.append_nil _).symm, nofun⟩⟩
  · rw [use, taken]
    refine ⟨rfl, fun b h => ?_⟩
    have own := Outboxes.id_of_find? found
    dsimp only
    rw [Outboxes.find?_requested, Outboxes.find?_replace, h]
    by_cases here : other = id
    · subst here
      obtain rfl := Option.some.inj (found.symm.trans h)
      refine ⟨_, rfl, ?_⟩
      simp [own, written, accepted, acceptances, le]
    · refine ⟨b, ?_, rfl, ?_⟩
      · simp [own, Ne.symm here]
      · simp [written, accepted, acceptances, here]

theorem carried_flush (id : ConnectionId) (desk : Desk) (other : ConnectionId)
    (answers : List WriteAnswer) :
    Carried id [(desk.use (.flush other answers)).1] desk (desk.use (.flush other answers)).2 := by
  have poured := desk.flushed_pour other answers
  refine ⟨?_, fun box h => ?_⟩
  · have none : (acceptances [(desk.use (.flush other answers)).1]).map (·.1) = [] := rfl
    rw [none, List.append_nil]
    exact (desk.signals_pour other answers).1
  · obtain ⟨box', h', limit, whole⟩ := poured.present id box h
    refine ⟨box', h', limit, ?_, nofun⟩
    rw [use]
    by_cases here : other = id
    · simpa [written, accepted, acceptances, here] using whole
    · simpa [written, accepted, acceptances, here, Ne.symm here] using whole

theorem carried_shut (id : ConnectionId) (desk : Desk) (other : ConnectionId) :
    Carried id [(desk.use (.shut other)).1] desk (desk.use (.shut other)).2 := by
  refine ⟨(List.append_nil _).symm, fun box h => ?_⟩
  refine ⟨_, by rw [use, shut, Outboxes.find?_close, h]; rfl, ?_⟩
  split <;> simp [use, Outbox.close, written, accepted, acceptances]

theorem carried_run (id : ConnectionId) (desk : Desk) (uses : List Use) :
    Carried id (desk.run uses).1 desk (desk.run uses).2 := by
  induction uses generalizing desk with
  | nil => exact .refl id desk
  | cons use uses ih =>
    have first : Carried id [(desk.use use).1] desk (desk.use use).2 := by
      cases use with
      | post other message => exact carried_post id desk other message
      | flush other answers => exact carried_flush id desk other answers
      | shut other => exact carried_shut id desk other
    exact first.trans (ih (desk.use use).2)

theorem run_cons (desk : Desk) (use : Use) (uses : List Use) :
    desk.run (use :: uses) =
      ((desk.use use).1 :: ((desk.use use).2.run uses).1, ((desk.use use).2.run uses).2) := rfl

theorem run_append (desk : Desk) (early late : List Use) :
    desk.run (early ++ late) =
      ((desk.run early).1 ++ ((desk.run early).2.run late).1, ((desk.run early).2.run late).2) := by
  induction early generalizing desk with
  | nil => rfl
  | cons use early ih => rw [List.cons_append, run_cons, run_cons, ih, List.cons_append]

theorem length_run (desk : Desk) (uses : List Use) : (desk.run uses).1.length = uses.length := by
  induction uses generalizing desk with
  | nil => rfl
  | cons use uses ih => exact congrArg (· + 1) (ih _)

theorem run_of_events {uses : List Use} {early late : List Event} {event : Event}
    (h : (desk.run uses).1 = early ++ event :: late) :
    ∃ before use after, uses = before ++ use :: after ∧ (desk.run before).1 = early ∧
      ((desk.run before).2.use use).1 = event ∧
      (((desk.run before).2.use use).2.run after).1 = late := by
  have count := desk.length_run uses
  rw [h, List.length_append, List.length_cons] at count
  obtain ⟨before, use, after, rfl, same⟩ : ∃ before use after,
      uses = before ++ use :: after ∧ before.length = early.length :=
    have within : early.length < uses.length := by omega
    ⟨uses.take early.length, uses[early.length], uses.drop (early.length + 1),
      by rw [List.getElem_cons_drop, List.take_append_drop],
      List.length_take_of_le (Nat.le_of_lt within)⟩
  rw [run_append] at h
  obtain ⟨first, second⟩ := List.append_inj h ((desk.length_run before).trans same)
  obtain ⟨now, last⟩ := List.cons.inj second
  exact ⟨before, use, after, rfl, first, now, last⟩

/-- When a flush has said that it is done and nothing was accepted since, all that was accepted has
been written. -/
theorem written_of_done {uses : List Use} {box : Outbox} (found : desk.outboxes.find? id = some box)
    (empty : box.buffer = []) {early late : List Event} {bytes : Bytes}
    (done : (desk.run uses).1 = early ++ .flushed id (.ok true) bytes :: late)
    (quiet : accepted id late = []) :
    written id (desk.run uses).1 = frames (accepted id (desk.run uses).1) := by
  obtain ⟨before, use, after, rfl, first, now, last⟩ := run_of_events done
  obtain ⟨answers, rfl⟩ : ∃ answers, use = .flush id answers := by
    cases use with
    | post other message => cases now
    | flush other answers => exact ⟨answers, by rw [(Event.flushed.inj now).1]⟩
    | shut other => cases now
  -- the three parts of the run
  obtain ⟨box₁, found₁, -, -, -⟩ := (carried_run id desk before).box box found
  have flushing := carried_flush id (desk.run before).2 id answers
  obtain ⟨box₂, found₂, -, -, -⟩ := flushing.box box₁ found₁
  have out : box₂.buffer = [] := empty_of_pour found₂ (Event.flushed.inj now).2.1
  obtain ⟨box₃, found₃, -, since, -⟩ := (carried_run id _ after).box box₂ found₂
  rw [last, quiet, out] at since
  have left : box₃.buffer = [] := (List.append_eq_nil_iff.1 since).2
  obtain ⟨box', found', -, whole, -⟩ :=
    (carried_run id desk (before ++ .flush id answers :: after)).box box found
  rw [run_append] at found'
  obtain rfl := Option.some.inj (found₃.symm.trans found')
  rwa [left, List.append_nil, empty, List.nil_append] at whole

/-- A connection is a channel for messages: what was written to it and what is still to be written
are the frames of the messages that were accepted for it, in their order. -/
theorem channel_of_run {limit : Nat} {box : Outbox} (found : desk.outboxes.find? id = some box)
    (same : box.limit = limit) (empty : box.buffer = []) (uses : List Use) :
    let events := (desk.run uses).1
    let after := (desk.run uses).2
    (∃ box', after.outboxes.find? id = some box' ∧
      written id events ++ box'.buffer = frames (accepted id events)) ∧
    after.outboxes.requested = desk.outboxes.requested ++ (acceptances events).map (·.1) ∧
    (limit < 256 ^ Wire.headerLength → ∀ peer : List FrameReader.Use,
      let (answers, reader) := (FrameReader.mk limit []).run peer
      let received := FrameReader.bodies answers
      (FrameReader.fed peer <+: written id events →
        (∃ taken, taken <+: accepted id events ∧
          received.map Message.decode = taken.map .ok) ∧
        ∀ error, .error error ∉ answers) ∧
      ∀ early late bytes, events = early ++ .flushed id (.ok true) bytes :: late →
        accepted id late = [] → FrameReader.fed peer = written id events →
        (received ++ reader.drain.1).map Message.decode = (accepted id events).map .ok ∧
          reader.drain.2.1 = none) := by
  intro events after
  subst same
  have carried := carried_run id desk uses
  obtain ⟨box', found', -, whole, le⟩ := carried.box box found
  rw [empty, List.nil_append] at whole
  refine ⟨⟨box', found', whole⟩, carried.requested, fun room peer => ⟨fun part => ?_, ?_⟩⟩
  · obtain ⟨ahead, behind⟩ := part
    exact FrameReader.decoded_of_fed room le
      (show FrameReader.fed peer ++ (ahead ++ box'.buffer) = _ by
        rw [← List.append_assoc, behind, whole])
  · intro early late bytes done quiet all
    exact FrameReader.decoded_of_drained room le
      (all.trans (written_of_done found empty done quiet))

def visited : Desk := Desk.accept { manager := { limit := 100 }, outboxes := {} } "a"

/-- The first flush cuts a frame; behind it another message is accepted and one is refused. -/
def exchange : List Use :=
  [.post 2 .logoff, .flush 2 [.accepted 3, .wouldBlock], .post 2 (.ping 9), .shut 2,
    .post 2 .logoff, .flush 2 [.interrupted, .accepted 15, .accepted 100]]

theorem channel_of_run_exchange :
    let events := (visited.run exchange).1
    let reader := (FrameReader.mk 100 []).run
      [.feed ((written 2 events).take 13), .ask, .feed ((written 2 events).drop 13)]
    accepted 2 events = [.logoff, .ping 9] ∧ (FrameReader.bodies reader.1).length = 1 ∧
      (FrameReader.bodies reader.1 ++ reader.2.drain.1).map Message.decode =
        [.ok .logoff, .ok (.ping 9)] := by
  intro events reader
  have taken : accepted 2 events = [.logoff, .ping 9] := by decide
  have found : visited.outboxes.find? 2 = some { id := 2, address := "a", limit := 100 } := by
    decide
  obtain ⟨-, -, heard⟩ := channel_of_run found rfl rfl exchange
  obtain ⟨whole, -⟩ := (heard (by decide) _).2 (events.take 5) [] ((written 2 events).drop 3) rfl
    rfl (show FrameReader.fed [.feed ((written 2 events).take 13), .ask,
      .feed ((written 2 events).drop 13)] = written 2 events by decide)
  exact ⟨taken, by decide, whole.trans (by rw [taken]; rfl)⟩

end Desk

end Connection

end Parley
