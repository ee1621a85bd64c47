import Parley.Client.Client
import Parley.Proofs.Connection.Transfer

/-! What a client takes from its stream.
If what the reader holds and what is on its way are the frames of some messages, the client deals
with these messages in their order, and with nothing else, until the stream ends. -/

namespace Parley.Client

open Wire (Bytes FrameReader ProtocolError frames length_toFrame headerLength)
open Connection (ReadAnswer WriteAnswer carried Settled writeOut_append)

variable {reader after : FrameReader} {coming : Bytes} {messages : List Message}
  {answers rest : List ReadAnswer}

theorem limit_nextDecodable (reader : FrameReader) (count : Nat) :
    (nextDecodable reader count).2.limit = reader.limit := by
  induction count generalizing reader with
  | zero => rfl
  | succ count ih =>
    have same := reader.next_limit
    unfold nextDecodable
    split
    · rename_i h
      rwa [h] at same
    · rename_i h
      rwa [h] at same
    · rename_i h
      rw [h] at same
      split
      · exact same
      · exact (ih _).trans same

/-- What a reader that awaits messages can find in its buffer. -/
def Found (reader after : FrameReader) (coming : Bytes) (messages : List Message) :
    Except ProtocolError (Option Message) → Prop
  | .ok (some message) => ∃ later, messages = message :: later ∧ after.Awaits coming later
  | .ok none => after = reader
  | .error _ => after = reader ∧ ∃ message ∈ messages, reader.limit < message.encode.length

theorem nextDecodable_of_awaits {count : Nat} {result : Except ProtocolError (Option Message)}
    (awaits : reader.Awaits coming messages)
    (h : nextDecodable reader (count + 1) = (result, after)) :
    Found reader after coming messages result := by
  unfold nextDecodable at h
  split at h
  · rename_i next
    cases h
    exact awaits.next_error next
  · rename_i next
    cases h
    exact FrameReader.next_none next
  · rename_i next
    obtain ⟨message, later, rfl, small, rfl, -, awaits'⟩ := awaits.next_some next
    rw [small.decode_encode] at h
    cases h
    exact ⟨later, rfl, awaits'⟩

theorem nextDecodable_of_empty (empty : reader.buffer = []) (count : Nat) :
    nextDecodable reader (count + 1) = (.ok none, reader) := by
  unfold nextDecodable
  rw [reader.next_of_empty empty]

theorem nextMessage_of_large {message : Message} (empty : reader.buffer = [])
    (small : message.Framable) (large : reader.limit < message.encode.length) :
    nextMessage reader [.data message.toFrame, .wouldBlock] =
      (.failed (.frameTooLarge message.encode.length reader.limit),
        reader.extend message.toFrame, [.wouldBlock]) := by
  have next := FrameReader.next_extend_large empty small large
  have some := Wire.toFrame_ne_nil message
  unfold nextMessage
  rw [nextDecodable_of_empty empty]
  cases frame : message.toFrame with
  | nil => exact (some frame).elim
  | cons first bytes =>
    rw [frame] at next
    dsimp only
    unfold nextMessage nextDecodable
    rw [next]

theorem nextMessage_toFrame {message : Message} (empty : reader.buffer = [])
    (small : message.Framable) (le : message.encode.length ≤ reader.limit) :
    nextMessage reader [.data message.toFrame, .wouldBlock] =
      (.message message, reader, [.wouldBlock]) := by
  obtain ⟨limit, buffer⟩ := reader
  obtain rfl : buffer = [] := empty
  have next : (FrameReader.extend ⟨limit, []⟩ message.toFrame).next =
      (.ok (some message.encode), ⟨limit, []⟩) :=
    FrameReader.next_of_toFrame small le (by rw [List.append_nil]; rfl)
  have some := Wire.toFrame_ne_nil message
  unfold nextMessage
  rw [nextDecodable_of_empty rfl]
  cases frame : message.toFrame with
  | nil => exact (some frame).elim
  | cons first bytes =>
    rw [frame] at next
    dsimp only
    unfold nextMessage nextDecodable
    rw [next]
    dsimp only
    rw [small.decode_encode]

/-- What the next thing in a stream can be for a reader that awaits messages; `rest` is what the
socket has answered and nobody has looked at. -/
def Next.Expected (limit : Nat) (after : FrameReader) (coming : Bytes) (messages : List Message)
    (rest : List ReadAnswer) : Next → Prop
  | .message m => ∃ later, messages = m :: later ∧ after.Awaits (carried rest ++ coming) later
  | .waiting => after.Awaits coming messages
  | .ended => after.Awaits (carried rest ++ coming) messages
  | .failed error => after.Awaits (carried rest ++ coming) messages ∧
      ((∃ failure, error = .io failure) ∨
        ∃ message ∈ messages, limit < message.encode.length)

theorem nextMessage_of_awaits {next : Next} (settled : Settled answers)
    (awaits : reader.Awaits (carried answers ++ coming) messages)
    (h : nextMessage reader answers = (next, after, rest)) :
    next.Expected reader.limit after coming messages rest ∧ Settled rest ∧
      after.limit = reader.limit := by
  induction answers generalizing reader with
  | nil =>
    have same := limit_nextDecodable reader (reader.buffered + 1)
    unfold nextMessage at h
    split at h
    all_goals
      rename_i taken
      cases h
      have found := nextDecodable_of_awaits awaits taken
      rw [taken] at same
    · exact ⟨found, trivial, same⟩
    · obtain ⟨rfl, large⟩ := found
      exact ⟨⟨awaits, .inr large⟩, trivial, rfl⟩
    · obtain rfl := found
      exact ⟨awaits, trivial, rfl⟩
  | cons answer others ih =>
    have same := limit_nextDecodable reader (reader.buffered + 1)
    unfold nextMessage at h
    split at h
    all_goals
      rename_i taken
      have found := nextDecodable_of_awaits awaits taken
      rw [taken] at same
    · cases h
      exact ⟨found, settled, same⟩
    · cases h
      obtain ⟨rfl, large⟩ := found
      exact ⟨⟨awaits, .inr large⟩, settled, rfl⟩
    · obtain rfl := found
      split at h
      · cases h
        exact ⟨awaits, settled.tail, rfl⟩
      · rw [carried, List.append_assoc] at awaits
        have known := ih settled.tail awaits.extend h
        exact known
      · cases h
        exact ⟨⟨awaits, .inl ⟨_, rfl⟩⟩, settled.tail, rfl⟩
      · cases h
        obtain rfl : rest = [] := settled
        exact ⟨awaits, trivial, rfl⟩
      · cases h
        exact ⟨awaits, settled.tail, rfl⟩
      · cases h
        exact ⟨⟨awaits, .inl ⟨_, rfl⟩⟩, settled.tail, rfl⟩

theorem messageBound_eq (reader : FrameReader) (answers : List ReadAnswer) :
    messageBound reader answers = reader.buffer.length + (carried answers).length + 1 := by
  have sum (n : Nat) : answers.foldl (fun n answer => n + answer.size) n =
      n + (carried answers).length := by
    induction answers generalizing n with
    | nil => rfl
    | cons answer rest ih =>
      rw [List.foldl_cons, ih]
      cases answer <;> simp [carried, ReadAnswer.size, Nat.add_assoc]
  rw [messageBound, sum, FrameReader.buffered]
  omega

theorem less_to_read {message : Message} {later : List Message}
    (before : reader.Awaits (carried answers ++ coming) (message :: later))
    (behind : after.Awaits (carried rest ++ coming) later) :
    after.buffer.length + (carried rest).length <
      reader.buffer.length + (carried answers).length := by
  have whole := congrArg List.length before.whole
  have whole' := congrArg List.length behind.whole
  simp only [Wire.frames_cons, List.length_append, length_toFrame, headerLength] at whole whole'
  omega

def isWelcome : Message → Bool
  | .bootstrap _ _ => true
  | _ => false

/-- What logging on comes to for a reader that awaits messages. -/
def Logon.Expected (limit : Nat) (coming : Bytes) (messages : List Message)
    (rest : List ReadAnswer) : Logon → Prop
  | .waiting after => after.limit = limit ∧
      ∃ passed later, messages = passed ++ later ∧ after.Awaits coming later
  | .welcome oid services after => after.limit = limit ∧ Settled rest ∧
      ∃ passed later, messages = passed ++ .bootstrap oid services :: later ∧
        after.Awaits (carried rest ++ coming) later
  | .failed error => ∀ failure, error = .protocol failure →
      (∃ cause, failure = .io cause) ∨ ∃ message ∈ messages, limit < message.encode.length

/-- What logging on comes to, exactly: it passes over messages up to the first bootstrap. -/
def Logon.Reached (limit : Nat) (coming : Bytes) (messages : List Message)
    (rest : List ReadAnswer) : Logon → Prop
  | .waiting after => after.limit = limit ∧
      ∃ passed later, messages = passed ++ later ∧ (∀ message ∈ passed, isWelcome message = false) ∧
        after.Awaits coming later
  | .welcome oid services after => after.limit = limit ∧ Settled rest ∧
      ∃ passed later, messages = passed ++ .bootstrap oid services :: later ∧
        (∀ message ∈ passed, isWelcome message = false) ∧
        after.Awaits (carried rest ++ coming) later
  | .failed error => ∀ failure, error = .protocol failure →
      (∃ cause, failure = .io cause) ∨ ∃ message ∈ messages, limit < message.encode.length

theorem Logon.Reached.cons {logon : Logon} {limit : Nat} {message : Message}
    (reached : logon.Reached limit coming messages rest) (plain : isWelcome message = false) :
    logon.Reached limit coming (message :: messages) rest := by
  cases logon with
  | waiting after =>
    obtain ⟨same, passed, later, rfl, skipped, awaits⟩ := reached
    exact ⟨same, message :: passed, later, rfl, List.forall_mem_cons.2 ⟨plain, skipped⟩, awaits⟩
  | welcome oid services after =>
    obtain ⟨same, settled, passed, later, rfl, skipped, awaits⟩ := reached
    exact ⟨same, settled, message :: passed, later, rfl, List.forall_mem_cons.2 ⟨plain, skipped⟩,
      awaits⟩
  | failed error =>
    intro failure same
    refine (reached failure same).imp_right fun large => ?_
    obtain ⟨m, mem, large⟩ := large
    exact ⟨m, List.mem_cons_of_mem _ mem, large⟩

theorem Logon.Reached.expected {logon : Logon} {limit : Nat}
    (reached : logon.Reached limit coming messages rest) :
    logon.Expected limit coming messages rest := by
  cases logon with
  | waiting after =>
    obtain ⟨same, passed, later, whole, -, awaits⟩ := reached
    exact ⟨same, passed, later, whole, awaits⟩
  | welcome oid services after =>
    obtain ⟨same, settled, passed, later, whole, -, awaits⟩ := reached
    exact ⟨same, settled, passed, later, whole, awaits⟩
  | failed error => exact reached

theorem Logon.reached_proceedAtMost {logon : Logon} {count : Nat} (settled : Settled answers)
    (awaits : reader.Awaits (carried answers ++ coming) messages)
    (enough : reader.buffer.length + (carried answers).length < count)
    (h : Logon.proceedAtMost reader answers count = (logon, rest)) :
    logon.Reached reader.limit coming messages rest := by
  induction count generalizing reader answers messages with
  | zero => omega
  | succ count ih =>
    unfold Logon.proceedAtMost at h
    rcases taken : nextMessage reader answers with ⟨next, after, others⟩
    obtain ⟨expected, settled', same⟩ := nextMessage_of_awaits settled awaits taken
    rw [taken] at h
    cases next with
    | message message =>
      obtain ⟨later, rfl, awaits'⟩ := expected
      have less := less_to_read awaits awaits'
      cases message with
      | bootstrap oid services =>
        cases h
        exact ⟨same, settled', [], later, rfl, List.forall_mem_nil _, awaits'⟩
      | failure reason =>
        cases h
        intro failure equal
        cases equal
      | _ =>
        have known := ih settled' awaits' (by omega) h
        rw [same] at known
        exact known.cons rfl
    | waiting =>
      cases h
      exact ⟨same, [], messages, rfl, List.forall_mem_nil _, expected⟩
    | ended =>
      cases h
      intro failure equal
      cases equal
    | failed error =>
      cases h
      intro failure equal
      cases equal
      exact expected.2

theorem Logon.reached_proceed {logon : Logon} (settled : Settled answers)
    (awaits : reader.Awaits (carried answers ++ coming) messages)
    (h : Logon.proceed reader answers = (logon, rest)) :
    logon.Reached reader.limit coming messages rest := by
  refine reached_proceedAtMost settled awaits ?_ h
  rw [messageBound_eq]
  omega

theorem Logon.proceed_of_awaits {logon : Logon} (settled : Settled answers)
    (awaits : reader.Awaits (carried answers ++ coming) messages)
    (h : Logon.proceed reader answers = (logon, rest)) :
    logon.Expected reader.limit coming messages rest :=
  (reached_proceed settled awaits h).expected

end Parley.Client

namespace Parley

open Client Wire
open Connection (ReadAnswer WriteAnswer carried Settled writeOut_append)

namespace Client

structure Kept (before after : Client κ ν ω) : Prop where
  oid : after.oid = before.oid
  context : after.queue.context = before.queue.context
  writing : after.writing = before.writing
  unsent : after.unsent = before.unsent

namespace Kept

theorem refl (client : Client κ ν ω) : Kept client client := ⟨rfl, rfl, rfl, rfl⟩

theorem trans {first second third : Client κ ν ω} (early : Kept first second)
    (late : Kept second third) : Kept first third :=
  ⟨late.oid.trans early.oid, late.context.trans early.context, late.writing.trans early.writing,
    late.unsent.trans early.unsent⟩

theorem enqueue (client : Client κ ν ω) (command : Command ν) :
    Kept client (client.enqueue command).2 :=
  ⟨rfl, client.queue.context_enqueue command, rfl, rfl⟩

theorem stop (client : Client κ ν ω) : Kept client client.stopReading :=
  (enqueue client .endSession).trans ⟨rfl, rfl, rfl, rfl⟩

end Kept

/-- Whatever the bytes are that a client reads, they change nothing but its reader and its queue. -/
theorem kept_readAtMost (client : Client κ ν ω) (answers : List ReadAnswer) (count : Nat) :
    Kept client (client.readAtMost answers count) := by
  induction count generalizing client answers with
  | zero => exact .refl client
  | succ count ih =>
    unfold readAtMost
    split
    · exact .refl client
    · rcases nextMessage client.reader answers with ⟨next, reader, rest⟩
      have moved : Kept client { client with reader } := ⟨rfl, rfl, rfl, rfl⟩
      cases next with
      | waiting => exact moved
      | ended => exact moved.trans (.stop _)
      | failed error => exact moved.trans (.stop _)
      | message message =>
        dsimp only
        split
        · exact moved.trans (ih _ rest)
        · rename_i command _
          have put : Kept client (Client.enqueue { client with reader } command).2 :=
            moved.trans (.enqueue _ command)
          rcases entered : Client.enqueue { client with reader } command with ⟨accepted, next⟩
          rw [entered] at put
          cases accepted with
          | false => exact put.trans ⟨rfl, rfl, rfl, rfl⟩
          | true => exact put.trans (ih next rest)

theorem kept_read (client : Client κ ν ω) (answers : List ReadAnswer) :
    Kept client (client.read answers) := client.kept_readAtMost answers _

/-- Between two states of a client its reader has taken the messages: what they ask for was put
into the queue, unless the queue was closed. -/
structure Read (taken : List Message) (before after : Client κ ν ω) : Prop where
  limit : after.reader.limit = before.reader.limit
  queued : ∃ commands, after.queue.pending = before.queue.pending ++ commands ∧
    ∀ response, .respond response ∈ commands → .response response ∈ taken

theorem enqueue_cases (client : Client κ ν ω) (command : Command ν) :
    client.enqueue command = (false, client) ∨
      client.enqueue command = (true, { client with
        queue := { client.queue with pending := client.queue.pending ++ [command] } }) := by
  unfold enqueue ActionQueue.enqueue
  cases client.queue.isClosed with
  | true => exact .inl rfl
  | false => exact .inr rfl

def Command.isNews : Command ν → Bool
  | .respond _ => true
  | .apply _ => true
  | _ => false

theorem isNews_of_command? {message : Message} {command : Command ν}
    (asked : command? message = some command) : command.isNews = true := by
  cases message <;> cases asked <;> rfl

/-- Between two states of a client its reader has taken the messages, and what they ask for is in
the queue, in their order. -/
structure Queued (taken : List Message) (before after : Client κ ν ω) : Prop where
  limit : after.reader.limit = before.reader.limit
  queued : ∃ commands, after.queue.pending = before.queue.pending ++ commands ∧
    commands.filter Command.isNews = taken.filterMap command?

namespace Queued

variable {taken more : List Message} {before after : Client κ ν ω}

theorem trans {first second third : Client κ ν ω} (early : Queued taken first second)
    (late : Queued more second third) : Queued (taken ++ more) first third := by
  obtain ⟨some, queued, asked⟩ := early.queued
  obtain ⟨rest, queued', asked'⟩ := late.queued
  refine ⟨late.limit.trans early.limit, some ++ rest, ?_, ?_⟩
  · rw [queued', queued, List.append_assoc]
  · rw [List.filter_append, List.filterMap_append, asked, asked']

theorem move (client : Client κ ν ω) (reader : FrameReader) (reading : Bool)
    (same : reader.limit = client.reader.limit) :
    Queued [] client { client with reader, reading } :=
  ⟨same, [], (List.append_nil _).symm, rfl⟩

theorem stop (client : Client κ ν ω) : Queued [] client client.stopReading := by
  unfold stopReading
  obtain shut | taken := client.enqueue_cases .endSession
  · rw [shut]
    exact ⟨rfl, [], (List.append_nil _).symm, rfl⟩
  · rw [taken]
    exact ⟨rfl, [.endSession], rfl, rfl⟩

theorem read (queued : Queued taken before after) (more : List Message) :
    Read (taken ++ more) before after := by
  obtain ⟨commands, pending, asked⟩ := queued.queued
  refine ⟨queued.limit, commands, pending, fun response mem => List.mem_append_left more ?_⟩
  have mem : .respond response ∈ commands.filter Command.isNews := List.mem_filter.2 ⟨mem, rfl⟩
  rw [asked] at mem
  obtain ⟨message, known, same⟩ := List.mem_filterMap.1 mem
  cases message <;> cases same
  exact known

end Queued

/-- A reader that awaits messages takes them one after the other, and puts what they ask for into
the queue. When it finds the queue closed it stops, and what it has taken last is refused. -/
theorem queued_readAtMost (client : Client κ ν ω) {coming : Bytes} {messages : List Message}
    {answers : List ReadAnswer} {count : Nat} (settled : Settled answers)
    (awaits : client.reader.Awaits (carried answers ++ coming) messages)
    (enough : client.reader.buffer.length + (carried answers).length < count) :
    ∃ taken refused later lost, messages = taken ++ (refused ++ later) ∧
      Queued taken client (client.readAtMost answers count) ∧
      (client.readAtMost answers count).reader.Awaits (lost ++ coming) later ∧
      ((client.readAtMost answers count).reading → refused = [] ∧ lost = []) := by
  induction count generalizing client answers messages with
  | zero => omega
  | succ count ih =>
    unfold readAtMost
    split
    · rename_i stopped
      exact ⟨[], [], messages, carried answers, rfl, .move client _ _ rfl, awaits,
        fun on => by simp [on] at stopped⟩
    · rcases found : nextMessage client.reader answers with ⟨next, reader, rest⟩
      obtain ⟨expected, settled', same⟩ := nextMessage_of_awaits settled awaits found
      have moved : Queued [] client { client with reader } := .move client reader _ same
      cases next with
      | waiting => exact ⟨[], [], messages, [], rfl, moved, expected, fun _ => ⟨rfl, rfl⟩⟩
      | ended => exact ⟨[], [], messages, carried rest, rfl, moved.trans (.stop _), expected, nofun⟩
      | failed error =>
        exact ⟨[], [], messages, carried rest, rfl, moved.trans (.stop _), expected.1, nofun⟩
      | message message =>
        obtain ⟨later, rfl, awaits'⟩ := expected
        have less := less_to_read awaits awaits'
        dsimp only
        split
        · rename_i noted
          obtain ⟨taken, refused, later, lost, rfl, queued, left, kept⟩ :=
            ih { client with reader } settled' awaits' (by dsimp only; omega)
          have passed : Queued [message] client { client with reader } :=
            ⟨same, [], (List.append_nil _).symm, by simp [noted]⟩
          exact ⟨message :: taken, refused, later, lost, rfl, passed.trans queued, left, kept⟩
        · rename_i command asked
          obtain shut | taken := enqueue_cases { client with reader } command
          · rw [shut]
            have halted : Queued [] client { client with reader, reading := false } :=
              .move client reader false same
            exact ⟨[], [message], later, carried rest, rfl, halted, awaits', nofun⟩
          · rw [taken]
            dsimp only
            generalize put : ({ { client with reader } with queue :=
              { client.queue with pending := client.queue.pending ++ [command] } } :
                Client κ ν ω) = next
            have queued : Queued [message] client next := by
              subst put
              exact ⟨same, [command], rfl, by simp [asked, isNews_of_command? asked]⟩
            obtain rfl : next.reader = reader := congrArg (·.reader) put.symm
            obtain ⟨taken, refused, later, lost, rfl, others, left, kept⟩ :=
              ih next settled' awaits' (by omega)
            exact ⟨message :: taken, refused, later, lost, rfl, queued.trans others, left, kept⟩

theorem queued_read (client : Client κ ν ω) {coming : Bytes} {messages : List Message}
    {answers : List ReadAnswer} (settled : Settled answers)
    (awaits : client.reader.Awaits (carried answers ++ coming) messages) :
    ∃ taken refused later lost, messages = taken ++ (refused ++ later) ∧
      Queued taken client (client.read answers) ∧
      (client.read answers).reader.Awaits (lost ++ coming) later ∧
      ((client.read answers).reading → refused = [] ∧ lost = []) := by
  refine client.queued_readAtMost settled awaits ?_
  rw [messageBound_eq]
  omega

theorem read_of_awaits (client : Client κ ν ω) {coming : Bytes} {messages : List Message}
    {answers : List ReadAnswer} (settled : Settled answers)
    (awaits : client.reader.Awaits (carried answers ++ coming) messages) :
    ∃ taken later lost, messages = taken ++ later ∧ Read taken client (client.read answers) ∧
      (client.read answers).reader.Awaits (lost ++ coming) later ∧
      ((client.read answers).reading → lost = []) := by
  obtain ⟨taken, refused, later, lost, rfl, queued, left, kept⟩ :=
    client.queued_read settled awaits
  exact ⟨taken ++ refused, later, lost, (List.append_assoc _ _ _).symm, queued.read refused, left,
    fun on => (kept on).2⟩

theorem readAtMost_of_empty (client : Client κ ν ω) (empty : client.reader.buffer = [])
    (count : Nat) : client.readAtMost [.wouldBlock] count = client := by
  cases count with
  | zero => rfl
  | succ count =>
    have waits : nextMessage client.reader [.wouldBlock] = (.waiting, client.reader, []) := by
      unfold nextMessage
      rw [nextDecodable_of_empty empty]
    rw [readAtMost]
    split
    · rfl
    · rw [waits]

theorem read_toFrame (client : Client κ ν ω) {message : Message} {command : Command ν}
    (asked : command? message = some command) (reading : client.reading = true)
    (accepting : client.queue.isClosed = false) (empty : client.reader.buffer = [])
    (small : message.Framable) (le : message.encode.length ≤ client.reader.limit) :
    client.read [.data message.toFrame, .wouldBlock] = { client with
      queue := { client.queue with pending := client.queue.pending ++ [command] } } := by
  have on : ¬ (!client.reading) = true := by
    rw [reading]
    decide
  rw [read, messageBound_eq, readAtMost, if_neg on, nextMessage_toFrame empty small le]
  dsimp only
  rw [asked]
  dsimp only
  rw [enqueue, ActionQueue.enqueue_of_open accepting]
  exact readAtMost_of_empty { client with
    queue := { client.queue with pending := client.queue.pending ++ [command] } } empty _

/-- Between two states of a client its writer has written the bytes. What it still has to write is
lost if it has stopped. -/
structure Wrote (written : Bytes) (before after : Client κ ν ω) : Prop where
  oid : after.oid = before.oid
  director : after.desk.director = before.desk.director
  pending : after.queue.pending = before.queue.pending
  reader : after.reader = before.reader
  reading : after.reading = before.reading
  bytes : ∃ tail, written ++ tail = before.unsent ++ frames before.desk.outgoing.messages ∧
    (after.writing → tail = after.unsent ++ frames after.desk.outgoing.messages)
  stopped : before.writing = false → written = [] ∧ after = before

theorem wrote_write (client : Client κ ν ω) (answers : List WriteAnswer) :
    Wrote (client.write answers).1 client (client.write answers).2 := by
  unfold write
  cases writing : client.writing with
  | false =>
    refine ⟨rfl, rfl, rfl, rfl, rfl, ⟨_, List.nil_append _, fun on => ?_⟩, fun _ => ⟨rfl, rfl⟩⟩
    cases writing.symm.trans on
  | true =>
    dsimp only [Bool.not_true, Bool.false_eq_true, ↓reduceIte]
    rcases out : Connection.writeOut [] (client.unsent ++
      client.desk.outgoing.messages.flatMap Message.toFrame) (answers.map once) with
      ⟨result, written, buffer⟩
    have whole := writeOut_append out
    have on (off : client.writing = false) : False := by cases writing.symm.trans off
    cases result with
    | ok done =>
      exact ⟨rfl, rfl, rfl, rfl, rfl, ⟨buffer, whole, fun _ => (List.append_nil _).symm⟩,
        fun off => (on off).elim⟩
    | error error =>
      exact ⟨rfl, rfl, rfl, rfl, rfl, ⟨buffer, whole, nofun⟩, fun off => (on off).elim⟩

theorem messages_write (client : Client κ ν ω) (answers : List WriteAnswer) :
    (client.write answers).2.desk.outgoing.messages = [] ∨ (client.write answers).2 = client := by
  unfold write
  split
  · exact .inr rfl
  · left
    dsimp only
    split <;> rfl

theorem write_of_front (client : Client κ ν ω) {message : Message} {front rest : Bytes}
    (some : front ≠ []) (writing : client.writing = true) (idle : client.unsent = [])
    (posted : client.desk.outgoing.messages = [message])
    (whole : message.toFrame = front ++ rest) :
    client.write [.accepted front.length] =
      (front, { client with unsent := rest }.setDesk
        { client.desk with outgoing := { client.desk.outgoing with messages := [] } }) := by
  have buffer : client.unsent ++ client.desk.outgoing.messages.flatMap Message.toFrame =
      front ++ rest := by
    rw [idle, posted, List.flatMap_singleton, List.nil_append, whole]
  have answered : [WriteAnswer.accepted front.length].map once = [.accepted front.length] := rfl
  unfold write
  rw [writing]
  dsimp only
  rw [buffer, answered, Connection.writeOut_front some]
  rfl

theorem write_of_accepted (client : Client κ ν ω) {message : Message}
    (writing : client.writing = true) (idle : client.unsent = [])
    (posted : client.desk.outgoing.messages = [message]) :
    client.write [.accepted message.toFrame.length] =
      (message.toFrame, { client with unsent := [] }.setDesk
        { client.desk with outgoing := { client.desk.outgoing with messages := [] } }) :=
  client.write_of_front (Wire.toFrame_ne_nil message) writing idle posted
    (List.append_nil _).symm

end Client

end Parley
