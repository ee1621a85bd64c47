import Parley.Client.Context
import Parley.Chat.Listener
import Parley.Connection.Basic

/-! A client: logging on, reading what the server says, and taking leave.
The reader takes messages from the stream one at a time and puts what they ask for into the
client's queue. When the stream ends or breaks, the last thing it puts there is the end of the
session. -/

namespace Parley.Client

open Wire (Bytes FrameReader IoError ProtocolError)
open Connection (ReadAnswer WriteAnswer)

inductive ClientError where
  | io (error : IoError)
  | protocol (error : ProtocolError)
  | refused (reason : String)
  | closed
  deriving DecidableEq, Repr

namespace ClientError

def text : ClientError → String
  | io error => "i/o error: " ++ error.text
  | protocol error => error.text
  | refused reason => "logon refused: " ++ reason
  | closed => "connection closed before logon completed"

end ClientError

inductive Next where
  | message (m : Message)
  | waiting
  | ended
  | failed (error : ProtocolError)
  deriving DecidableEq, Repr

/-- The next body that is a message; others are dropped. At most `count` bodies are looked at. -/
def nextDecodable (reader : FrameReader) :
    (count : Nat) → Except ProtocolError (Option Message) × FrameReader
  | 0 => (.ok none, reader)
  | count + 1 =>
    match reader.next with
    | (.error error, reader) => (.error error, reader)
    | (.ok none, reader) => (.ok none, reader)
    | (.ok (some body), reader) =>
      match Message.decode body with
      | .ok message => (.ok (some message), reader)
      | .error _ => nextDecodable reader count

/-- The next message of a stream. The socket is read when the reader has no message left; a read
that was interrupted is not tried again. -/
def nextMessage (reader : FrameReader) : List ReadAnswer → Next × FrameReader × List ReadAnswer
  | [] =>
    match nextDecodable reader (reader.buffered + 1) with
    | (.ok (some message), reader) => (.message message, reader, [])
    | (.error error, reader) => (.failed error, reader, [])
    | (.ok none, reader) => (.waiting, reader, [])
  | answer :: rest =>
    match nextDecodable reader (reader.buffered + 1) with
    | (.ok (some message), reader) => (.message message, reader, answer :: rest)
    | (.error error, reader) => (.failed error, reader, answer :: rest)
    | (.ok none, reader) =>
      match answer with
      | .data [] => (.ended, reader, rest)
      | .data bytes => nextMessage (reader.extend bytes) rest
      | .interrupted => (.failed (.io Connection.interruption), reader, rest)
      | .wouldBlock => (.waiting, reader, rest)
      | .ended => (.ended, reader, rest)
      | .failed error => (.failed (.io error), reader, rest)

/-- A bound on the messages that a reader can still take from itself and from a socket: none is
shorter than its header. -/
def messageBound (reader : FrameReader) (answers : List ReadAnswer) : Nat :=
  answers.foldl (fun n answer => n + answer.size) (reader.buffered + 1)

/-- Logging on: waiting for the server to let the client in. -/
inductive Logon where
  | waiting (reader : FrameReader)
  | welcome (oid : Oid) (services : List Binding) (reader : FrameReader)
  | failed (error : ClientError)
  deriving DecidableEq, Repr

namespace Logon

def greeting (username : String) : Message := .logon protocolVersion username

def start : Logon := .waiting { limit := Wire.defaultMaxFrame }

/-- Looks at up to `count` messages, until the server lets the client in or refuses to. Other
messages are passed over. -/
def proceedAtMost (reader : FrameReader) (answers : List ReadAnswer) :
    (count : Nat) → Logon × List ReadAnswer
  | 0 => (.waiting reader, answers)
  | count + 1 =>
    match nextMessage reader answers with
    | (.message (.bootstrap oid services), reader, answers) =>
      (.welcome oid services reader, answers)
    | (.message (.failure reason), _, answers) => (.failed (.refused reason), answers)
    | (.message _, reader, answers) => proceedAtMost reader answers count
    | (.waiting, reader, answers) => (.waiting reader, answers)
    | (.ended, _, answers) => (.failed .closed, answers)
    | (.failed error, _, answers) => (.failed (.protocol error), answers)

def proceed (reader : FrameReader) (answers : List ReadAnswer) : Logon × List ReadAnswer :=
  proceedAtMost reader answers (messageBound reader answers)

end Logon

end Client

open Client Wire
open Connection (ReadAnswer WriteAnswer)

structure Client (κ ν ω : Type) where
  oid : Oid
  services : List Binding
  queue : ActionQueue (Command ν) (Context κ ν ω)
  reader : FrameReader
  /-- The reader has not stopped. -/
  reading : Bool := true
  /-- The writer has not stopped. -/
  writing : Bool := true
  /-- Bytes of messages that are being written. -/
  unsent : Bytes := []

namespace Client

def new (oid : Oid) (services : List Binding) (reader : FrameReader) (state : ω) :
    Client κ ν ω where
  oid
  services
  queue := { context := { desk := { director := { oid }, state } } }
  reader

def desk (client : Client κ ν ω) : Desk κ ω := client.queue.context.desk

def setDesk (client : Client κ ν ω) (desk : Desk κ ω) : Client κ ν ω :=
  { client with queue := { client.queue with context := { client.queue.context with desk } } }

def serviceOid? (client : Client κ ν ω) (service : String) : Option Oid :=
  (client.services.find? (·.service = service)).map (·.oid)

def chat? (client : Client κ ν ω) : Option Oid := client.serviceOid? Chat.service.name

def invoke (client : Client κ ν ω) (call : Call κ) :
    Except InvocationError Unit × Client κ ν ω :=
  let (result, desk) := client.desk.invoke call
  (result, client.setDesk desk)

def post (client : Client κ ν ω) (message : Message) :
    Except ProtocolError Unit × Client κ ν ω :=
  let (result, outgoing) := client.desk.outgoing.post message
  (result, client.setDesk { client.desk with outgoing })

def enqueue (client : Client κ ν ω) (command : Command ν) : Bool × Client κ ν ω :=
  let (accepted, queue) := client.queue.enqueue command
  (accepted, { client with queue })

/-- What a message from the server puts into the queue; some messages are only noted. -/
def command? : Message → Option (Command ν)
  | .response response => some (.respond response)
  | .event event => some (.apply event)
  | _ => none

def stopReading (client : Client κ ν ω) : Client κ ν ω :=
  { (client.enqueue .endSession).2 with reading := false }

/-- Takes up to `count` messages from the stream. A reader that finds the queue closed stops where
it is. -/
def readAtMost (client : Client κ ν ω) (answers : List ReadAnswer) : (count : Nat) → Client κ ν ω
  | 0 => client
  | count + 1 =>
    if !client.reading then client
    else
      match nextMessage client.reader answers with
      | (.waiting, reader, _) => { client with reader }
      | (.ended, reader, _) => { client with reader }.stopReading
      | (.failed _, reader, _) => { client with reader }.stopReading
      | (.message message, reader, answers) =>
        let client := { client with reader }
        match command? message with
        | none => client.readAtMost answers count
        | some command =>
          match client.enqueue command with
          | (true, client) => client.readAtMost answers count
          | (false, client) => { client with reading := false }

def read (client : Client κ ν ω) (answers : List ReadAnswer) : Client κ ν ω :=
  client.readAtMost answers (messageBound client.reader answers)

/-- An answer, for a writer that does not try again when it was interrupted. -/
def once : WriteAnswer → WriteAnswer
  | .interrupted => .failed Connection.interruption
  | answer => answer

/-- Writes what has been posted, and gives the bytes that were written. A writer that fails
stops, and nothing more can be posted. -/
def write (client : Client κ ν ω) (answers : List WriteAnswer) : Bytes × Client κ ν ω :=
  if !client.writing then ([], client)
  else
    let outgoing := client.desk.outgoing
    let buffer := client.unsent ++ outgoing.messages.flatMap Message.toFrame
    match Connection.writeOut [] buffer (answers.map once) with
    | (.ok _, written, unsent) =>
      (written,
        { client with unsent }.setDesk
          { client.desk with outgoing := { outgoing with messages := [] } })
    | (.error _, written, _) =>
      (written,
        { client with unsent := [], writing := false }.setDesk
          { client.desk with outgoing := { refusal := some .closed } })

/-- Runs what is queued. The commands of a client put no further ones into its queue. -/
def settle (code : Code κ ν ω) (client : Client κ ν ω) : Client κ ν ω :=
  { client with
    queue := client.queue.runPending (Context.behave code) client.queue.pending.length }

/-- The last step of taking leave, once the reader has stopped: the queue is closed and run to
its end. -/
def finish (code : Code κ ν ω) (client : Client κ ν ω) : Client κ ν ω :=
  { client with queue := client.queue.finish (Context.behave code), writing := false }

end Client

end Parley
