import Parley.Wire.Value
import Parley.Message

/-! Messages on the wire: the number of the alternative, then its fields in order.
`decode` takes a message from the front of a body and ignores what is behind it. -/

namespace Parley

open Wire

namespace Request

def write (request : Request) (rest : Bytes) : Bytes :=
  writeInt32 request.target
    (writeWord 1 request.method.toNat (request.args.write rest))

def read (depth : Nat) : Decoder Request := do
  return ⟨← .int32, ← .byte, ← Arguments.read depth⟩

end Request

namespace Response

def write (response : Response) (rest : Bytes) : Bytes :=
  response.token.write
    (writeWord 1 response.method.toNat (response.args.write rest))

def read (depth : Nat) : Decoder Response := do
  return ⟨← Token.read, ← .byte, ← Arguments.read depth⟩

end Response

namespace Binding

def write (binding : Binding) (rest : Bytes) : Bytes :=
  writeText binding.service (writeInt32 binding.oid rest)

def writeAll (bindings : List Binding) (rest : Bytes) : Bytes := bindings.foldr write rest

def read : Decoder Binding := do
  return ⟨← .text, ← .int32⟩

end Binding

namespace ObjectEvent

def write (event : ObjectEvent) (rest : Bytes) : Bytes :=
  match event with
  | .attributeChanged target name value =>
    writeWord 4 0 (writeInt32 target (writeText name (value.write rest)))
  | .message target name args =>
    writeWord 4 1 (writeInt32 target (writeText name (args.write rest)))

def read (depth : Nat) : Decoder ObjectEvent := do
  match ← Decoder.variant 2 with
  | 0 => return .attributeChanged (← .int32) (← .text) (← Value.read depth)
  | _ => return .message (← .int32) (← .text) (← Arguments.read depth)

end ObjectEvent

namespace Message

def write (message : Message) (rest : Bytes) : Bytes :=
  match message with
  | .logon version username =>
    writeWord 4 0 (writeWord 4 version.toNat (writeText username rest))
  | .invocation r => writeWord 4 1 (r.write rest)
  | .ping time => writeWord 4 2 (writeWord 8 time.toNat rest)
  | .logoff => writeWord 4 3 rest
  | .bootstrap clientOid services =>
    writeWord 4 4
      (writeInt32 clientOid (writeWord 8 services.length (Binding.writeAll services rest)))
  | .response r => writeWord 4 5 (r.write rest)
  | .event e => writeWord 4 6 (e.write rest)
  | .pong time => writeWord 4 7 (writeWord 8 time.toNat rest)
  | .failure reason => writeWord 4 8 (writeText reason rest)

def read (depth : Nat) : Decoder Message := do
  match ← Decoder.variant 9 with
  | 0 => return .logon (← .word32) (← .text)
  | 1 => return .invocation (← Request.read depth)
  | 2 => return .ping (← .word64)
  | 3 => return .logoff
  | 4 => return .bootstrap (← .int32) (← .sequence Binding.read)
  | 5 => return .response (← Response.read depth)
  | 6 => return .event (← ObjectEvent.read depth)
  | 7 => return .pong (← .word64)
  | _ => return .failure (← .text)

def encode (message : Message) : Bytes := message.write []

def decode (body : Bytes) : Except DecodeError Message :=
  match read body.length body with
  | .ok (message, _) => .ok message
  | .error e => .error e

end Message

end Parley
