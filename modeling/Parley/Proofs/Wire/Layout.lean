import Parley.Proofs.Wire.Length

/-! What an encoding consists of.
The encoding of a message is laid out in pieces that follow each other: words and bytes, and texts
with their lengths. -/

namespace Parley

namespace Wire

/-- What stands next to each other in an encoding. -/
inductive Piece where
  | plain (data : Bytes)
  /-- The length of a text, and its UTF-8. -/
  | text (s : String)
  deriving DecidableEq, Repr

def Piece.bytes : Piece → Bytes
  | plain data => data
  | text s => writeText s []

abbrev Layout := List Piece

namespace Layout

def bytes (layout : Layout) : Bytes := layout.flatMap Piece.bytes

@[simp] theorem bytes_nil : bytes [] = [] := rfl

@[simp] theorem bytes_cons (piece : Piece) (rest : Layout) :
    bytes (piece :: rest) = piece.bytes ++ bytes rest := rfl

@[simp] theorem bytes_append (layout more : Layout) :
    bytes (layout ++ more) = bytes layout ++ bytes more := List.flatMap_append

end Layout

end Wire

open Wire

namespace Token

def layout (token : Token) : Layout :=
  [.plain (digits 4 token.callerOid.toUInt32.toNat), .plain (digits 4 token.requestId.toNat)]

theorem bytes_layout (token : Token) (rest : Bytes) :
    token.layout.bytes ++ rest = token.write rest := by
  simp [layout, Piece.bytes, write, writeInt32, writeWord]

end Token

namespace Value

mutual

def layout : Value → Layout
  | .null => [.plain (digits 4 0)]
  | .bool b => [.plain (digits 4 1), .plain (digits 1 b.toNat)]
  | .int n => [.plain (digits 4 2), .plain (digits 4 n.toUInt32.toNat)]
  | .long n => [.plain (digits 4 3), .plain (digits 8 n.toUInt64.toNat)]
  | .double bits => [.plain (digits 4 4), .plain (digits 8 bits.toNat)]
  | .str s => [.plain (digits 4 5), .text s]
  | .bytes data => [.plain (digits 4 6), .plain (digits 8 data.length), .plain data]
  | .list items => .plain (digits 4 7) :: .plain (digits 8 items.length) :: layoutAll items
  | .listener token => .plain (digits 4 8) :: token.layout

def layoutAll : List Value → Layout
  | [] => []
  | v :: vs => v.layout ++ layoutAll vs

end

mutual

theorem bytes_layout (v : Value) (rest : Bytes) : v.layout.bytes ++ rest = v.write rest := by
  cases v with
  | list items =>
    have inner := bytes_layoutAll items rest
    simp [layout, write, Piece.bytes, writeWord, inner]
  | listener token =>
    have inner := token.bytes_layout rest
    simp [layout, write, Piece.bytes, writeWord, inner]
  | _ => simp [layout, write, Piece.bytes, writeWord, writeInt32, writeInt64, writeText, writeBytes]

theorem bytes_layoutAll (vs : List Value) (rest : Bytes) :
    Layout.bytes (layoutAll vs) ++ rest = writeAll vs rest := by
  cases vs with
  | nil => rw [layoutAll, writeAll, Layout.bytes_nil, List.nil_append]
  | cons v vs =>
    rw [layoutAll, writeAll, Layout.bytes_append, List.append_assoc, bytes_layoutAll vs rest,
      bytes_layout v]

end

theorem layoutAll_eq_flatMap (vs : List Value) : layoutAll vs = vs.flatMap layout := by
  induction vs with
  | nil => rw [layoutAll, List.flatMap_nil]
  | cons v vs ih => rw [layoutAll, List.flatMap_cons, ih]

end Value

namespace Arguments

def layout (args : Arguments) : Layout := .plain (digits 8 args.length) :: Value.layoutAll args

theorem bytes_layout (args : Arguments) (rest : Bytes) :
    args.layout.bytes ++ rest = args.write rest := by
  have inner := Value.bytes_layoutAll args rest
  simp [layout, write, Piece.bytes, writeWord, inner]

end Arguments

namespace Request

def layout (request : Request) : Layout :=
  .plain (digits 4 request.target.toUInt32.toNat) :: .plain (digits 1 request.method.toNat) ::
    request.args.layout

theorem bytes_layout (request : Request) (rest : Bytes) :
    request.layout.bytes ++ rest = request.write rest := by
  have inner := request.args.bytes_layout rest
  simp [layout, write, Piece.bytes, writeWord, writeInt32, inner]

end Request

namespace Response

def layout (response : Response) : Layout :=
  response.token.layout ++ .plain (digits 1 response.method.toNat) :: response.args.layout

theorem bytes_layout (response : Response) (rest : Bytes) :
    response.layout.bytes ++ rest = response.write rest := by
  have inner := response.args.bytes_layout rest
  rw [layout, Layout.bytes_append, List.append_assoc, response.token.bytes_layout, write]
  simp [Piece.bytes, writeWord, inner]

end Response

namespace Binding

def layout (binding : Binding) : Layout :=
  [.text binding.service, .plain (digits 4 binding.oid.toUInt32.toNat)]

theorem bytes_layout (binding : Binding) (rest : Bytes) :
    binding.layout.bytes ++ rest = binding.write rest := by
  simp [layout, write, Piece.bytes, writeWord, writeInt32, writeText, writeBytes]

theorem bytes_layouts (bindings : List Binding) (rest : Bytes) :
    Layout.bytes (bindings.flatMap layout) ++ rest = writeAll bindings rest := by
  induction bindings with
  | nil => rfl
  | cons first others ih =>
    rw [List.flatMap_cons, Layout.bytes_append, List.append_assoc, ih, bytes_layout]
    rfl

end Binding

namespace ObjectEvent

def layout : ObjectEvent → Layout
  | .attributeChanged target name value =>
    .plain (digits 4 0) :: .plain (digits 4 target.toUInt32.toNat) :: .text name :: value.layout
  | .message target name args =>
    .plain (digits 4 1) :: .plain (digits 4 target.toUInt32.toNat) :: .text name :: args.layout

theorem bytes_layout (event : ObjectEvent) (rest : Bytes) :
    event.layout.bytes ++ rest = event.write rest := by
  cases event with
  | attributeChanged target name value =>
    have inner := value.bytes_layout rest
    simp [layout, write, Piece.bytes, writeWord, writeInt32, writeText, writeBytes, inner]
  | message target name args =>
    have inner := args.bytes_layout rest
    simp [layout, write, Piece.bytes, writeWord, writeInt32, writeText, writeBytes, inner]

end ObjectEvent

namespace Message

def layout : Message → Layout
  | .logon version username =>
    [.plain (digits 4 0), .plain (digits 4 version.toNat), .text username]
  | .invocation r => .plain (digits 4 1) :: r.layout
  | .ping time => [.plain (digits 4 2), .plain (digits 8 time.toNat)]
  | .logoff => [.plain (digits 4 3)]
  | .bootstrap clientOid services =>
    .plain (digits 4 4) :: .plain (digits 4 clientOid.toUInt32.toNat) ::
      .plain (digits 8 services.length) :: services.flatMap Binding.layout
  | .response r => .plain (digits 4 5) :: r.layout
  | .event e => .plain (digits 4 6) :: e.layout
  | .pong time => [.plain (digits 4 7), .plain (digits 8 time.toNat)]
  | .failure reason => [.plain (digits 4 8), .text reason]

theorem bytes_layout (message : Message) : message.layout.bytes = message.encode := by
  rw [← List.append_nil message.layout.bytes, encode]
  cases message with
  | invocation request =>
    have inner := request.bytes_layout []
    simpa [layout, write, Piece.bytes, writeWord] using inner
  | bootstrap clientOid services =>
    have inner := Binding.bytes_layouts services []
    simpa [layout, write, Piece.bytes, writeWord, writeInt32] using inner
  | response response =>
    have inner := response.bytes_layout []
    simpa [layout, write, Piece.bytes, writeWord] using inner
  | event event =>
    have inner := event.bytes_layout []
    simpa [layout, write, Piece.bytes, writeWord] using inner
  | _ => simp [layout, write, Piece.bytes, writeWord, writeText, writeBytes]

end Message

end Parley
