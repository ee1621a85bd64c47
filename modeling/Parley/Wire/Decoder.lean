import Parley.Wire.Utf8

/-! Decoders: each takes its bytes from the front of the input and leaves the rest. -/

namespace Parley.Wire

def Decoder (α : Type) := Bytes → Except DecodeError (α × Bytes)

namespace Decoder

protected def pure (a : α) : Decoder α := fun input => .ok (a, input)

protected def bind (first : Decoder α) (next : α → Decoder β) : Decoder β := fun input =>
  match first input with
  | .ok (a, rest) => next a rest
  | .error e => .error e

instance : Monad Decoder where
  pure := Decoder.pure
  bind := Decoder.bind

def fail (e : DecodeError) : Decoder α := fun _ => .error e

def take (count : Nat) (short : DecodeError) : Decoder Bytes := fun input =>
  let (front, rest) := input.splitAt count
  if front.length = count then .ok (front, rest) else .error short

def word (width : Nat) : Decoder Nat := do
  let front ← take width .endOfInput
  pure (ofDigits front)

def byte : Decoder UInt8 := fun
  | b :: rest => .ok (b, rest)
  | [] => .error .endOfInput

def boolean : Decoder Bool := do
  let b ← byte
  if b = 0 then pure false
  else if b = 1 then pure true
  else fail (.boolean b)

/-- The number of an alternative, out of `count`. -/
def variant (count : Nat) : Decoder Nat := do
  let n ← word 4
  if n < count then pure n else fail (.variant n count)

def word32 : Decoder UInt32 := do
  let n ← word 4
  pure (.ofNat n)

def word64 : Decoder UInt64 := do
  let n ← word 8
  pure (.ofNat n)

def int32 : Decoder Int32 := do
  let n ← word32
  pure n.toInt32

def int64 : Decoder Int64 := do
  let n ← word64
  pure n.toInt64

/-- A byte string: how many bytes, then the bytes. -/
def bytes : Decoder Bytes := do
  let count ← word 8
  take count .endOfInput

/-- A text: how many bytes, then its UTF-8. -/
def text : Decoder String := do
  let count ← word 8
  let front ← take count .textTooShort
  match Utf8.decode front with
  | .ok s => pure s
  | .error fault => fail (.utf8 fault)

/-- `count` items one after the other, behind those in `taken`, which holds the last one
first. -/
def timesOnto (item : Decoder α) (taken : List α) : (count : Nat) → Decoder (List α)
  | 0 => Decoder.pure taken.reverse
  | count + 1 => fun input =>
    match item input with
    | .ok (a, rest) => timesOnto item (a :: taken) count rest
    | .error e => .error e

/-- A sequence: how many items, then the items. -/
def sequence (item : Decoder α) : Decoder (List α) := do
  let count ← word 8
  timesOnto item [] count

end Decoder

end Parley.Wire
