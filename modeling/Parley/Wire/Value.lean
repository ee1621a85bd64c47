import Parley.Arguments
import Parley.Wire.Decoder

/-! Values on the wire: the number of the alternative in four bytes, then the contents.
`write v rest` puts the bytes of `v` in front of `rest`; `read` takes them off again. -/

namespace Parley

namespace Wire

def writeWord (width n : Nat) (rest : Bytes) : Bytes := digits width n ++ rest

def writeBytes (data rest : Bytes) : Bytes := writeWord 8 data.length (data ++ rest)

def writeText (s : String) (rest : Bytes) : Bytes := writeBytes (Utf8.encode s) rest

def writeInt32 (n : Int32) (rest : Bytes) : Bytes := writeWord 4 n.toUInt32.toNat rest

def writeInt64 (n : Int64) (rest : Bytes) : Bytes := writeWord 8 n.toUInt64.toNat rest

end Wire

open Wire

namespace Token

def write (token : Token) (rest : Bytes) : Bytes :=
  writeInt32 token.callerOid (writeWord 4 token.requestId.toNat rest)

def read : Decoder Token := do
  let callerOid ← .int32
  let requestId ← .word32
  pure ⟨callerOid, requestId⟩

end Token

namespace Value

mutual

def write (value : Value) (rest : Bytes) : Bytes :=
  match value with
  | .null => writeWord 4 0 rest
  | .bool b => writeWord 4 1 (writeWord 1 b.toNat rest)
  | .int n => writeWord 4 2 (writeInt32 n rest)
  | .long n => writeWord 4 3 (writeInt64 n rest)
  | .double bits => writeWord 4 4 (writeWord 8 bits.toNat rest)
  | .str s => writeWord 4 5 (writeText s rest)
  | .bytes data => writeWord 4 6 (writeBytes data rest)
  | .list items => writeWord 4 7 (writeWord 8 items.length (writeAll items rest))
  | .listener token => writeWord 4 8 (token.write rest)

def writeAll (values : List Value) (rest : Bytes) : Bytes :=
  match values with
  | [] => rest
  | v :: vs => write v (writeAll vs rest)

end

/-- A value whose lists are nested less than `depth` deep. Every list takes bytes before its
items, so the length of the input is depth enough. -/
def read : (depth : Nat) → Decoder Value
  | 0 => .fail .endOfInput
  | depth + 1 => do
    match ← Decoder.variant 9 with
    | 0 => pure .null
    | 1 => return .bool (← .boolean)
    | 2 => return .int (← .int32)
    | 3 => return .long (← .int64)
    | 4 => return .double (← .word64)
    | 5 => return .str (← .text)
    | 6 => return .bytes (← .bytes)
    | 7 => return .list (← .sequence (read depth))
    | _ => return .listener (← Token.read)

end Value

namespace Arguments

def write (args : Arguments) (rest : Bytes) : Bytes :=
  writeWord 8 args.length (Value.writeAll args rest)

def read (depth : Nat) : Decoder Arguments := .sequence (Value.read depth)

end Arguments

end Parley
