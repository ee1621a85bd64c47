/-! Internet addresses and their written forms.
An address has many forms and one that is printed: decimal parts for the short kind, and for the
long kind groups in hexadecimal with the longest run of zero groups left out. -/

namespace Parley.Server

inductive IpAddress where
  | v4 (a b c d : UInt8)
  /-- Eight groups. -/
  | v6 (groups : List UInt16)
  deriving DecidableEq, Repr

namespace IpAddress

def digit? (base : Nat) (c : Char) : Option Nat :=
  let value :=
    if '0' ≤ c ∧ c ≤ '9' then c.toNat - '0'.toNat
    else if 'a' ≤ c ∧ c ≤ 'f' then c.toNat - 'a'.toNat + 10
    else if 'A' ≤ c ∧ c ≤ 'F' then c.toNat - 'A'.toNat + 10
    else base
  if value < base then some value else none

/-- A number of one digit at least and `most` at most. -/
def number? (base most : Nat) (text : String) : Option Nat :=
  let digits := text.toList
  if digits.isEmpty || most < digits.length then none
  else digits.foldlM (fun n c => (digit? base c).map (n * base + ·)) 0

/-- A decimal part of an address, without leading zeros. -/
def part? (text : String) : Option UInt8 := do
  let n ← number? 10 3 text
  if 255 < n || (text.startsWith "0" && text != "0") then none else some (.ofNat n)

def readV4? (text : String) : Option (UInt8 × UInt8 × UInt8 × UInt8) :=
  match (text.splitOn ".").mapM part? with
  | some [a, b, c, d] => some (a, b, c, d)
  | _ => none

/-- Groups that are written out; the last two may be written as four decimal parts. -/
def groups? : List String → Option (List UInt16)
  | [] => some []
  | text :: rest =>
    match number? 16 4 text with
    | some n => (groups? rest).map (UInt16.ofNat n :: ·)
    | none =>
      if rest.isEmpty then
        (readV4? text).map fun (a, b, c, d) =>
          [a.toUInt16 * 256 + b.toUInt16, c.toUInt16 * 256 + d.toUInt16]
      else none

def side? (text : String) : Option (List UInt16) :=
  if text.isEmpty then some [] else groups? (text.splitOn ":")

def readV6? (text : String) : Option (List UInt16) := do
  match text.splitOn "::" with
  | [all] =>
    let groups ← side? all
    if groups.length = 8 then some groups else none
  | [front, back] =>
    let front ← side? front
    let back ← side? back
    let missing := 8 - (front.length + back.length)
    if missing = 0 then none else some (front ++ List.replicate missing 0 ++ back)
  | _ => none

def read? (text : String) : Option IpAddress :=
  match readV4? text with
  | some (a, b, c, d) => some (v4 a b c d)
  | none => (readV6? text).map v6

def printV4 (a b c d : UInt8) : String :=
  ".".intercalate ([a, b, c, d].map fun part => toString part.toNat)

def printGroups (groups : List UInt16) : String :=
  ":".intercalate (groups.map fun group => String.ofList (Nat.toDigits 16 group.toNat))

/-- The longest run of zeros, as where it begins and its length; of equal runs the first. `run`
is the length of the run that ends in front of `position`. -/
def longestRun (best : Nat × Nat) (run position : Nat) : List UInt16 → Nat × Nat
  | [] => best
  | group :: rest =>
    if group = 0 then
      let best := if best.2 < run + 1 then (position - run, run + 1) else best
      longestRun best (run + 1) (position + 1) rest
    else longestRun best 0 (position + 1) rest

def printV6 (groups : List UInt16) : String :=
  match groups with
  | [0, 0, 0, 0, 0, 0xFFFF, high, low] =>
    "::ffff:" ++ printV4 (high / 256).toUInt8 high.toUInt8 (low / 256).toUInt8 low.toUInt8
  | _ =>
    let (start, length) := longestRun (0, 0) 0 0 groups
    if length < 2 then printGroups groups
    else printGroups (groups.take start) ++ "::" ++ printGroups (groups.drop (start + length))

/-- The address with a port. Colons of the address itself are set off by brackets. -/
def withPort (port : UInt16) : IpAddress → String
  | v4 a b c d => printV4 a b c d ++ ":" ++ toString port.toNat
  | v6 groups => "[" ++ printV6 groups ++ "]:" ++ toString port.toNat

end IpAddress

end Parley.Server
