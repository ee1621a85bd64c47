/-! Values carried by calls, answers and object attributes.
Integers have the width they have on the wire, a double is its bit pattern, and a listener
stands for a callback that its owner has parked under a token. -/

namespace Parley

/-- The number under which a host knows an object, a service or a client. -/
abbrev Oid := Int32

/-- Names one parked listener: the client it belongs to and the request it came with. -/
structure Token where
  callerOid : Oid
  requestId : UInt32
  deriving DecidableEq, Repr, Inhabited

inductive Value where
  | null
  | bool (b : Bool)
  | int (n : Int32)
  | long (n : Int64)
  | double (bits : UInt64)
  | str (s : String)
  | bytes (data : List UInt8)
  | list (items : List Value)
  | listener (token : Token)
  deriving Repr, Inhabited

/-- The kinds of value, as error texts call them. -/
inductive Kind where
  | null | bool | int | long | double | string | bytes | list | listener
  deriving DecidableEq, Repr

namespace Kind

def name : Kind → String
  | null => "null"
  | bool => "bool"
  | int => "int"
  | long => "long"
  | double => "double"
  | string => "string"
  | bytes => "bytes"
  | list => "list"
  | listener => "listener"

end Kind

/-- Equality of two doubles given by their bits: a NaN differs from everything, and the two
zeros are equal. -/
def doublesEqual (a b : UInt64) : Bool :=
  let isNaN (bits : UInt64) : Bool := (bits <<< 1) > 0xFFE0000000000000
  if isNaN a || isNaN b then false
  else a == b || (a <<< 1 == 0 && b <<< 1 == 0)

namespace Value

def kind : Value → Kind
  | null => .null
  | bool _ => .bool
  | int _ => .int
  | long _ => .long
  | double _ => .double
  | str _ => .string
  | bytes _ => .bytes
  | list _ => .list
  | listener _ => .listener

/-- The token of a value that is itself a listener; listeners inside lists do not count. -/
def token? : Value → Option Token
  | listener token => some token
  | _ => none

mutual

/-- Identity of values: doubles count as equal when their bits are. -/
def identical : Value → Value → Bool
  | null, null => true
  | bool a, bool b => a == b
  | int a, int b => a == b
  | long a, long b => a == b
  | double a, double b => a == b
  | str a, str b => a == b
  | bytes a, bytes b => a == b
  | list a, list b => allIdentical a b
  | listener a, listener b => a == b
  | _, _ => false

def allIdentical : List Value → List Value → Bool
  | [], [] => true
  | a :: as, b :: bs => identical a b && allIdentical as bs
  | _, _ => false

end

mutual

/-- Equality of values as numbers compare: doubles follow `doublesEqual`, all else is equal
when it is the same. -/
def equals : Value → Value → Bool
  | null, null => true
  | bool a, bool b => a == b
  | int a, int b => a == b
  | long a, long b => a == b
  | double a, double b => doublesEqual a b
  | str a, str b => a == b
  | bytes a, bytes b => a == b
  | list a, list b => allEqual a b
  | listener a, listener b => a == b
  | _, _ => false

def allEqual : List Value → List Value → Bool
  | [], [] => true
  | a :: as, b :: bs => equals a b && allEqual as bs
  | _, _ => false

end

mutual

/-- List nesting: a list is one deeper than its deepest element, any other value has none. -/
def depth : Value → Nat
  | list items => 1 + deepest 0 items
  | _ => 0

/-- The greatest depth among the values, and at least `least`. -/
def deepest (least : Nat) : List Value → Nat
  | [] => least
  | v :: vs => deepest (max least v.depth) vs

end

mutual

theorem eq_of_identical {a b : Value} (h : identical a b = true) : a = b := by
  cases a <;> cases b <;> simp_all [identical]
  case list.list xs ys => exact eq_of_allIdentical h

theorem eq_of_allIdentical {xs ys : List Value} (h : allIdentical xs ys = true) : xs = ys := by
  cases xs <;> cases ys <;> simp_all [allIdentical]
  case cons.cons x xs y ys => exact ⟨eq_of_identical h.1, eq_of_allIdentical h.2⟩

end

mutual

theorem identical_self (a : Value) : identical a a = true := by
  cases a <;> simp [identical]
  case list xs => exact allIdentical_self xs

theorem allIdentical_self (xs : List Value) : allIdentical xs xs = true := by
  cases xs with
  | nil => rfl
  | cons x xs => simp [allIdentical, identical_self x, allIdentical_self xs]

end

theorem identical_iff {a b : Value} : identical a b = true ↔ a = b :=
  ⟨eq_of_identical, fun h => h ▸ identical_self a⟩

instance : DecidableEq Value := fun _ _ => decidable_of_iff _ identical_iff

end Value

end Parley
