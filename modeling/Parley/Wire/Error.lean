import Parley.InvocationError

/-! Failures of the wire: bytes that mean nothing, frames that are too long, sockets that
break. -/

namespace Parley.Wire

inductive IoKind where
  | interrupted
  | wouldBlock
  | timedOut
  | connectionReset
  | connectionRefused
  | brokenPipe
  | writeZero
  | networkUnreachable
  | other
  deriving DecidableEq, Repr

/-- A failure of the operating system, with the text in which it reports it. -/
structure IoError where
  kind : IoKind
  text : String
  deriving DecidableEq, Repr

/-- Where a byte string stops being UTF-8. `length` counts the bytes of the sequence that breaks
the rules; it is absent if the string ends before one could tell. -/
structure Utf8Fault where
  index : Nat
  length : Option Nat
  deriving DecidableEq, Repr

namespace Utf8Fault

def text (fault : Utf8Fault) : String :=
  match fault.length with
  | some n =>
    "invalid utf-8 sequence of " ++ toString n ++ " bytes from index " ++ toString fault.index
  | none => "incomplete utf-8 byte sequence from index " ++ toString fault.index

end Utf8Fault

inductive DecodeError where
  | endOfInput
  | textTooShort
  | variant (found count : Nat)
  | boolean (found : UInt8)
  | utf8 (fault : Utf8Fault)
  | other (text : String)
  deriving DecidableEq, Repr

namespace DecodeError

def text : DecodeError → String
  | endOfInput => "io error: unexpected end of file"
  | textTooShort => "io error: "
  | variant found count =>
    "invalid value: integer `" ++ toString found ++ "`, expected variant index 0 <= i < "
      ++ toString count
  | boolean found =>
    "invalid u8 while decoding bool, expected 0 or 1, found " ++ toString found.toNat
  | utf8 fault => "string is not valid utf8: " ++ fault.text
  | other text => text

/-- The input ended before the message did. -/
def isTruncation : DecodeError → Bool
  | endOfInput => true
  | textTooShort => true
  | _ => false

end DecodeError

inductive ProtocolError where
  | frameTooLarge (length limit : Nat)
  | encode (reason : String)
  | decode (reason : DecodeError)
  | closed
  | io (error : IoError)
  deriving DecidableEq, Repr

namespace ProtocolError

def text : ProtocolError → String
  | frameTooLarge length limit =>
    "frame of " ++ toString length ++ " bytes exceeds the " ++ toString limit ++ " byte limit"
  | encode reason => "failed to encode message: " ++ reason
  | decode reason => "failed to decode message: " ++ reason.text
  | closed => "connection closed"
  | io error => error.text

/-- A call that the wire let down fails with the wire's own words. -/
def toInvocationError (error : ProtocolError) : InvocationError := .transport error.text

end ProtocolError

end Parley.Wire
