import Parley.Wire.Error
import Parley.Wire.Word

/-! UTF-8: the bytes of a text, and the first fault of bytes that are none. -/

namespace Parley.Wire.Utf8

/-- What a first byte of 128 or more announces: how many bytes the sequence has, and between
which bounds the second one has to lie so that the sequence is the shortest for its character
and no surrogate. -/
def sequence? (first : UInt8) : Option (Nat × UInt8 × UInt8) :=
  if first < 0xC2 then none
  else if first < 0xE0 then some (2, 0x80, 0xBF)
  else if first = 0xE0 then some (3, 0xA0, 0xBF)
  else if first = 0xED then some (3, 0x80, 0x9F)
  else if first < 0xF0 then some (3, 0x80, 0xBF)
  else if first = 0xF0 then some (4, 0x90, 0xBF)
  else if first < 0xF4 then some (4, 0x80, 0xBF)
  else if first = 0xF4 then some (4, 0x80, 0x8F)
  else none

def isContinuation (b : UInt8) : Bool := 0x80 ≤ b && b ≤ 0xBF

/-- The first fault in bytes that begin at position `index` of their text. -/
def faultFrom (index : Nat) : Bytes → Option Utf8Fault
  | [] => none
  | first :: rest =>
    if first < 0x80 then faultFrom (index + 1) rest
    else
      match sequence? first with
      | none => some ⟨index, some 1⟩
      | some (count, low, high) =>
        match rest with
        | [] => some ⟨index, none⟩
        | second :: rest =>
          if second < low || high < second then some ⟨index, some 1⟩
          else if count = 2 then faultFrom (index + 2) rest
          else
            match rest with
            | [] => some ⟨index, none⟩
            | third :: rest =>
              if !isContinuation third then some ⟨index, some 2⟩
              else if count = 3 then faultFrom (index + 3) rest
              else
                match rest with
                | [] => some ⟨index, none⟩
                | fourth :: rest =>
                  if !isContinuation fourth then some ⟨index, some 3⟩
                  else faultFrom (index + 4) rest

def encode (s : String) : Bytes := s.toByteArray.data.toList

/-- The text that the bytes spell, or what keeps them from spelling one. -/
def decode (bytes : Bytes) : Except Utf8Fault String :=
  let array := ByteArray.mk bytes.toArray
  if valid : array.validateUTF8 = true then
    .ok (String.ofByteArray array (ByteArray.validateUTF8_eq_true_iff.1 valid))
  else
    .error ((faultFrom 0 bytes).getD ⟨0, none⟩)

theorem decode_encode (s : String) : decode (encode s) = .ok s := by
  have valid : s.toByteArray.validateUTF8 = true :=
    ByteArray.validateUTF8_eq_true_iff.2 s.isValidUTF8
  simp [decode, encode, valid]

theorem encode_of_decode {bytes : Bytes} {s : String} (h : decode bytes = .ok s) :
    encode s = bytes := by
  simp only [decode] at h
  split at h
  · cases h
    simp [encode]
  · cases h

end Parley.Wire.Utf8
