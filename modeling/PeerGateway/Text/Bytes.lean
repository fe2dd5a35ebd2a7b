/-!
# Text as bytes

Text travels as UTF-8. `Bytes.ofString` writes a string one character after the other
and `Bytes.text?` reads the bytes back if they are UTF-8.
-/

namespace PeerGateway

/-- A sequence of bytes. -/
abbrev Bytes := List UInt8

namespace Bytes

/-- The byte of an ASCII character. -/
def ascii (c : Char) : UInt8 := UInt8.ofNat c.toNat

/-- The UTF-8 bytes of a sequence of characters. -/
def ofChars (cs : List Char) : Bytes := cs.flatMap String.utf8EncodeChar

/-- The UTF-8 bytes of a string. -/
def ofString (s : String) : Bytes := ofChars s.toList

/-- The string that the bytes are the UTF-8 form of, if they are one. -/
def text? (bs : Bytes) : Option String := String.fromUTF8? ⟨bs.toArray⟩

/-- The lower-case hexadecimal digits of a byte. -/
def hexPair (b : UInt8) : List Char :=
  [Nat.digitChar (b.toNat / 16), Nat.digitChar (b.toNat % 16)]

/-- The bytes in lower-case hexadecimal. -/
def hex (bs : Bytes) : String := String.ofList (bs.flatMap hexPair)

/-- The value of a hexadecimal digit in either case. -/
def hexValue? (b : UInt8) : Option Nat :=
  if ascii '0' ≤ b ∧ b ≤ ascii '9' then some (b.toNat - 48)
  else if ascii 'a' ≤ b ∧ b ≤ ascii 'f' then some (b.toNat - 87)
  else if ascii 'A' ≤ b ∧ b ≤ ascii 'F' then some (b.toNat - 55)
  else none

/-- A byte that is a decimal digit. -/
def isDigit (b : UInt8) : Bool := decide (ascii '0' ≤ b) && decide (b ≤ ascii '9')

end Bytes

end PeerGateway
