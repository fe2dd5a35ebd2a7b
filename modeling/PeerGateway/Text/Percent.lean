import PeerGateway.Text.Bytes

/-!
# Percent encoding

A byte that a place in a web address does not admit is written as a percent sign and two
hexadecimal digits. A percent sign without two digits after it stands for itself.
-/

namespace PeerGateway

namespace Percent

/-- The bytes that a percent-encoded text stands for. -/
def decoded : Bytes → Bytes
  | b :: c :: d :: rest =>
    match if b = Bytes.ascii '%' then Bytes.hexValue? c else none, Bytes.hexValue? d with
    | some x, some y => UInt8.ofNat (16 * x + y) :: decoded rest
    | _, _ => b :: decoded (c :: d :: rest)
  | s => s

/-- A byte as a percent sign and two upper-case hexadecimal digits. -/
def encodedByte (b : UInt8) : List Char :=
  '%' :: [b.toNat / 16, b.toNat % 16].map fun d => (Nat.digitChar d).toUpper

/-- A text in which all characters outside ASCII, all controls and the characters that
`special` holds of are encoded. -/
def encoded (special : Char → Bool) (s : List Char) : List Char :=
  s.flatMap fun c =>
    if c.toNat ≤ 0x1F || 0x7E < c.toNat || special c then
      (String.utf8EncodeChar c).flatMap encodedByte
    else [c]

end Percent

end PeerGateway
