import PeerGateway.Message.Basic

/-!
# Fresh identifiers

Random identifiers in the form of version 4 identifiers of RFC 9562: thirty-two
hexadecimal digits in five groups, of which two digits are fixed. The randomness is an
argument.
-/

namespace PeerGateway

namespace Identity

/-- The last `count` hexadecimal digits of a number. -/
def hexDigits (n : Nat) : Nat → List Char
  | 0 => []
  | count + 1 => hexDigits (n / 16) count ++ [Nat.digitChar (n % 16)]

/-- The identifier of 122 random bits, the others being fixed: the version in the third
group and the variant in the fourth. -/
def text (random : Nat) : String :=
  let variant := 8 + (random >>> 60) % 4
  String.ofList <|
    hexDigits (random >>> 90) 8 ++ '-' :: hexDigits (random >>> 74) 4 ++
    '-' :: '4' :: hexDigits (random >>> 62) 3 ++
    '-' :: hexDigits variant 1 ++ hexDigits (random >>> 48) 3 ++
    '-' :: hexDigits random 12

end Identity

/-- A fresh identifier for a node that was given none. -/
def NodeId.generate (random : Nat) : NodeId := ⟨"node-" ++ Identity.text random⟩

end PeerGateway
