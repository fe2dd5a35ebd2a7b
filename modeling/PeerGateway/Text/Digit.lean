/-!
# Digits

Numbers in positional notation, and characters by their code points. `digitIn?` is the
value of one digit, `numberIn?` that of a row of digits, and `charOf?` the character with a
code point.
-/

namespace PeerGateway

/-- The value of a digit in a base of at most sixteen, in either case. -/
def digitIn? (base : Nat) (c : Char) : Option Nat :=
  let value := if '0' ≤ c ∧ c ≤ '9' then some (c.toNat - 48)
    else if 'a' ≤ c ∧ c ≤ 'f' then some (c.toNat - 87)
    else if 'A' ≤ c ∧ c ≤ 'F' then some (c.toNat - 55)
    else none
  value.filter (· < base)

/-- The number that a row of digits stands for, the highest digit first. -/
def numberIn? (base : Nat) (s : List Char) : Option Nat :=
  (s.mapM (digitIn? base)).map fun ds => ds.foldl (fun n d => n * base + d) 0

/-- The character with a code point, unless it is no character's. -/
def charOf? (n : Nat) : Option Char := if h : n.isValidChar then some (Char.ofNatAux n h) else none

end PeerGateway
