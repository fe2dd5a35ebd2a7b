import PeerGateway.Text.Digit

/-!
# Internet addresses

Addresses of both versions, their text and its reader. The text of a version 6 address
leaves out the first of its longest runs of zero groups, if it is longer than one group;
an address that maps a version 4 one ends in that one's text.

Readers take characters off the front and give back the rest.
-/

namespace PeerGateway

/-- An internet address: of version 4 as four bytes, or of version 6 as eight groups of
sixteen bits. -/
inductive Ip
  | v4 (a b c d : UInt8)
  | v6 (a b c d e f g h : UInt16)
  deriving DecidableEq, Repr

namespace Ip

/-- The groups of an address of version 6; none for version 4. -/
def groups : Ip → List UInt16
  | .v4 .. => []
  | .v6 a b c d e f g h => [a, b, c, d, e, f, g, h]

/-- The address of version 6 with eight given groups. -/
def ofGroups? : List UInt16 → Option Ip
  | [a, b, c, d, e, f, g, h] => some (.v6 a b c d e f g h)
  | _ => none

/-- The address that stands for every address of the machine. -/
def isUnspecified : Ip → Bool
  | .v4 a b c d => a == 0 && b == 0 && c == 0 && d == 0
  | ip@(.v6 ..) => ip.groups.all (· == 0)

/-! ## Text -/

/-- Four bytes in decimal with points between. -/
def v4Text (a b c d : UInt8) : String :=
  toString a.toNat ++ "." ++ toString b.toNat ++ "." ++ toString c.toNat ++ "." ++
    toString d.toNat

/-- A group in hexadecimal without leading zeros. -/
def groupText (g : UInt16) : String := String.ofList (Nat.toDigits 16 g.toNat)

/-- Groups with colons between. -/
def groupsText (gs : List UInt16) : String := String.intercalate ":" (gs.map groupText)

/-- The number of leading zero groups. -/
def zeroRun (gs : List UInt16) : Nat := (gs.takeWhile (· == 0)).length

/-- The start and length of the first longest run of zero groups. -/
def longestZeroRun (gs : List UInt16) : Nat × Nat :=
  (List.range gs.length).foldl
    (fun best i => let n := zeroRun (gs.drop i); if best.2 < n then (i, n) else best) (0, 0)

/-- The text of an address. -/
def text : Ip → String
  | .v4 a b c d => v4Text a b c d
  | .v6 0 0 0 0 0 0xFFFF g h =>
    "::ffff:" ++ v4Text (g / 256).toUInt8 g.toUInt8 (h / 256).toUInt8 h.toUInt8
  | ip@(.v6 ..) =>
    let (start, length) := longestZeroRun ip.groups
    if 1 < length then
      groupsText (ip.groups.take start) ++ "::" ++ groupsText (ip.groups.drop (start + length))
    else groupsText ip.groups

/-! ## Reading -/

/-- Takes a given character. -/
def takeChar (c : Char) : List Char → Option (List Char)
  | [] => none
  | d :: rest => if d = c then some rest else none

/-- Takes all digits in front, with at least one. `most` bounds their number, and unless
`zeros` a longer number may not start with zero. -/
def takeNumber (base : Nat) (most : Option Nat) (zeros : Bool) (s : List Char) :
    Option (Nat × List Char) :=
  let digits := s.takeWhile fun c => (digitIn? base c).isSome
  let value := digits.foldl (fun n c => n * base + (digitIn? base c).getD 0) 0
  if digits.isEmpty then none
  else if most.any (· < digits.length) then none
  else if !zeros && 1 < digits.length && digits.head? = some '0' then none
  else some (value, s.dropWhile fun c => (digitIn? base c).isSome)

/-- Takes a number below a limit. -/
def takeBelow (limit base : Nat) (most : Option Nat) (zeros : Bool) (s : List Char) :
    Option (Nat × List Char) :=
  (takeNumber base most zeros s).filter (·.1 < limit)

/-- Takes one byte of an address of version 4. -/
def takeByte (s : List Char) : Option (UInt8 × List Char) :=
  (takeBelow 256 10 (some 3) false s).map fun (n, s) => (UInt8.ofNat n, s)

/-- Takes an address of version 4. -/
def takeV4 (s : List Char) : Option ((UInt8 × UInt8 × UInt8 × UInt8) × List Char) := do
  let (a, s) ← takeByte s
  let (b, s) ← takeByte (← takeChar '.' s)
  let (c, s) ← takeByte (← takeChar '.' s)
  let (d, s) ← takeByte (← takeChar '.' s)
  return ((a, b, c, d), s)

/-- Takes a colon unless the address starts here. -/
def takeColon (first : Bool) (s : List Char) : Option (List Char) :=
  if first then some s else takeChar ':' s

/-- Takes up to `limit` groups with colons between; the last two may be written as an
address of version 4, which then ends them. Tells whether they are. -/
def takeGroups (first : Bool) : Nat → List Char → List UInt16 × Bool × List Char
  | 0, s => ([], false, s)
  | n + 1, s =>
    match if 1 ≤ n then (takeColon first s).bind takeV4 else none with
    | some ((a, b, c, d), s) =>
      ([UInt16.ofNat (a.toNat * 256 + b.toNat), UInt16.ofNat (c.toNat * 256 + d.toNat)], true, s)
    | none =>
      match (takeColon first s).bind (takeBelow UInt16.size 16 (some 4) true) with
      | some (g, s) =>
        let (gs, mapped, s) := takeGroups false n s
        (UInt16.ofNat g :: gs, mapped, s)
      | none => ([], false, s)

/-- Takes an address of version 6. -/
def takeV6 (s : List Char) : Option (Ip × List Char) :=
  let (front, mapped, s) := takeGroups true 8 s
  if front.length = 8 then (ofGroups? front).map fun ip => (ip, s)
  else if mapped then none
  else do
    let s ← takeChar ':' s
    let s ← takeChar ':' s
    let (back, _, s) := takeGroups true (7 - front.length) s
    let zeros := List.replicate (8 - front.length - back.length) 0
    let ip ← ofGroups? (front ++ zeros ++ back)
    return (ip, s)

end Ip

end PeerGateway
