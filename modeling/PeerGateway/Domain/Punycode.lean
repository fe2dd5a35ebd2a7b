import PeerGateway.Text.Digit

/-!
# Punycode

Text beyond ASCII in letters, digits and hyphens, by RFC 3492. The ASCII characters come
first, up to the last hyphen. The rest are numbers, one for each further character: how far
a cursor moves through the pairs of a code point and a place in the text before it stops at
that character and its place. The numbers are written in digits of base 36 of which each
has a threshold: the first digit below its threshold is the last one. The thresholds follow
a bias that adapts to the numbers so far.

`Punycode.encode` writes a text and `Punycode.decode?` reads it.
-/

namespace PeerGateway

/-- Whether a character is one of ASCII. -/
def isAscii (c : Char) : Bool := c.toNat < 0x80

namespace Punycode

/-! ## Numbers -/

/-- The number of digits there are. -/
def base : Nat := 36

/-- The value of a digit: the letters in either case, then the decimal digits. -/
def digitValue? (c : Char) : Option Nat :=
  if 'a' ≤ c ∧ c ≤ 'z' then some (c.toNat - 97)
  else if 'A' ≤ c ∧ c ≤ 'Z' then some (c.toNat - 65)
  else if '0' ≤ c ∧ c ≤ '9' then some (c.toNat - 48 + 26)
  else none

/-- The digit of a value. -/
def digitChar (d : Nat) : Char := Char.ofNat (if d < 26 then 97 + d else 48 + (d - 26))

/-- The threshold of a digit under a bias; `position` is 36 for the first digit of a number,
and 36 more for each further one. -/
def threshold (bias position : Nat) : Nat :=
  if position ≤ bias then 1 else if bias + 26 ≤ position then 26 else position - bias

theorem one_le_threshold (bias position : Nat) : 1 ≤ threshold bias position := by
  unfold threshold
  split
  · exact Nat.le_refl 1
  · split <;> omega

/-- The bias for a number of a given size, in steps of a division. -/
def biasOf (size steps : Nat) : Nat :=
  if 455 < size then biasOf (size / 35) (steps + 1)
  else base * steps + base * size / (size + 38)
termination_by size

/-- The bias after a number; `count` is how many characters there are with the one it
places. The first number of a text counts less. -/
def adapted (number count : Nat) (isFirst : Bool) : Nat :=
  let scaled := if isFirst then number / 700 else number / 2
  biasOf (scaled + scaled / count) 0

/-- The digits of a number, from a position on. -/
def numberDigits (bias position number : Nat) : List Char :=
  let t := threshold bias position
  if number < t then [digitChar number]
  else
    digitChar (t + (number - t) % (base - t)) ::
      numberDigits bias (position + base) ((number - t) / (base - t))
termination_by number
decreasing_by
  have := one_le_threshold bias position
  exact Nat.lt_of_le_of_lt (Nat.div_le_self ..) (by omega)

/-! ## The cursor -/

/-- Where the characters beyond ASCII are placed: the code point, the place in the text as
it is so far, the bias of the next number, and whether it is the first. -/
structure Cursor where
  code : Nat := 0x80
  place : Nat := 0
  bias : Nat := 72
  isFirst : Bool := true

/-- The cursor behind a character that a number placed in a text that has `count` characters
with it. -/
def Cursor.behind (cur : Cursor) (number count code place : Nat) : Cursor where
  code
  place := place + 1
  bias := adapted number count cur.isFirst
  isFirst := false

/-! ## Writing -/

/-- The characters beyond ASCII by their code points, each with its place among the
characters that are there when its turn comes. -/
def placements (s : List Char) : List (Nat × Nat) :=
  let beyond := s.zipIdx.filter fun (c, _) => !isAscii c
  (beyond.mergeSort fun a b => a.1.toNat ≤ b.1.toNat).map fun (c, i) =>
    (c.toNat, ((s.take i).filter fun d => d.toNat ≤ c.toNat).length)

/-- The digits that place characters in a text with `count` characters. -/
def placementDigits (cur : Cursor) (count : Nat) : List (Nat × Nat) → List Char
  | [] => []
  | (code, place) :: rest =>
    let number := (code - cur.code) * (count + 1) + place - cur.place
    numberDigits cur.bias base number ++
      placementDigits (cur.behind number (count + 1) code place) (count + 1) rest

/-- A text in Punycode. -/
def encode (s : List Char) : List Char :=
  let plain := s.filter isAscii
  let separator := if plain.isEmpty then [] else ['-']
  plain ++ separator ++ placementDigits {} plain.length (placements s)

/-! ## Reading -/

/-- Places characters in a text as digits say. `number` is what the digits of an unfinished
number come to, `weight` what the next digit counts, and `position` the digit's position. No
number may pass 32 bits. -/
def placeAll (text : List Char) (cur : Cursor) (number weight position : Nat) :
    List Char → Option (List Char)
  | [] => if position = base then some text else none
  | c :: rest => do
    let digit ← digitValue? c
    let t := threshold cur.bias position
    let number := number + digit * weight
    if UInt32.size ≤ cur.place + number then none
    else if digit < t then
      let count := text.length + 1
      let code := cur.code + (cur.place + number) / count
      let place := (cur.place + number) % count
      placeAll (text.insertIdx place (← charOf? code)) (cur.behind number count code place)
        0 1 base rest
    else if UInt32.size ≤ weight * (base - t) then none
    else placeAll text cur number (weight * (base - t)) (position + base) rest

/-- The text that a text in Punycode stands for. A hyphen in front of all other characters
separates nothing. -/
def decode? (s : List Char) : Option (List Char) :=
  let digits := (s.reverse.takeWhile (· ≠ '-')).reverse
  let plain := s.take (s.length - digits.length - 1)
  placeAll plain {} 0 1 base (if plain.isEmpty then s else digits)

end Punycode

end PeerGateway
