import PeerGateway.Binary64.Arithmetic

/-!
# Binary64 numbers in decimal

`Binary64.shortest` is the decimal with the fewest digits that reads back as a number,
and of those the nearest; `Binary64.text?` writes it, positionally where the exponent is
between the bounds of `plainRange` and with an exponent elsewhere. `Binary64.fixed`
writes a number with a given count of places, a tie going to the even digit.
`Binary64.parse?` reads a decimal, an infinity or a word for no number.
-/

namespace PeerGateway

/-- A decimal `digits * 10 ^ exponent`. -/
structure Decimal where
  digits : Nat
  exponent : Int
  deriving DecidableEq, Repr

/-- The same decimal with at most `fuel` trailing zeros of its digits moved into the
exponent. -/
def Decimal.trimmed : Nat → Decimal → Decimal
  | 0, d => d
  | fuel + 1, d =>
    if d.digits ≠ 0 ∧ d.digits % 10 = 0 then
      trimmed fuel ⟨d.digits / 10, d.exponent + 1⟩
    else d

/-- The greatest power of ten at most `num / den`, for positive arguments. -/
def decimalExponent (num den : Nat) : Int :=
  let guess := ((Nat.log2 num : Int) - Nat.log2 den) * 30103 / 100000
  let fits (k : Int) : Bool :=
    if 0 ≤ k then decide (den * tenTo k.toNat ≤ num)
    else decide (den ≤ num * tenTo (-k).toNat)
  ([guess + 2, guess + 1, guess, guess - 1].find? fits).getD (guess - 2)

namespace Binary64

/-- The points of the grid of multiples of `10 ^ k` next to `value / unit`, if they lie
within `below` and `above` of it: the nearer one, and of two equally near the even one.
The bounds themselves count only when `closed`. -/
def gridPoint? (value below above unit : Nat) (closed : Bool) (k : Int) : Option Nat :=
  let raise := tenTo (-k).toNat
  let num := value * raise
  let den := unit * tenTo k.toNat
  let low := num / den
  let under := num % den
  let left := den - under
  let within (distance bound : Nat) : Bool :=
    if closed then decide (distance ≤ bound) else decide (distance < bound)
  let lowHit := within under (below * raise)
  let highHit := within left (above * raise)
  if lowHit && highHit then
    if under < left then some low
    else if left < under then some (low + 1)
    else some (if low % 2 = 0 then low else low + 1)
  else if lowHit then some low
  else if highHit then some (low + 1)
  else none

/-- The first grid, from one digit to seventeen, with a point that reads back. -/
def shortestFrom (value below above unit : Nat) (closed : Bool) (top : Int) :
    Nat → Nat → Decimal
  | 0, _ => ⟨value, 0⟩
  | tries + 1, n =>
    let k := top - n
    match gridPoint? value below above unit closed k with
    | some d => (Decimal.mk d k).trimmed 17
    | none => shortestFrom value below above unit closed top tries (n + 1)

/-- The shortest decimal that reads back as the magnitude of a finite number that is not
zero. All lengths are counted in quarter quanta, so that half a step is whole. -/
def shortest (x : Binary64) : Decimal :=
  let step := 1 <<< x.scale
  let value := 4 * x.quanta
  let below := if x.significand = leadingWeight && decide (0 < x.scale) then step else 2 * step
  let unit := 4 * quantaPerUnit
  shortestFrom value below (2 * step) unit (x.significand % 2 = 0)
    (decimalExponent value unit) 18 0

/-- The decimal exponents, of the first digit, that are written positionally: from the
first bound to below the second. -/
def plainRange : Int × Int := (-5, 16)

/-- A positive decimal as text. -/
def decimalText (d : Decimal) : String :=
  let digits := Nat.toDigits 10 d.digits
  let count : Int := digits.length
  let top := d.exponent + count - 1
  if plainRange.1 ≤ top && top < plainRange.2 then
    if 0 ≤ d.exponent then
      String.ofList (digits ++ List.replicate d.exponent.toNat '0') ++ ".0"
    else if 0 ≤ top then
      let whole := (top + 1).toNat
      String.ofList (digits.take whole ++ '.' :: digits.drop whole)
    else
      "0." ++ String.ofList (List.replicate (-top - 1).toNat '0' ++ digits)
  else
    let sign := if top < 0 then "-" else "+"
    let tail := match digits with
      | [] => []
      | [c] => [c]
      | c :: rest => c :: '.' :: rest
    String.ofList tail ++ "e" ++ sign ++ toString top.natAbs

/-- A finite number as text; `none` for the other words. -/
def text? (x : Binary64) : Option String :=
  if x.isFinite then
    let sign := if x.negative then "-" else ""
    some (sign ++ if x.isZero then "0.0" else decimalText x.shortest)
  else none

/-- A finite number rounded to `places` decimal places, a tie to the even digit. -/
def fixed (places : Nat) (x : Binary64) : String :=
  let sign := if x.negative then "-" else ""
  if x.isNaN then "NaN"
  else if x.isInfinite then sign ++ "inf"
  else
    let units := roundedQuotient (x.quanta * tenTo places) quantaPerUnit
    let digits := Nat.toDigits 10 units
    let digits := List.replicate (places + 1 - digits.length) '0' ++ digits
    let whole := digits.length - places
    let tail := if places = 0 then [] else '.' :: digits.drop whole
    sign ++ String.ofList (digits.take whole ++ tail)

/-- The value of decimal digits, none of the characters being anything else. -/
def digitsValue (cs : List Char) : Nat := cs.foldl (fun n c => n * 10 + (c.toNat - 48)) 0

/-- One of the ten ASCII digits. -/
def isDigit (c : Char) : Bool := decide ('0' ≤ c) && decide (c ≤ '9')

/-- Reads digits with an optional point and an optional exponent; at least one digit
must stand before the exponent, and one in it. -/
def parseUnsigned? (neg : Bool) (cs : List Char) : Option Binary64 :=
  let whole := cs.takeWhile isDigit
  let rest := cs.dropWhile isDigit
  let (fraction, rest) := match rest with
    | '.' :: r => (r.takeWhile isDigit, r.dropWhile isDigit)
    | r => ([], r)
  if whole.isEmpty && fraction.isEmpty then none
  else
    let value (e : Int) := ofDecimal neg (digitsValue (whole ++ fraction)) (e - fraction.length)
    match rest with
    | [] => some (value 0)
    | c :: r =>
      if c = 'e' || c = 'E' then
        let (down, r) := match r with
          | '-' :: r => (true, r)
          | '+' :: r => (false, r)
          | r => (false, r)
        if !r.isEmpty && r.all isDigit then
          some (value (if down then -(digitsValue r : Int) else digitsValue r))
        else none
      else none

/-- Reads a decimal with an optional sign, or, in any case of letters, `inf`, `infinity`
or `nan`. -/
def parse? (s : String) : Option Binary64 :=
  let (neg, cs) := match s.toList with
    | '-' :: cs => (true, cs)
    | '+' :: cs => (false, cs)
    | cs => (false, cs)
  let word := String.ofList (cs.map Char.toLower)
  if word = "inf" || word = "infinity" then some (make neg infiniteMagnitude)
  else if word = "nan" then some (quietNaN neg)
  else parseUnsigned? neg cs

end Binary64

end PeerGateway
