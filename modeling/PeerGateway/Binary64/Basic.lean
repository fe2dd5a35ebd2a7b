/-!
# Binary64 numbers

Double-precision numbers as their 64-bit words, with arithmetic in exact integers. A
finite number is a signed count of quanta, the quantum being `2 ^ -1074`, the least
positive number: `Binary64.quanta` is that count for the magnitude. `Binary64.rounded`
is the one place where a result is rounded: to the nearest number, a tie to the even
significand, and to infinity from half a step above the greatest finite number.

A word keeps its sign also when it stands for no number (`Binary64.isNaN`), since the
order of `Binary64.orderKey` tells those words apart.
-/

namespace PeerGateway

/-- A double-precision number by its word: one sign bit, eleven exponent bits and
fifty-two fraction bits. -/
structure Binary64 where
  bits : UInt64
  deriving DecidableEq, Hashable

/-- A power of ten. -/
def tenTo (k : Nat) : Nat := Nat.pow 10 k

/-- How the quotient of two naturals compares with a half: rounds it to the nearest
natural, a tie to the even one. -/
def roundedQuotient (num den : Nat) : Nat :=
  let q := num / den
  let r := num % den
  if 2 * r < den then q
  else if den < 2 * r then q + 1
  else if q % 2 = 0 then q else q + 1

namespace Binary64

/-- The weight of the sign bit. -/
def signWeight : Nat := 0x8000000000000000

/-- The weight of the lowest exponent bit, which is also that of a significand's leading
bit. -/
def leadingWeight : Nat := 0x10000000000000

/-- The weight of the bit that tells quiet words from others. -/
def quietWeight : Nat := 0x8000000000000

/-- The word without its sign bit. -/
def magnitude (x : Binary64) : Nat := x.bits.toNat % signWeight

/-- The sign bit. -/
def negative (x : Binary64) : Bool := decide (signWeight ≤ x.bits.toNat)

/-- The eleven exponent bits. -/
def exponentField (x : Binary64) : Nat := x.magnitude / leadingWeight

/-- The fifty-two fraction bits. -/
def fraction (x : Binary64) : Nat := x.magnitude % leadingWeight

/-- The magnitude of the infinities; every greater one stands for no number. -/
def infiniteMagnitude : Nat := 2047 * leadingWeight

/-- The word with a given sign and magnitude. -/
def make (neg : Bool) (magnitude : Nat) : Binary64 :=
  ⟨UInt64.ofNat (magnitude + if neg then signWeight else 0)⟩

/-- The word stands for no number. -/
def isNaN (x : Binary64) : Bool := decide (infiniteMagnitude < x.magnitude)

/-- The word stands for one of the two infinities. -/
def isInfinite (x : Binary64) : Bool := decide (x.magnitude = infiniteMagnitude)

/-- The word stands for a number. -/
def isFinite (x : Binary64) : Bool := decide (x.magnitude < infiniteMagnitude)

/-- One of the two zeros. -/
def isZero (x : Binary64) : Bool := decide (x.magnitude = 0)

/-- The significand of a finite number as a natural. -/
def significand (x : Binary64) : Nat :=
  if x.exponentField = 0 then x.fraction else leadingWeight + x.fraction

/-- The power of two by which a finite number's significand counts quanta. -/
def scale (x : Binary64) : Nat := x.exponentField - 1

/-- The magnitude of a finite number in quanta. -/
def quanta (x : Binary64) : Nat := x.significand <<< x.scale

/-- The finite number as a signed count of quanta. -/
def signedQuanta (x : Binary64) : Int := if x.negative then -(x.quanta : Int) else x.quanta

/-- The number nearest to `num / den` quanta with the given sign. -/
def rounded (neg : Bool) (num den : Nat) : Binary64 :=
  let shift := Nat.log2 (num / den) - 52
  let units := roundedQuotient num (den <<< shift)
  make neg (min (shift * leadingWeight + units) infiniteMagnitude)

/-- Plus zero. -/
def zero : Binary64 := make false 0

/-- Plus infinity. -/
def infinity : Binary64 := make false infiniteMagnitude

/-- The quiet word that stands for no number and carries no payload. -/
def quietNaN (neg : Bool) : Binary64 := make neg (infiniteMagnitude + quietWeight)

/-- The number one counts this many quanta. -/
def quantaPerUnit : Nat := 1 <<< 1074

/-- The number nearest to the fraction `num / den`. -/
def ofFraction (neg : Bool) (num den : Nat) : Binary64 :=
  rounded neg (num * quantaPerUnit) den

/-- The number nearest to a natural. -/
def ofNat (n : Nat) : Binary64 := ofFraction false n 1

/-- The number nearest to an integer; no integer is minus zero. -/
def ofInt (i : Int) : Binary64 := ofFraction (decide (i < 0)) i.natAbs 1

/-- The number nearest to `m * 10 ^ e`, read from `m`'s decimal digits and an exponent.
An exponent that takes the value past every finite number, or below every positive
one, is not raised to. -/
def ofDecimal (neg : Bool) (m : Nat) (e : Int) : Binary64 :=
  if m = 0 then make neg 0
  else
    let top := (Nat.log2 m : Int) * 30103 / 100000 + e
    if top > 310 then make neg infiniteMagnitude
    else if top < -330 then make neg 0
    else if 0 ≤ e then ofFraction neg (m * tenTo e.toNat) 1
    else ofFraction neg m (tenTo (-e).toNat)

end Binary64

end PeerGateway
