import PeerGateway.Binary64.Basic

/-!
# Arithmetic and order on binary64 numbers

Every operation is the exact result in quanta, rounded once. An operation on a word
that stands for no number returns the first such operand made quiet; an operation
without a result, such as zero times infinity, returns the negative quiet word.

`Binary64.le` and its kin are the comparisons of numbers, false when either side stands
for none. `Binary64.orderKey` places all words in one total order: negative words by
falling magnitude, then the others by rising magnitude.
-/

namespace PeerGateway

namespace Binary64

/-- The same word with its sign bit flipped. -/
def neg (x : Binary64) : Binary64 := make (!x.negative) x.magnitude

/-- A word that stands for no number, made quiet. -/
def quieted (x : Binary64) : Binary64 :=
  if x.magnitude / quietWeight % 2 = 1 then x else make x.negative (x.magnitude + quietWeight)

/-- The result of an operation that has none. -/
def invalid : Binary64 := quietNaN true

/-- A signed number of quanta, exactly divided by `den` and then rounded. An exact zero
takes the given sign. -/
def ofSigned (zeroNegative : Bool) (num : Int) (den : Nat) : Binary64 :=
  if num = 0 then make zeroNegative 0 else rounded (decide (num < 0)) num.natAbs den

/-- The sum. Two zeros of one sign keep it; any other sum that is zero is plus zero. -/
def add (x y : Binary64) : Binary64 :=
  if x.isNaN then x.quieted
  else if y.isNaN then y.quieted
  else if x.isInfinite then
    if y.isInfinite && x.negative != y.negative then invalid else x
  else if y.isInfinite then y
  else ofSigned (x.negative && y.negative && x.isZero && y.isZero)
    (x.signedQuanta + y.signedQuanta) 1

/-- The difference. -/
def sub (x y : Binary64) : Binary64 :=
  if x.isNaN then x.quieted else if y.isNaN then y.quieted else x.add y.neg

/-- The product. -/
def mul (x y : Binary64) : Binary64 :=
  let sign := x.negative != y.negative
  if x.isNaN then x.quieted
  else if y.isNaN then y.quieted
  else if x.isInfinite then
    if y.isZero then invalid else make sign infiniteMagnitude
  else if y.isInfinite then
    if x.isZero then invalid else make sign infiniteMagnitude
  else rounded sign (x.quanta * y.quanta) quantaPerUnit

/-- The quotient. -/
def div (x y : Binary64) : Binary64 :=
  let sign := x.negative != y.negative
  if x.isNaN then x.quieted
  else if y.isNaN then y.quieted
  else if x.isInfinite then
    if y.isInfinite then invalid else make sign infiniteMagnitude
  else if y.isInfinite then make sign 0
  else if y.isZero then
    if x.isZero then invalid else make sign infiniteMagnitude
  else rounded sign (x.quanta * quantaPerUnit) y.quanta

instance : Add Binary64 := ⟨add⟩
instance : Sub Binary64 := ⟨sub⟩
instance : Mul Binary64 := ⟨mul⟩
instance : Div Binary64 := ⟨div⟩
instance : Neg Binary64 := ⟨neg⟩

/-- Naturals as literals: the nearest number. -/
instance (n : Nat) : OfNat Binary64 n := ⟨ofNat n⟩

instance : Inhabited Binary64 := ⟨zero⟩

/-- Where a word that stands for a number lies among the others: the two zeros share
a place and the infinities lie outside all finite numbers. -/
def place (x : Binary64) : Int := if x.negative then -(x.magnitude : Int) else x.magnitude

/-- At most, as numbers. -/
def le (x y : Binary64) : Bool := !x.isNaN && !y.isNaN && decide (x.place ≤ y.place)

/-- Less, as numbers. -/
def lt (x y : Binary64) : Bool := !x.isNaN && !y.isNaN && decide (x.place < y.place)

/-- The lesser of `x` and `cap`; an `x` that stands for no number gives way to `cap`. -/
def cappedAt (x cap : Binary64) : Binary64 := if x.lt cap then x else cap

/-- The greater of `x` and `floor`; an `x` that stands for no number gives way. -/
def atLeast (x floor : Binary64) : Binary64 := if floor.lt x then x else floor

/-- The place of a word in the total order of all words. -/
def orderKey (x : Binary64) : Int :=
  if x.negative then -(x.magnitude : Int) - 1 else x.magnitude

/-- Comparison in the total order of all words. -/
def totalCompare (x y : Binary64) : Ordering := compare x.orderKey y.orderKey

end Binary64

end PeerGateway
