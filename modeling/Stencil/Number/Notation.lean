import Stencil.Number.Decimal

/-!
# The text of a double

A double is written with the fewest digits that read back. The notation is positional, always with
a fraction, while the power of ten of the leading digit is between -5 and 15, and scientific beyond.
-/

namespace Stencil

/-- Which powers of ten of the leading digit are written positionally. -/
structure PositionalRange where
  least : Int
  greatest : Int

namespace Double

/-- Numbers are positional from `0.00001` up to, and not including, `10000000000000000.0`. -/
def positionalRange : PositionalRange := ⟨-5, 15⟩

/-- The decimal digits of `n` without the zeros at their end. -/
def significantDigits (n : Nat) : List Char :=
  ((Nat.toDigits 10 n).reverse.dropWhile (· == '0')).reverse

/-- `digits` with the point after the first `place + 1` of them. -/
def positional (digits : List Char) (place : Int) : List Char :=
  if place < 0 then
    "0.".toList ++ List.replicate (-place - 1).toNat '0' ++ digits
  else
    let count := place.toNat + 1
    let whole := digits.take count ++ List.replicate (count - digits.length) '0'
    let fraction := digits.drop count
    whole ++ '.' :: (if fraction.isEmpty then ['0'] else fraction)

/-- `digits` with the point after the first of them, and the exponent `place`. -/
def scientific (digits : List Char) (place : Int) : List Char :=
  let fraction := digits.drop 1
  let mantissa := digits.take 1 ++ (if fraction.isEmpty then [] else '.' :: fraction)
  let sign := if place < 0 then '-' else '+'
  mantissa ++ 'e' :: sign :: Nat.toDigits 10 place.natAbs

/-- The text of a double without its sign. -/
def magnitudeText (d : Double) : List Char :=
  if d.isZero then "0.0".toList
  else
    let written := d.shortest
    let place := written.exponent + digitCount written.digits - 1
    let digits := significantDigits written.digits
    if positionalRange.least ≤ place ∧ place ≤ positionalRange.greatest then
      positional digits place
    else scientific digits place

def text (d : Double) : String :=
  String.ofList (if d.negative then '-' :: d.magnitudeText else d.magnitudeText)

end Double

end Stencil
