/-!
# Finite double-precision numbers

A finite double is a sign, a significand and a number of doublings above the smallest unit
`2^-1074`. Zero has two signs. Every finite double is a whole number of units, so values compare
as integers and rounding is exact integer arithmetic.

## Main definitions

* `Double.units`: the value, counted in units.
* `Double.nearest`: the double nearest to a quotient of units, ties to the even significand.
* `Double.ofInt`: the double nearest to an integer.
-/

namespace Stencil

/-- A finite double: `significand * 2^exponent` units of `2^-1074`, with a sign. -/
structure Double where
  negative : Bool
  significand : Nat
  exponent : Nat
deriving DecidableEq, Repr

namespace Double

/-- The number of units in one: `2^1074`. -/
def unitsPerOne : Nat := Nat.pow 2 1074

/-- The number of bits of a full significand. -/
def precision : Nat := 53

/-- The largest exponent of a finite double. -/
def maxExponent : Nat := 2045

/-- The value, counted in units of `2^-1074`. -/
def units (d : Double) : Int :=
  let size : Int := d.significand * Nat.pow 2 d.exponent
  if d.negative then -size else size

def isZero (d : Double) : Bool :=
  d.significand == 0

/-- Zero of either sign is no unit at all. -/
theorem isZero_iff {d : Double} : d.isZero ↔ d.units = 0 := by
  have hpow : Nat.pow 2 d.exponent ≠ 0 := Nat.ne_of_gt (Nat.two_pow_pos d.exponent)
  have hsize : (d.significand : Int) * (Nat.pow 2 d.exponent : Nat) = 0 ↔ d.significand = 0 := by
    rw [Int.mul_eq_zero, Int.natCast_eq_zero, Int.natCast_eq_zero, or_iff_left hpow]
  simp only [isZero, beq_iff_eq, units]
  split
  · rw [Int.neg_eq_zero, hsize]
  · exact hsize.symm

def zero (negative : Bool) : Double :=
  ⟨negative, 0, 0⟩

/-- Whether the exponent is within the range of finite doubles. -/
def inRange (d : Double) : Bool :=
  d.exponent ≤ maxExponent

end Double

/-- The whole number nearest to `num / den`, ties to the even one. -/
def roundHalfEven (num den : Nat) : Nat :=
  let whole := num / den
  let twice := 2 * (num % den)
  if twice < den then whole
  else if den < twice then whole + 1
  else if whole % 2 = 0 then whole
  else whole + 1

namespace Double

/-- The double nearest to `num / den` units, ties to the even significand. The exponent is not
bounded here, see `Double.inRange`. -/
def nearest (negative : Bool) (num den : Nat) : Double :=
  let exponent := Nat.log2 (num / den) + 1 - precision
  let significand := roundHalfEven num (den * Nat.pow 2 exponent)
  if significand = Nat.pow 2 precision then ⟨negative, Nat.pow 2 (precision - 1), exponent + 1⟩
  else ⟨negative, significand, exponent⟩

def ofInt (n : Int) : Double :=
  nearest (n < 0) (n.natAbs * unitsPerOne) 1

end Double

end Stencil
