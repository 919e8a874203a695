import Stencil.Number.Double

/-!
# Decimals and the doubles nearest to them

A decimal is a sign, a whole number of digits and a power of ten.

## Main definitions

* `Double.ofDecimal?`: the nearest double, none if the decimal is too large for a finite one.
* `Double.shortest`: the decimal with the fewest digits among those whose nearest double is the
  given one, and of these the one nearest to it.
-/

namespace Stencil

/-- The number `digits * 10^exponent`, with a sign. -/
structure Decimal where
  negative : Bool
  digits : Nat
  exponent : Int
deriving DecidableEq, Repr

/-- The number of decimal digits of `n`; zero has one. -/
def digitCount (n : Nat) : Nat :=
  (Nat.toDigits 10 n).length

namespace Double

/-- The double nearest to a decimal, with an exponent that is not bounded. -/
def ofDecimal (d : Decimal) : Double :=
  if 0 ≤ d.exponent then
    nearest d.negative (d.digits * Nat.pow 10 d.exponent.toNat * unitsPerOne) 1
  else
    nearest d.negative (d.digits * unitsPerOne) (Nat.pow 10 (-d.exponent).toNat)

/-- The finite double nearest to a decimal. A decimal of more than 310 digits before the point is
too large, and one below `10^-330` is nearest to zero. -/
def ofDecimal? (d : Decimal) : Option Double :=
  let places := digitCount d.digits + d.exponent
  if d.digits = 0 ∨ places < -330 then some (zero d.negative)
  else if 310 < places then none
  else
    let nearby := ofDecimal d
    if nearby.inRange then some nearby else none

/-- The power of ten of the leading digit of a non-zero double. -/
def leadingPlace (d : Double) : Int :=
  (digitCount (d.significand * Nat.pow 2 d.exponent * Nat.pow 10 400 / unitsPerOne) : Int) - 401

/-- The decimals next to `d` that are multiples of `10^place`: both neighbours with the nearer one
first, ties to the even multiple, or `d` itself where it is such a multiple. -/
def neighbours (d : Double) (place : Int) : List Decimal :=
  let num := d.significand * Nat.pow 2 d.exponent * Nat.pow 10 (-place).toNat
  let den := unitsPerOne * Nat.pow 10 place.toNat
  let below : Decimal := ⟨d.negative, num / den, place⟩
  let above : Decimal := ⟨d.negative, num / den + 1, place⟩
  if num % den = 0 then [below]
  else if roundHalfEven num den = num / den then [below, above]
  else [above, below]

/-- The first neighbour of `d`, from the place `place` downwards for at most `count` places, whose
nearest double is `d`. -/
def shortestFrom (d : Double) (place : Int) : Nat → Option Decimal
  | 0 => none
  | count + 1 =>
    match (d.neighbours place).find? (fun n => ofDecimal n = d) with
    | some found => some found
    | none => shortestFrom d (place - 1) count

/-- The decimal with the fewest digits whose nearest double is `d`. Seventeen digits always
suffice. -/
def shortest (d : Double) : Decimal :=
  (shortestFrom d d.leadingPlace 17).getD ⟨d.negative, 0, 0⟩

end Double

end Stencil
