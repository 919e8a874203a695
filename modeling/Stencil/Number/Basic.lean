import Stencil.Number.Notation

/-!
# Numbers

A number is an integer or a finite double. The two are different values, even where they are
equal as quantities; comparisons by quantity go through the nearest double.
-/

namespace Stencil

/-- An integer or a finite double. -/
inductive Number where
  | int (value : Int)
  | float (value : Double)
deriving DecidableEq, Repr

namespace Number

def minInt : Int := -Nat.pow 2 63

def maxInt : Int := Nat.pow 2 64 - 1

def toDouble : Number → Double
  | int n => Double.ofInt n
  | float d => d

/-- The quantity as it enters comparisons: that of the nearest double, in units. -/
def units (n : Number) : Int :=
  n.toDouble.units

def isZero : Number → Bool
  | int n => n == 0
  | float d => d.isZero

def text : Number → String
  | int n => toString n
  | float d => d.text

end Number

end Stencil
