import Stencil.Number.Basic

/-!
# Reading numerals

A numeral is an optional sign, digits with an optional fraction, and an optional exponent. At least
one digit stands before or after the point, and at least one in an exponent.

## Main definitions

* `Numeral.read?`: the parts of a numeral that is the whole of a text.
* `Number.ofText?`: the number a word of a template stands for.
* `Number.ofJson?`: the number a numeral of a JSON text stands for.
-/

namespace Stencil

/-- Whether `c` is one of the ten ASCII digits. -/
def isDigit (c : Char) : Bool :=
  '0' ≤ c && c ≤ '9'

/-- The value of a list of decimal digits. -/
def digitsValue (digits : List Char) : Nat :=
  digits.foldl (fun n c => 10 * n + (c.toNat - '0'.toNat)) 0

/-- The parts of a numeral as written. -/
structure Numeral where
  negative : Bool
  whole : List Char
  fraction : List Char
  exponent : Int
  /-- Whether a point or an exponent was written. -/
  isFractional : Bool

namespace Numeral

def readSign (s : List Char) : Bool × List Char :=
  match s with
  | '-' :: rest => (true, rest)
  | '+' :: rest => (false, rest)
  | _ => (false, s)

def readDigits (s : List Char) : List Char × List Char :=
  (s.takeWhile isDigit, s.dropWhile isDigit)

/-- The exponent that is all of `s`, if `s` is empty or an exponent. -/
def readExponent? (s : List Char) : Option Int :=
  match s with
  | [] => some 0
  | c :: rest =>
    if c = 'e' ∨ c = 'E' then
      let (negative, digits) := readSign rest
      if digits.isEmpty ∨ ¬ digits.all isDigit then none
      else if negative then some (-(digitsValue digits : Int))
      else some (digitsValue digits)
    else none

/-- The numeral that is all of `s`. -/
def read? (s : List Char) : Option Numeral :=
  let (negative, unsigned) := readSign s
  let (whole, afterWhole) := readDigits unsigned
  let (fraction, afterFraction) :=
    match afterWhole with
    | '.' :: rest => readDigits rest
    | _ => ([], afterWhole)
  if whole.isEmpty ∧ fraction.isEmpty then none
  else (readExponent? afterFraction).map fun exponent =>
    ⟨negative, whole, fraction, exponent, !afterWhole.isEmpty⟩

def toDecimal (n : Numeral) : Decimal :=
  ⟨n.negative, digitsValue (n.whole ++ n.fraction), n.exponent - n.fraction.length⟩

/-- The number written, where it has neither point nor exponent. -/
def toInt (n : Numeral) : Int :=
  if n.negative then -(digitsValue n.whole : Int) else digitsValue n.whole

end Numeral

namespace Number

/-- The number a word stands for: an integer of 64 bits with sign where the word is one, else the
nearest finite double. -/
def ofText? (s : List Char) : Option Number := do
  let numeral ← Numeral.read? s
  let n := numeral.toInt
  if !numeral.isFractional && (-Nat.pow 2 63 ≤ n && n < Nat.pow 2 63) then some (.int n)
  else (Double.ofDecimal? numeral.toDecimal).map .float

/-- The number a JSON numeral stands for: an integer where it has neither point nor exponent, is in
range and is not a negative zero, else the nearest finite double. -/
def ofJson? (s : List Char) : Option Number := do
  let numeral ← Numeral.read? s
  let n := numeral.toInt
  if !numeral.isFractional && (minInt ≤ n && n ≤ maxInt) && !(numeral.negative && n == 0) then
    some (.int n)
  else (Double.ofDecimal? numeral.toDecimal).map .float

end Number

end Stencil
