import Stencil.Value.Basic

/-!
# Comparing values

Two values are the same if they have the same shape; the order of the fields of an object does not
matter, and an integer is never the same as a double. Conditions compare numbers more loosely, by
the quantity of their nearest doubles, and order only numbers and strings.

## Main definitions

* `Value.same`: sameness of values.
* `Value.equals`: the equality of conditions.
* `Value.order?`: the order of conditions, where there is one.
-/

namespace Stencil

/-- Whether two numbers are both integers, or both doubles, of the same quantity. -/
def Number.same : Number → Number → Bool
  | .int a, .int b => a == b
  | .float a, .float b => a.units == b.units
  | _, _ => false

namespace Value

mutual

/-- Whether two values have the same shape, up to the order of fields. -/
def same : Value → Value → Bool
  | null, null => true
  | bool a, bool b => a == b
  | number a, number b => a.same b
  | string a, string b => a == b
  | array as, array bs => itemsSame as bs
  | object as, object bs => as.length == bs.length && fieldsSame as bs
  | _, _ => false

/-- Whether two lists have the same items at the same positions. -/
def itemsSame : List Value → List Value → Bool
  | [], [] => true
  | a :: as, b :: bs => a.same b && itemsSame as bs
  | _, _ => false

/-- Whether every field on the left is the same on the right. -/
def fieldsSame : List (String × Value) → List (String × Value) → Bool
  | [], _ => true
  | (key, a) :: as, bs =>
    (match Table.get? bs key with
      | some b => a.same b
      | none => false) && fieldsSame as bs

end

/-- The equality of conditions: numbers by quantity, other values by sameness. -/
def equals (a b : Value) : Bool :=
  match a, b with
  | number m, number n => m.units == n.units
  | _, _ => a.same b

/-- The order of conditions: numbers by quantity, strings by code points. Other pairs have none. -/
def order? (a b : Value) : Option Ordering :=
  match a, b with
  | number m, number n => some (compare m.units n.units)
  | string s, string t => some (compare s t)
  | _, _ => none

end Value

end Stencil
