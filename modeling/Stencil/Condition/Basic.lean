import Stencil.Operand
import Stencil.Value.Compare

/-!
# Conditions

A condition is a chain of clauses joined by `and`, `or` and `xor`. A clause tests one value or
compares two, and may be negated any number of times. The connectives have no precedence: a chain
is evaluated from left to right.

## Main definitions

* `Comparison`, `Connective`, `Clause`, `Condition`.
* `Condition.holds`: the truth of a condition in a context.
-/

namespace Stencil

/-- The comparisons of two values. -/
inductive Comparison where
  | equal
  | different
  | less
  | lessOrEqual
  | greater
  | greaterOrEqual
deriving DecidableEq, Repr

namespace Comparison

/-- Whether the comparison holds between two values. Values without an order are neither less nor
greater. -/
def holds (comparison : Comparison) (a b : Value) : Bool :=
  match comparison with
  | equal => a.equals b
  | different => !a.equals b
  | less => a.order? b == some .lt
  | lessOrEqual => a.order? b == some .lt || a.order? b == some .eq
  | greater => a.order? b == some .gt
  | greaterOrEqual => a.order? b == some .gt || a.order? b == some .eq

end Comparison

/-- The ways to join two clauses. -/
inductive Connective where
  | and
  | or
  | xor
deriving DecidableEq, Repr

namespace Connective

/-- The truth of two joined clauses. -/
def apply (connective : Connective) (a b : Bool) : Bool :=
  match connective with
  | and => a && b
  | or => a || b
  | xor => a ^^ b

end Connective

/-- What a clause asks, negations apart. -/
inductive Test where
  | value (operand : Operand)
  | comparison (left : Operand) (comparison : Comparison) (right : Operand)

namespace Test

/-- The value of an operand in a test: a path that addresses nothing counts as null. -/
def valueOf (operand : Operand) (context : Value) : Value :=
  (operand.value? context).getD .null

/-- Whether a test succeeds in a context. -/
def holds (test : Test) (context : Value) : Bool :=
  match test with
  | value operand => (valueOf operand context).isTruthy
  | comparison left relation right =>
    relation.holds (valueOf left context) (valueOf right context)

end Test

/-- A test with the number of its negations. -/
structure Clause where
  negations : Nat
  test : Test

namespace Clause

/-- The truth of a clause: that of its test, flipped once for each negation. -/
def holds (clause : Clause) (context : Value) : Bool :=
  clause.test.holds context ^^ clause.negations % 2 == 1

end Clause

/-- A first clause and the clauses joined to it. -/
structure Condition where
  first : Clause
  rest : List (Connective × Clause)

namespace Condition

/-- The truth of a condition, from left to right. -/
def holds (condition : Condition) (context : Value) : Bool :=
  condition.rest.foldl (fun truth (connective, clause) => connective.apply truth (clause.holds context))
    (condition.first.holds context)

end Condition

end Stencil
