import Stencil.Condition.Basic
import Stencil.Condition.Token

/-!
# Reading conditions

The tokens of a condition are cut into clauses at the connectives. A clause is one token, or three of
which the middle one is a comparison operator, after any number of `not`. Whether a condition can
be read, and what is wrong with it, does not depend on the context.

## Main definitions

* `ConditionFault`: what is wrong with a condition.
* `Clause.ofTokens`, `Condition.ofTokens`: reading of tokens.
* `Condition.evaluate`: the truth of the text of a condition in a context.
-/

namespace Stencil

/-- What is wrong with a condition. -/
inductive ConditionFault where
  /-- A clause has no tokens besides `not`. -/
  | missingValue
  /-- A clause has three tokens, and the middle one is no comparison. -/
  | unknownOperator (operator : List Char)
  /-- A clause has two tokens or more than three. -/
  | malformedClause (tokens : List (List Char))
deriving DecidableEq, Repr

def ConditionFault.text : ConditionFault → String
  | missingValue => "expected a value"
  | unknownOperator operator =>
    "unknown comparison operator '" ++ String.ofList operator ++ "'"
  | malformedClause tokens =>
    "cannot evaluate '" ++ " ".intercalate (tokens.map String.ofList) ++ "'"

def Comparison.ofToken? (token : List Char) : Option Comparison :=
  match token with
  | ['=', '='] => some equal
  | ['!', '='] => some different
  | ['<'] => some less
  | ['<', '='] => some lessOrEqual
  | ['>'] => some greater
  | ['>', '='] => some greaterOrEqual
  | _ => none

def Connective.ofToken? (token : List Char) : Option Connective :=
  match token with
  | ['a', 'n', 'd'] => some and
  | ['o', 'r'] => some or
  | ['x', 'o', 'r'] => some xor
  | _ => none

/-- The token that negates a clause. -/
def Clause.negation : List Char :=
  ['n', 'o', 't']

/-- The test that the tokens of a clause denote, negations apart. -/
def Test.ofTokens (tokens : List (List Char)) : Except ConditionFault Test :=
  match tokens with
  | [] => .error .missingValue
  | [token] => .ok (.value (Operand.read token))
  | [left, operator, right] =>
    match Comparison.ofToken? operator with
    | some relation => .ok (.comparison (Operand.read left) relation (Operand.read right))
    | none => .error (.unknownOperator operator)
  | _ => .error (.malformedClause tokens)

def Clause.ofTokens (tokens : List (List Char)) : Except ConditionFault Clause := do
  let test ← Test.ofTokens (tokens.dropWhile (· == negation))
  return ⟨(tokens.takeWhile (· == negation)).length, test⟩

namespace Condition

/-- The tokens of the first clause, and those of each later clause with the connective before it. -/
def clauses : List (List Char) → List (List Char) × List (Connective × List (List Char))
  | [] => ([], [])
  | token :: rest =>
    let (first, later) := clauses rest
    match Connective.ofToken? token with
    | some connective => ([], (connective, first) :: later)
    | none => (token :: first, later)

/-- The condition that tokens denote. The first clause that cannot be read decides the fault. -/
def ofTokens (tokens : List (List Char)) : Except ConditionFault Condition := do
  let (first, later) := clauses tokens
  let first ← Clause.ofTokens first
  let rest ← later.mapM fun (connective, tokens) => do
    return (connective, ← Clause.ofTokens tokens)
  return ⟨first, rest⟩

def read (s : List Char) : Except ConditionFault Condition :=
  ofTokens (tokens s)

/-- The truth of the text of a condition in a context. -/
def evaluate (s : List Char) (context : Value) : Except ConditionFault Bool := do
  return (← read s).holds context

end Condition

end Stencil
