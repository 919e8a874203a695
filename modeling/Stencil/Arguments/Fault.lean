import Stencil.Condition.Read

/-!
# Faults of arguments

What can be wrong with the arguments of a built-in helper.
-/

namespace Stencil

/-- What is wrong with the arguments of a tag. -/
inductive ArgumentFault where
  | missingCondition
  | missingList
  | missingContext
  | missingAssignments
  | condition (fault : ConditionFault)
  /-- The header of a loop names no list. -/
  | noList (header : List Char)
  /-- The header of a loop has more than three names. -/
  | tooManyNames
  | invalidName (name : List Char)
  /-- An assignment has no equals sign. -/
  | noAssignment (piece : List Char)
deriving DecidableEq, Repr

def ArgumentFault.text : ArgumentFault → String
  | missingCondition => "missing condition"
  | missingList => "missing list"
  | missingContext => "missing context"
  | missingAssignments => "missing assignments"
  | condition fault => fault.text
  | noList header => "expected a list to iterate, found '" ++ String.ofList header ++ "'"
  | tooManyNames => "at most item, key and index can be named"
  | invalidName name => "'" ++ String.ofList name ++ "' is not a valid name"
  | noAssignment piece => "expected 'name = value', found '" ++ String.ofList piece ++ "'"

end Stencil
