import Stencil.Arguments.Fault

/-!
# Assignments

A list of assignments is written `name = value, name = value`. All values are taken from the context
as it is before any of them is bound. A value that is neither a literal nor a path that addresses
something stands for its own text.

## Main definitions

* `Assignment.read`: the bindings that a text of assignments denotes in a context.
-/

namespace Stencil.Assignment

/-- The text before the first equals sign, and the text after it. -/
def cutAtEquals? : List Char → Option (List Char × List Char)
  | [] => none
  | c :: s =>
    if c = '=' then some ([], s)
    else (cutAtEquals? s).map fun (before, after) => (c :: before, after)

/-- The value that the right-hand side of an assignment denotes. -/
def valueOf (s : List Char) (context : Value) : Value :=
  (Operand.lookup? s context).getD (.string (String.ofList s))

/-- The binding that one assignment denotes. -/
def readOne (context : Value) (piece : List Char) : Except ArgumentFault (String × Value) :=
  match cutAtEquals? piece with
  | none => .error (.noAssignment (Text.trim piece))
  | some (name, value) =>
    let name := Text.trim name
    if Path.isName name then .ok (String.ofList name, valueOf (Text.trim value) context)
    else .error (.invalidName name)

/-- The bindings that assignments denote, in order. Commas in quotes do not separate assignments,
and empty pieces are left out. The first piece that is no assignment decides the fault. -/
def read (s : List Char) (context : Value) : Except ArgumentFault (List (String × Value)) :=
  (Text.splitUnquoted (· == ',') s).mapM (readOne context)

end Stencil.Assignment
