import Stencil.Path
import Stencil.Text.Blank
import Stencil.Text.Quoted

/-!
# Operands

An operand is an argument of a tag: a quoted string, a number, `true`, `false`, or a path into the
context.

## Main definitions

* `Operand.read`: the operand that a text denotes; every text denotes one.
* `Operand.value?`: its value in a context, none where a path addresses nothing.
-/

namespace Stencil

/-- A literal or a path. -/
inductive Operand where
  | literal (value : Value)
  | path (text : List Char)

namespace Operand

/-- The operand that a text denotes, white space at its ends apart. -/
def read (s : List Char) : Operand :=
  let s := Text.trim s
  match Text.unquote? s with
  | some quoted => literal (.string (String.ofList quoted))
  | none =>
    match Number.ofText? s with
    | some n => literal (.number n)
    | none =>
      if s = "true".toList then literal (.bool true)
      else if s = "false".toList then literal (.bool false)
      else path s

/-- The value of an operand in a context. -/
def value? (operand : Operand) (context : Value) : Option Value :=
  match operand with
  | literal v => some v
  | path text => context.resolve? text

/-- The value of the operand that a text denotes. -/
def lookup? (s : List Char) (context : Value) : Option Value :=
  (read s).value? context

/-- A text denotes a literal, or the path that it is without the white space at its ends. -/
theorem read_cases (s : List Char) :
    (∃ v, read s = literal v ∧ v.WellFormed) ∨ read s = path (Text.trim s) := by
  unfold read
  dsimp only
  split
  · exact .inl ⟨_, rfl, trivial⟩
  · split
    · exact .inl ⟨_, rfl, trivial⟩
    · split
      · exact .inl ⟨_, rfl, trivial⟩
      · split
        · exact .inl ⟨_, rfl, trivial⟩
        · exact .inr rfl

end Operand

end Stencil
