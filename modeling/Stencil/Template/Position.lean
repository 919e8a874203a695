/-!
# Positions in a template

A position counts what has been read in three ways: bytes of UTF-8 for spans, and lines and
characters within the line for reports to the author.
-/

namespace Stencil

/-- How far a template has been read. Offsets start from zero, lines and columns from one. -/
structure Position where
  offset : Nat := 0
  line : Nat := 1
  column : Nat := 1
deriving DecidableEq, Repr

namespace Position

/-- The position after one more character. -/
def next (position : Position) (c : Char) : Position :=
  if c = '\n' then ⟨position.offset + c.utf8Size, position.line + 1, 1⟩
  else ⟨position.offset + c.utf8Size, position.line, position.column + 1⟩

/-- The position after the characters `s`. -/
def after (position : Position) (s : List Char) : Position :=
  s.foldl next position

theorem after_cons (position : Position) (c : Char) (s : List Char) :
    position.after (c :: s) = (position.next c).after s := rfl

theorem after_append (position : Position) (s t : List Char) :
    position.after (s ++ t) = (position.after s).after t := List.foldl_append

theorem after_concat (position : Position) (s : List Char) (c : Char) :
    position.after (s ++ [c]) = (position.after s).next c := after_append position s [c]

end Position

end Stencil
