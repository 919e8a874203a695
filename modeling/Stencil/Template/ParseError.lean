/-!
# Errors of parsing

The one thing that can be wrong with a template is a close tag that closes nothing. The report names
the tag and the line and column where it starts.
-/

namespace Stencil

/-- What is wrong with a template. -/
inductive ParseErrorKind where
  /-- A close tag, given by its source text, for a block that is not open. -/
  | unexpectedClose (source : String)
  /-- Any other fault, in words. -/
  | message (text : String)
deriving DecidableEq, Repr

def ParseErrorKind.text : ParseErrorKind → String
  | unexpectedClose source => "Unexpected close tag: " ++ source
  | message text => "Parser error: " ++ text

/-- What is wrong with a template, and where. -/
structure ParseError where
  line : Nat
  column : Nat
  kind : ParseErrorKind
deriving DecidableEq, Repr

def ParseError.text (e : ParseError) : String :=
  s!"Parse error at line {e.line}, column {e.column}: " ++ e.kind.text

end Stencil
