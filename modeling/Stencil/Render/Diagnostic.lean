import Stencil.Template.Node

/-!
# Diagnostics

Problems that do not stop a rendering: a tag that names a helper or a partial that nobody
registered. They are collected in the order in which they are met.
-/

namespace Stencil

/-- A tag with an unknown name, and where it stands. -/
inductive Diagnostic where
  /-- The block was skipped. -/
  | helperNotFound (name : String) (span : Span)
  /-- The content of the block was rendered instead. -/
  | partialNotFound (name : String) (span : Span)
deriving DecidableEq, Repr

def Diagnostic.text : Diagnostic → String
  | helperNotFound name _ => "Helper \"" ++ name ++ "\" not found"
  | partialNotFound name _ => "Partial \"" ++ name ++ "\" not defined"

end Stencil
