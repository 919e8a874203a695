import Stencil.Template.Node
import Stencil.Template.ParseError

/-!
# Errors of rendering

The first error ends a rendering.
-/

namespace Stencil

/-- Why a rendering failed. -/
inductive RenderError where
  /-- The template, or a partial that it includes, does not parse. -/
  | parse (error : ParseError)
  /-- In a strict dialect, an interpolation addresses nothing. -/
  | missingVariable (path : String)
  /-- The arguments of a tag do not have the form that its helper needs. -/
  | invalidArguments (helper reason : String) (node : Node)
  /-- A partial that was asked for by name is not registered. -/
  | missingPartial (name : String)
  /-- A helper gave up. -/
  | failed (message : String)
deriving DecidableEq, Repr

def RenderError.text : RenderError → String
  | parse e => e.text
  | missingVariable path => "Variable not found: " ++ path
  | invalidArguments helper reason node =>
    "Invalid arguments for helper '" ++ helper ++ "': " ++ reason ++ " (in " ++ node.source ++ ")"
  | missingPartial name => "Partial not found: " ++ name
  | failed message => "Rendering error: " ++ message

/-- The wording of what caused an error, where there is a cause apart from the error itself. -/
def RenderError.cause? : RenderError → Option String
  | parse e => some e.kind.text
  | _ => none

end Stencil
