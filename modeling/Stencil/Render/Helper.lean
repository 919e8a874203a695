import Stencil.Operand
import Stencil.Render.Error
import Stencil.Value.Basic

/-!
# Helpers

A helper is told the context, its tag and the body of its block, and answers with a plan: a result,
or the wish to have some nodes rendered first and to go on with what came of it. So a helper says
everything about the rendering of its body without being able to render.

## Main definitions

* `Plan`, `Helper`.
* `Plan.renderHere`, `Plan.renderApart`: rendering on the context itself, and on a copy.
* `Helper.ofFunction`: the helper of a function of resolved arguments.
-/

namespace Stencil

/-- What a helper does, step by step. -/
inductive Plan where
  /-- Ends with a result, leaving a context behind. -/
  | done (result : Except RenderError String) (context : Value)
  /-- Renders nodes in a context and goes on with the result and the context left behind. -/
  | render (nodes : List Node) (context : Value)
      (resume : Except RenderError String → Value → Plan)

/-- What is to be done for a tag in a context, where the list is the body of its block. -/
abbrev Helper := Value → Node → List Node → Plan

namespace Plan

/-- Ends with an error and leaves the context as it is. -/
def fail (error : RenderError) (context : Value) : Plan :=
  done (.error error) context

/-- Renders nodes on the context itself. -/
def renderHere (nodes : List Node) (context : Value) : Plan :=
  render nodes context done

/-- Renders nodes on a scope of their own and leaves the context as it is. -/
def renderApart (nodes : List Node) (scope context : Value) : Plan :=
  render nodes scope fun result _ => done result context

end Plan

namespace Helper

/-- Whether `c` separates the arguments of a function. -/
def separatesArguments (c : Char) : Bool :=
  Text.isBlank c || c == ','

/-- The resolved arguments of a function: a path that addresses nothing counts as null. -/
def resolveArguments (arguments : Option String) (context : Value) : List Value :=
  (Text.splitUnquoted separatesArguments (arguments.getD "").toList).map fun argument =>
    (Operand.lookup? argument context).getD .null

/-- The helper that renders its body on the context itself and applies a function to its arguments.
The rendered body is the last argument unless it is empty. -/
def ofFunction (f : List Value → String) : Helper := fun context node body =>
  let arguments := resolveArguments node.arguments? context
  .render body context fun result context =>
    match result with
    | .error e => .fail e context
    | .ok content =>
      .done (.ok (f (if content.isEmpty then arguments else arguments ++ [.string content]))) context

end Helper

end Stencil
