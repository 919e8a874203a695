import Stencil.Render.Helper
import Stencil.Value.Printer
import Stencil.Wire.Node

/-!
# Stock helpers and functions

Helpers and functions that a host can register by name besides the built-in ones.

## Main definitions

* `Helper.Stock`, `Helper.ofStock`: helpers that deal with their body in plain ways, or show what
  they were called with.
* `Helper.StockFunction`, `Helper.applyStock`: functions of their arguments.
-/

namespace Stencil.Helper

/-- The stock helpers. -/
inductive Stock where
  /-- Renders the body on the context itself. -/
  | identity
  /-- Renders the body on a copy of the context. -/
  | isolate
  /-- Renders the body twice, the second time on what the first left behind. -/
  | twice
  /-- Shows the tag and the body as JSON. -/
  | node
  /-- Shows the context as JSON. -/
  | context
  /-- Fails with its arguments as the message. -/
  | fail
deriving DecidableEq, Repr

/-- Renders the body on the context and, if that succeeds, once more on what it left behind. -/
def renderTwice (body : List Node) (context : Value) : Plan :=
  .render body context fun result context =>
    match result with
    | .error e => .fail e context
    | .ok first => .render body context fun result context =>
        .done (result.map (first ++ ·)) context

/-- A tag and its body as a value. -/
def describeCall (node : Node) (body : List Node) : Value :=
  .object [("node", node.toValue), ("body", Node.listToValue body)]

/-- The helper of a stock name. -/
def ofStock (stock : Stock) : Helper := fun context node body =>
  match stock with
  | .identity => .renderHere body context
  | .isolate => .renderApart body context context
  | .twice => renderTwice body context
  | .node => .done (.ok (describeCall node body).json) context
  | .context => .done (.ok context.json) context
  | .fail => .fail (.failed (node.arguments?.getD "boom")) context

/-- The stock functions. -/
inductive StockFunction where
  /-- The texts of the arguments with hyphens between them. -/
  | join
  /-- The arguments as a JSON array. -/
  | json
  /-- The number of arguments. -/
  | count
  /-- The second of two arguments in an element named by the first. -/
  | wrap
deriving DecidableEq, Repr

/-- The text that a stock function gives for its arguments. -/
def applyStock (function : StockFunction) (arguments : List Value) : String :=
  match function with
  | .join => "-".intercalate (arguments.map Value.text)
  | .json => (Value.array arguments).json
  | .count => toString arguments.length
  | .wrap =>
    match arguments with
    | [name, content] =>
      "<" ++ name.text ++ ">" ++ content.text ++ "</" ++ name.text ++ ">"
    | _ => ""

end Stencil.Helper
