import Stencil.Arguments.Assignment
import Stencil.Arguments.LoopHeader
import Stencil.Render.Helper
import Stencil.Render.Scope
import Stencil.Table
import Stencil.Template.Block

/-!
# Built-in helpers

Every engine knows `if`, `each` and its other name `for`, `with`, `set` and `default`. The first
three divide their body at the marker `else`. Branches after `else` and the body of `if` are
rendered on the context itself; loops, `with`, and assignments around a body work on a copy.

## Main definitions

* `Helper.conditional`, `Helper.loop`, `Helper.inScope`, `Helper.assignment`: the helpers.
* `Helper.builtins`: their names.
-/

namespace Stencil.Helper

/-- The marker between the two branches of a block. -/
def elseMarker : String := "else"

/-- The branch of a body before the marker `else`, and the branch after it. -/
def branches (body : List Node) : List Node × Option (List Node) :=
  match Node.splitAtMarker? body elseMarker with
  | some (first, second) => (first, some second)
  | none => (body, none)

/-- Renders a branch on the context itself; a branch that is not there renders nothing. -/
def renderBranch (branch : Option (List Node)) (context : Value) : Plan :=
  match branch with
  | some nodes => .renderHere nodes context
  | none => .done (.ok "") context

/-- Fails because of the arguments of a tag. -/
def refuse (name : String) (fault : ArgumentFault) (context : Value) (node : Node) : Plan :=
  .fail (.invalidArguments name fault.text node) context

/-- Renders the first branch of the body if a condition holds, else the second. -/
def conditional : Helper := fun context node body =>
  match node.arguments? with
  | none => refuse "if" .missingCondition context node
  | some arguments =>
    match Condition.evaluate arguments.toList context with
    | .error fault => refuse "if" (.condition fault) context node
    | .ok holds =>
      let (first, second) := branches body
      renderBranch (if holds then some first else second) context

/-- What a pass of a loop binds. -/
def passBindings (header : LoopHeader) (key : String) (item : Value) (index : Nat) :
    List (String × Value) :=
  [(header.item, item), (header.key, .string key), (header.index, .number (.int index))]

/-- The passes of a loop over the entries from a position on, after `output` has been rendered. All
passes share one scope, in which each binds its names anew. -/
def passes (header : LoopHeader) (body : List Node) (context : Value) :
    List (String × Value) → Nat → Value → String → Plan
  | [], _, _, output => .done (.ok output) context
  | (key, item) :: rest, index, scope, output =>
    .render body (scope.bindAll (passBindings header key item index)) fun result scope =>
      match result with
      | .error e => .fail e context
      | .ok text => passes header body context rest (index + 1) scope (output ++ text)

/-- Renders the first branch of the body once for each entry of a list, or the second branch if
there are none. -/
def loop : Helper := fun context node body =>
  let name := node.key?.getD "each"
  match node.arguments? with
  | none => refuse name .missingList context node
  | some arguments =>
    match LoopHeader.read arguments.toList with
    | .error fault => refuse name fault context node
    | .ok header =>
      let entries := ((Operand.lookup? header.list context).map Value.entries).getD []
      let (first, second) := branches body
      if entries.isEmpty then renderBranch second context
      else passes header first context entries 0 context ""

/-- The scope of `with`: the fields of an object are bound by their keys, any other value by the
name of the item of a loop. -/
def scopeOf (target : Value) (context : Value) : Value :=
  match target with
  | .object fields => context.bindAll fields
  | v => context.bindAll [(LoopHeader.defaultItem, v)]

/-- Renders the first branch of the body with a true value in scope, else the second branch. Without
a second branch the first one is rendered with nothing more in scope. -/
def inScope : Helper := fun context node body =>
  match node.arguments? with
  | none => refuse "with" .missingContext context node
  | some arguments =>
    let target := (Operand.lookup? arguments.toList context).filter Value.isTruthy
    let (first, second) := branches body
    match target, second with
    | some v, _ => .renderApart first (scopeOf v context) context
    | none, some second => .renderHere second context
    | none, none => .renderApart first context context

/-- Makes assignments by `bind`: in the context itself if the tag has no body, else in the scope of
the body. -/
def assignment (bind : Value → List (String × Value) → Value) : Helper := fun context node body =>
  let name := node.key?.getD ""
  match node.arguments? with
  | none => refuse name .missingAssignments context node
  | some arguments =>
    match Assignment.read arguments.toList context with
    | .error fault => refuse name fault context node
    | .ok pairs =>
      if body.isEmpty then .done (.ok "") (bind context pairs)
      else .renderApart body (bind context pairs) context

/-- The helpers that every engine knows. -/
def builtins : Table Helper :=
  [("if", conditional), ("each", loop), ("for", loop), ("with", inScope),
    ("set", assignment Value.bindAll), ("default", assignment Value.bindMissing)]

/-- What holds of each built-in helper under its name holds of all of them. -/
theorem forall_mem_builtins {P : String → Helper → Prop} (hif : P "if" conditional)
    (heach : P "each" loop) (hfor : P "for" loop) (hwith : P "with" inScope)
    (hset : P "set" (assignment Value.bindAll))
    (hdefault : P "default" (assignment Value.bindMissing)) {name : String} {helper : Helper}
    (h : (name, helper) ∈ builtins) : P name helper := by
  simp only [builtins, List.mem_cons, List.not_mem_nil, or_false, Prod.mk.injEq] at h
  rcases h with ⟨rfl, rfl⟩ | ⟨rfl, rfl⟩ | ⟨rfl, rfl⟩ | ⟨rfl, rfl⟩ | ⟨rfl, rfl⟩ | ⟨rfl, rfl⟩ <;>
    assumption

end Stencil.Helper
