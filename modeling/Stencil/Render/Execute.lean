import Stencil.Render.Diagnostic
import Stencil.Render.Helper
import Stencil.Render.Scope
import Stencil.Arguments.Assignment
import Stencil.Template.Block
import Stencil.Text.Html
import Stencil.Value.Printer

/-!
# Execution

Nodes are executed one segment after the other on a context that helpers may change. What a segment
asks to have rendered, the body of a block or a partial, is executed one level deeper. The number of
levels is limited, since partials may include each other without end; an execution that needs more
levels has no outcome.

How the nodes of a partial are found is left to the environment, which may keep a store of its own
from one inclusion to the next.

## Main definitions

* `Environment`: what an execution consults.
* `Outcome`: what it leaves behind; `Outcome.andThen` is the sequence of two executions.
* `execute`: the execution of nodes within a limit of levels.
-/

namespace Stencil

/-- What an execution consults: strictness, the helpers by name, and the partials by name, where
finding a partial may change the store. -/
structure Environment (σ : Type) where
  strict : Bool
  helper? : String → Option Helper
  fetch : String → σ → Option (Except ParseError (List Node)) × σ

/-- What an execution leaves behind. -/
structure Outcome (σ : Type) where
  result : Except RenderError String
  context : Value
  store : σ
  diagnostics : List Diagnostic

/-- A way to execute nodes on a context and a store. -/
abbrev Executor (σ : Type) := List Node → Value → σ → Option (Outcome σ)

namespace Outcome

variable {σ : Type}

/-- The outcome with diagnostics that were met before. -/
def report (earlier : List Diagnostic) (outcome : Outcome σ) : Outcome σ :=
  { outcome with diagnostics := earlier ++ outcome.diagnostics }

/-- The outcome with another context left behind. -/
def leaving (context : Value) (outcome : Outcome σ) : Outcome σ :=
  { outcome with context }

/-- The outcome with text that was rendered before. -/
def following (text : String) (outcome : Outcome σ) : Outcome σ :=
  { outcome with result := outcome.result.map (text ++ ·) }

/-- Goes on with `next` unless the outcome is an error. -/
def andThen (outcome : Outcome σ) (next : Value → σ → Option (Outcome σ)) : Option (Outcome σ) :=
  match outcome.result with
  | .error _ => some outcome
  | .ok text =>
    (next outcome.context outcome.store).map fun later =>
      (later.following text).report outcome.diagnostics

/-- Going on after nothing was rendered. -/
theorem andThen_nothing (context : Value) (store : σ) (next : Value → σ → Option (Outcome σ)) :
    (⟨.ok "", context, store, []⟩ : Outcome σ).andThen next = next context store := by
  simp only [andThen]
  cases next context store with
  | none => rfl
  | some o =>
    obtain ⟨r, _, _, _⟩ := o
    cases r <;> simp [following, report, Except.map]

/-- Going on twice is going on with a sequence. -/
theorem andThen_assoc (o : Outcome σ) (f g : Value → σ → Option (Outcome σ)) :
    (o.andThen f).bind (fun p => p.andThen g) =
      o.andThen fun c st => (f c st).bind fun p => p.andThen g := by
  obtain ⟨r, c, st, ds⟩ := o
  cases r with
  | error e => rfl
  | ok s =>
    simp only [andThen]
    cases hf : f c st with
    | none => rfl
    | some p =>
      obtain ⟨r, c', st', ds'⟩ := p
      cases r with
      | error e => simp [following, report, Except.map]
      | ok t =>
        cases hg : g c' st' with
        | none => simp [following, report, Except.map, hg]
        | some q =>
          obtain ⟨r, _, _, _⟩ := q
          cases r <;> simp [following, report, Except.map, hg, String.append_assoc]

end Outcome

/-- Carries out a plan, where `nested` executes what it asks to have rendered. -/
def Plan.run {σ : Type} (nested : Executor σ) : Plan → σ → Option (Outcome σ)
  | .done result context, store => some ⟨result, context, store, []⟩
  | .render nodes context resume, store =>
    (nested nodes context store).bind fun outcome =>
      ((resume outcome.result outcome.context).run nested outcome.store).map
        (Outcome.report outcome.diagnostics)

/-- The marker in a partial that stands for the content of the tag that includes it. -/
def contentMarker : String := "$block"

/-- The nodes of a partial with `content` in the place of its marker. -/
def spliceContent (nodes content : List Node) : List Node :=
  match Node.splitAtMarker? nodes contentMarker with
  | some (before, after) => before ++ content ++ after
  | none => nodes

namespace Environment

variable {σ : Type}

/-- The text of the value that an interpolation addresses. -/
def interpolate (env : Environment σ) (key : String) (context : Value) :
    Except RenderError String :=
  match Operand.lookup? key.toList context with
  | some v => .ok v.text
  | none => if env.strict then .error (.missingVariable key) else .ok ""

/-- The scope of an included partial: a copy of the context in which the assignments among the
arguments of the tag are made. -/
def inclusionScope (context : Value) (arguments : Option String) : Except ArgumentFault Value :=
  match arguments with
  | none => .ok context
  | some s => (Assignment.read s.toList context).map context.bindAll

/-- Includes a partial. Neither the partial nor the content of the tag can change the context. An
unknown partial is reported and the content takes its place. -/
def runInclusion (env : Environment σ) (nested : Executor σ) (node : Node) (name : String)
    (span : Span) (body : List Node) (context : Value) (store : σ) : Option (Outcome σ) :=
  match inclusionScope context node.arguments? with
  | .error fault =>
    some ⟨.error (.invalidArguments name fault.text node), context, store, []⟩
  | .ok scope =>
    match env.fetch name store with
    | (none, store) =>
      (nested body scope store).map fun outcome =>
        (outcome.leaving context).report [.partialNotFound name span]
    | (some (.error e), store) => some ⟨.error (.parse e), context, store, []⟩
    | (some (.ok nodes), store) =>
      (nested (spliceContent nodes body) scope store).map (Outcome.leaving context)

/-- Executes one segment, where `nested` executes what it asks to have rendered. -/
def runSegment (env : Environment σ) (nested : Executor σ) (segment : Segment) (context : Value)
    (store : σ) : Option (Outcome σ) :=
  match segment.node with
  | .text s => some ⟨.ok s, context, store, []⟩
  | .interpolation key .. =>
    some ⟨(env.interpolate key context).map Text.escapeHtml, context, store, []⟩
  | .raw key .. => some ⟨env.interpolate key context, context, store, []⟩
  | .helper key _ span .. =>
    match env.helper? key with
    | some helper => (helper context segment.node segment.body).run nested store
    | none => some ⟨.ok "", context, store, [.helperNotFound key span]⟩
  | .inclusion key _ span .. =>
    env.runInclusion nested segment.node key span segment.body context store
  | .close .. | .comment .. => some ⟨.ok "", context, store, []⟩

/-- Executes segments one after the other up to the first error. -/
def runSegments (env : Environment σ) (nested : Executor σ) :
    List Segment → Value → σ → Option (Outcome σ)
  | [], context, store => some ⟨.ok "", context, store, []⟩
  | segment :: rest, context, store =>
    (env.runSegment nested segment context store).bind fun outcome =>
      outcome.andThen (env.runSegments nested rest)

/-- Executing a list of segments is executing a part of it and then the rest. -/
theorem runSegments_append (env : Environment σ) (nested : Executor σ) (first second : List Segment)
    (context : Value) (store : σ) :
    env.runSegments nested (first ++ second) context store =
      (env.runSegments nested first context store).bind fun outcome =>
        outcome.andThen (env.runSegments nested second) := by
  induction first generalizing context store with
  | nil => simp only [List.nil_append, runSegments, Option.bind_some, Outcome.andThen_nothing]
  | cons segment rest ih =>
    simp only [List.cons_append, runSegments]
    cases env.runSegment nested segment context store with
    | none => rfl
    | some o =>
      simp only [Option.bind_some]
      rw [Outcome.andThen_assoc]
      congr 1; funext c st; exact ih c st

/-- Executes nodes on a context within a limit of levels. -/
def execute (env : Environment σ) : Nat → Executor σ
  | 0, _, _, _ => none
  | limit + 1, nodes, context, store =>
    env.runSegments (env.execute limit) (Node.segments nodes) context store

end Environment

end Stencil
