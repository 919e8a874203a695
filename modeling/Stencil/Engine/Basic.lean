import Stencil.Engine.Partials
import Stencil.Render.Builtin
import Stencil.Render.Execute

/-!
# Engines

An engine holds a dialect, helpers and partials by name, and the label of whoever receives its
diagnostics. It parses templates in its dialect and renders them.

## Main definitions

* `Engine`, `Engine.new`: an engine, and one that knows the built-in helpers.
* `Engine.OnlyBuiltins`, `Engine.Ordinary`: engines without helpers of their own, apart from
  functions in the second case.
* `Engine.AllPartials`: engines whose partials hold only nodes with a property.
* `Engine.execute`: execution on a context, which may change.
* `Engine.render`, `Engine.renderPartial`: rendering on a copy of the data.
-/

namespace Stencil

/-- An engine with a store `σ` of partials. -/
structure Engine (σ : Type) where
  dialect : Dialect
  helpers : Table Helper
  partials : σ
  /-- Who receives diagnostics, if anybody does. -/
  receiver : Option String

namespace Engine

/-- Levels of execution that suffice unless partials include each other without end. -/
def ampleLimit : Nat := 100000

variable {σ : Type} [PartialStore σ]

/-- An engine that knows the built-in helpers and no partials. -/
def new (dialect : Dialect) : Engine σ :=
  ⟨dialect, Helper.builtins, PartialStore.empty, none⟩

/-- Registers a helper, in the place of an earlier one with the same name. -/
def registerHelper (engine : Engine σ) (name : String) (helper : Helper) : Engine σ :=
  { engine with helpers := Table.insert engine.helpers name helper }

/-- Registers the helper of a function of resolved arguments. -/
def registerFunction (engine : Engine σ) (name : String) (f : List Value → String) : Engine σ :=
  engine.registerHelper name (Helper.ofFunction f)

/-- Whether all helpers of an engine are built in under their names. -/
def OnlyBuiltins (engine : Engine σ) : Prop :=
  ∀ name helper, Table.get? engine.helpers name = some helper → (name, helper) ∈ Helper.builtins

/-- Whether all helpers of an engine are built in under their names or made from functions. -/
def Ordinary (engine : Engine σ) : Prop :=
  ∀ name helper, Table.get? engine.helpers name = some helper →
    (name, helper) ∈ Helper.builtins ∨ ∃ f, helper = Helper.ofFunction f

/-- Registers a partial, in the place of an earlier one with the same name. -/
def registerPartial (engine : Engine σ) (name : String) (source : PartialSource) : Engine σ :=
  { engine with partials := PartialStore.register engine.partials name source }

def registerPartials (engine : Engine σ) (entries : List (String × PartialSource)) : Engine σ :=
  entries.foldl (fun engine entry => engine.registerPartial entry.1 entry.2) engine

def setReceiver (engine : Engine σ) (label : String) : Engine σ :=
  { engine with receiver := some label }

/-- The nodes of a registered partial, or why it does not parse. -/
def definition? (engine : Engine σ) (name : String) : Option (Except ParseError (List Node)) :=
  (PartialStore.fetch engine.dialect name engine.partials).1

/-- What executions of the engine consult. -/
def environment (engine : Engine σ) : Environment σ where
  strict := engine.dialect.strict
  helper? := Table.get? engine.helpers
  fetch := PartialStore.fetch engine.dialect

def parse (engine : Engine σ) (template : String) : Except ParseError (List Node) :=
  Template.parse engine.dialect template

/-- Executes nodes on a context within a limit of levels. -/
def execute (engine : Engine σ) (limit : Nat) (nodes : List Node) (context : Value) :
    Option (Outcome σ) :=
  engine.environment.execute limit nodes context engine.partials

/-- Renders nodes on a copy of the data. -/
def renderNodes (engine : Engine σ) (limit : Nat) (nodes : List Node) (data : Value) :
    Option (Outcome σ) :=
  (engine.execute limit nodes data).map (Outcome.leaving data)

/-- The outcome of a rendering that fails before it starts. -/
def refuse (engine : Engine σ) (error : RenderError) (data : Value) : Outcome σ :=
  ⟨.error error, data, engine.partials, []⟩

/-- Renders a template on a copy of the data. -/
def render (engine : Engine σ) (limit : Nat) (template : String) (data : Value) :
    Option (Outcome σ) :=
  match engine.parse template with
  | .error e => some (engine.refuse (.parse e) data)
  | .ok nodes => engine.renderNodes limit nodes data

/-- Renders a registered partial on a copy of the data, with nothing in the place of its marker. -/
def renderPartial (engine : Engine σ) (limit : Nat) (name : String) (data : Value) :
    Option (Outcome σ) :=
  match PartialStore.fetch engine.dialect name engine.partials with
  | (none, _) => some (engine.refuse (.missingPartial name) data)
  | (some (.error e), partials) => some ({ engine with partials }.refuse (.parse e) data)
  | (some (.ok nodes), partials) =>
    { engine with partials }.renderNodes limit (spliceContent nodes []) data

/-- The engine after an execution, which may have changed its store of partials. -/
def after (engine : Engine σ) (outcome : Outcome σ) : Engine σ :=
  { engine with partials := outcome.store }

/-- The diagnostics of an execution, each with the receiver that gets it. -/
def delivered (engine : Engine σ) (diagnostics : List Diagnostic) : List (String × Diagnostic) :=
  match engine.receiver with
  | none => []
  | some label => diagnostics.map (label, ·)

/-! ## Registered helpers -/

theorem onlyBuiltins_new (dialect : Dialect) : (new dialect : Engine σ).OnlyBuiltins :=
  fun _ _ h => Table.mem_of_get?_eq_some h

theorem OnlyBuiltins.registerPartial {engine : Engine σ} (h : engine.OnlyBuiltins) (name : String)
    (source : PartialSource) : (engine.registerPartial name source).OnlyBuiltins := h

omit [PartialStore σ] in
theorem OnlyBuiltins.ordinary {engine : Engine σ} (h : engine.OnlyBuiltins) : engine.Ordinary :=
  fun name helper hname => .inl (h name helper hname)

omit [PartialStore σ] in
theorem Ordinary.registerFunction {engine : Engine σ} (h : engine.Ordinary) (name : String)
    (f : List Value → String) : (engine.registerFunction name f).Ordinary := by
  intro name' helper hhelper
  rw [Engine.registerFunction, registerHelper, Table.get?_insert] at hhelper
  split at hhelper
  · exact .inr ⟨f, (Option.some.inj hhelper).symm⟩
  · exact h name' helper hhelper

/-! ## Registered partials -/

/-- Whether every node of every partial has a property. -/
def AllPartials (engine : Engine σ) (p : Node → Prop) : Prop :=
  ∀ name nodes, engine.definition? name = some (.ok nodes) → ∀ node ∈ nodes, p node

variable [LawfulPartialStore σ]

theorem definition?_new (dialect : Dialect) (name : String) :
    (new dialect : Engine σ).definition? name = none :=
  LawfulPartialStore.fetch_empty dialect name

theorem definition?_registerPartial (engine : Engine σ) (registered : String)
    (source : PartialSource) (name : String) :
    (engine.registerPartial registered source).definition? name =
      if name = registered then some (source.parse engine.dialect)
      else engine.definition? name :=
  LawfulPartialStore.fetch_register engine.dialect registered source name engine.partials

namespace AllPartials

variable {p : Node → Prop} {engine : Engine σ}

theorem new (dialect : Dialect) : (Engine.new dialect : Engine σ).AllPartials p := by
  intro name nodes h
  rw [definition?_new] at h
  contradiction

theorem registerPartial (h : engine.AllPartials p) {name : String} {source : PartialSource}
    (hsource : ∀ nodes, source.parse engine.dialect = .ok nodes → ∀ node ∈ nodes, p node) :
    (engine.registerPartial name source).AllPartials p := by
  intro other nodes hnodes
  rw [definition?_registerPartial] at hnodes
  split at hnodes
  · exact hsource nodes (Option.some.inj hnodes)
  · exact h other nodes hnodes

/-- Using a partial changes no partial. -/
theorem fetch (h : engine.AllPartials p) (used : String) :
    { engine with
      partials := (PartialStore.fetch engine.dialect used engine.partials).2 }.AllPartials p := by
  intro name nodes hnodes
  refine h name nodes ?_
  rw [← hnodes, definition?, definition?]
  exact (LawfulPartialStore.fetch_fetch engine.dialect used name engine.partials).symm

end AllPartials

end Engine

end Stencil
