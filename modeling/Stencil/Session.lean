import Stencil.Engine.Description

/-!
# Sessions

A session keeps one engine and one context over a sequence of operations. Executions change the
context of the session unless they are given data of their own.

## Main definitions

* `Operation`: what a session can be asked to do.
* `Reply`: what it answers.
* `Session.perform`, `Session.run`: one operation, and a list of them.
-/

namespace Stencil

/-- A template to execute: its text or its nodes. -/
abbrev TemplateSource := PartialSource

/-- What a session can be asked to do. Data that is given replaces the context for that operation. -/
inductive Operation where
  | parse (template : String)
  | render (template : String) (data : Option Value)
  | renderPartial (name : String) (data : Option Value)
  /-- Parses a template once and renders it on several data. -/
  | compile (template : String) (datas : List Value)
  | execute (template : TemplateSource) (data : Option Value)
  | setContext (data : Value)
  | registerPartials (entries : List (String × PartialSource))
  | registerHelper (name : String) (helper : Helper)
  | setReceiver (label : String)
  | dialect
  | describe

/-- A result of an operation. -/
inductive Answer where
  | nothing
  | text (text : String)
  | nodes (nodes : List Node)
  /-- The nodes of a compiled template and the result of each rendering. -/
  | compiled (nodes : List Node) (results : List (Except RenderError String))
  | dialect (dialect : Dialect)

/-- What a session answers: a result, the context after an execution, and the diagnostics with
those who receive them. -/
structure Reply where
  result : Except RenderError Answer
  context : Option Value
  diagnostics : List (String × Diagnostic)

/-- An engine and the current context. -/
structure Session (σ : Type) where
  engine : Engine σ
  context : Value

namespace Session

variable {σ : Type} [PartialStore σ]

/-- The answer to an operation that renders nothing. -/
def reply (result : Except RenderError Answer) : Reply :=
  ⟨result, none, []⟩

/-- The session after an execution on data of its own, and the answer. -/
def answerRendering (session : Session σ) (outcome : Outcome σ) : Reply × Session σ :=
  (⟨outcome.result.map .text, none, session.engine.delivered outcome.diagnostics⟩,
    { session with engine := session.engine.after outcome })

/-- The session after an execution, and the answer. The context is kept if `keepsContext`. -/
def answerExecution (session : Session σ) (keepsContext : Bool) (outcome : Outcome σ) :
    Reply × Session σ :=
  (⟨outcome.result.map .text, some outcome.context,
      session.engine.delivered outcome.diagnostics⟩,
    ⟨session.engine.after outcome, if keepsContext then session.context else outcome.context⟩)

/-- Renders nodes on each of several data, one after the other. -/
def renderEach (limit : Nat) (nodes : List Node) :
    List Value → Engine σ → Option (List (Except RenderError String) × List Diagnostic × Engine σ)
  | [], engine => some ([], [], engine)
  | data :: rest, engine => do
    let outcome ← engine.renderNodes limit nodes data
    let (results, diagnostics, engine) ← renderEach limit nodes rest (engine.after outcome)
    return (outcome.result :: results, outcome.diagnostics ++ diagnostics, engine)

/-- Performs one operation within a limit of levels of execution. -/
def perform (limit : Nat) (session : Session σ) : Operation → Option (Reply × Session σ)
  | .parse template =>
    some (reply ((session.engine.parse template).map .nodes |>.mapError .parse), session)
  | .render template data =>
    (session.engine.render limit template (data.getD session.context)).map session.answerRendering
  | .renderPartial name data =>
    (session.engine.renderPartial limit name (data.getD session.context)).map
      session.answerRendering
  | .compile template datas =>
    match session.engine.parse template with
    | .error e => some (reply (.error (.parse e)), session)
    | .ok nodes =>
      (renderEach limit nodes datas session.engine).map fun (results, diagnostics, engine) =>
        (⟨.ok (.compiled nodes results), none, engine.delivered diagnostics⟩,
          { session with engine })
  | .execute template data =>
    match template.parse session.engine.dialect with
    | .error e => some (reply (.error (.parse e)), session)
    | .ok nodes =>
      (session.engine.execute limit nodes (data.getD session.context)).map
        (session.answerExecution data.isSome)
  | .setContext data => some (reply (.ok .nothing), { session with context := data })
  | .registerPartials entries =>
    some (reply (.ok .nothing), { session with engine := session.engine.registerPartials entries })
  | .registerHelper name helper =>
    some (reply (.ok .nothing),
      { session with engine := session.engine.registerHelper name helper })
  | .setReceiver label =>
    some (reply (.ok .nothing), { session with engine := session.engine.setReceiver label })
  | .dialect => some (reply (.ok (.dialect session.engine.dialect)), session)
  | .describe => some (reply (.ok (.text session.engine.description)), session)

def run (limit : Nat) : List Operation → Session σ → Option (List Reply × Session σ)
  | [], session => some ([], session)
  | operation :: rest, session => do
    let (reply, session) ← session.perform limit operation
    let (replies, session) ← run limit rest session
    return (reply :: replies, session)

end Session

end Stencil
