import Stencil.Render.Diagnostic
import Stencil.Render.Error
import Stencil.Wire.Node

/-!
# Diagnostics and errors as values

Each is a case of a choice, and the content of a case is an object with its fields, or the one
thing that the case holds.
-/

namespace Stencil

namespace Diagnostic

def toValue (d : Diagnostic) : Value :=
  match d with
  | helperNotFound name span =>
    Wire.choice "HelperNotFound" (.object [("name", .string name), ("span", span.toValue)])
  | partialNotFound name span =>
    Wire.choice "PartialNotFound" (.object [("name", .string name), ("span", span.toValue)])

def ofValue? (v : Value) : Option Diagnostic := do
  let (kind, content) ← Wire.choice? v
  let fields ← Wire.fields? content
  let name? := Wire.field? fields "name" Wire.string?
  let span? := Wire.field? fields "span" Span.ofValue?
  match kind with
  | "HelperNotFound" => return helperNotFound (← name?) (← span?)
  | "PartialNotFound" => return partialNotFound (← name?) (← span?)
  | _ => none

end Diagnostic

namespace ParseErrorKind

def toValue (kind : ParseErrorKind) : Value :=
  match kind with
  | unexpectedClose source => Wire.choice "UnexpectedClose" (.object [("tag", .string source)])
  | message text => Wire.choice "Message" (.string text)

def ofValue? (v : Value) : Option ParseErrorKind := do
  let (kind, content) ← Wire.choice? v
  match kind with
  | "UnexpectedClose" =>
    return unexpectedClose (← Wire.field? (← Wire.fields? content) "tag" Wire.string?)
  | "Message" => return message (← Wire.string? content)
  | _ => none

end ParseErrorKind

namespace ParseError

def toValue (e : ParseError) : Value :=
  .object [("line", Wire.ofNat e.line), ("column", Wire.ofNat e.column), ("kind", e.kind.toValue)]

def ofValue? (v : Value) : Option ParseError := do
  let fields ← Wire.fields? v
  return ⟨← Wire.field? fields "line" Wire.nat?, ← Wire.field? fields "column" Wire.nat?,
    ← Wire.field? fields "kind" ParseErrorKind.ofValue?⟩

end ParseError

namespace RenderError

def toValue (e : RenderError) : Value :=
  match e with
  | parse e => Wire.choice "Parse" e.toValue
  | missingVariable path => Wire.choice "MissingVariable" (.object [("path", .string path)])
  | invalidArguments helper reason node =>
    Wire.choice "InvalidArguments"
      (.object [("helper", .string helper), ("reason", .string reason), ("node", node.toValue)])
  | missingPartial name => Wire.choice "MissingPartial" (.object [("name", .string name)])
  | failed message => Wire.choice "Render" (.object [("message", .string message)])

def ofValue? (v : Value) : Option RenderError := do
  let (kind, content) ← Wire.choice? v
  match kind with
  | "Parse" => return parse (← ParseError.ofValue? content)
  | "MissingVariable" =>
    return missingVariable (← Wire.field? (← Wire.fields? content) "path" Wire.string?)
  | "InvalidArguments" =>
    let fields ← Wire.fields? content
    return invalidArguments (← Wire.field? fields "helper" Wire.string?)
      (← Wire.field? fields "reason" Wire.string?) (← Wire.field? fields "node" Node.ofValue?)
  | "MissingPartial" =>
    return missingPartial (← Wire.field? (← Wire.fields? content) "name" Wire.string?)
  | "Render" => return failed (← Wire.field? (← Wire.fields? content) "message" Wire.string?)
  | _ => none

end RenderError

end Stencil
