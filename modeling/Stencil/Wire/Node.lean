import Stencil.Template.Node
import Stencil.Wire.Basic

/-!
# Nodes as values

A node is written as an object whose field `type` names the kind of node. Fields that a kind does
not know are ignored when a node is read.
-/

namespace Stencil

namespace Span

def toValue (span : Span) : Value :=
  .object [("start", Wire.ofNat span.start), ("end", Wire.ofNat span.stop)]

def ofValue? (v : Value) : Option Span := do
  let fields ← Wire.fields? v
  return ⟨← Wire.field? fields "start" Wire.nat?, ← Wire.field? fields "end" Wire.nat?⟩

end Span

namespace Node

def toValue (node : Node) : Value :=
  match node with
  | text s => .object [("type", .string "text"), ("text", .string s)]
  | interpolation key source span arguments =>
    .object [("type", .string "variable"), ("key", .string key), ("tag", .string source),
      ("span", span.toValue), ("addition", Wire.ofOptional arguments)]
  | raw key source span =>
    .object [("type", .string "raw"), ("key", .string key), ("tag", .string source),
      ("span", span.toValue)]
  | inclusion key source span depth arguments =>
    .object [("type", .string "partial"), ("key", .string key), ("tag", .string source),
      ("span", span.toValue), ("depth", Wire.ofNat depth),
      ("addition", Wire.ofOptional arguments)]
  | helper key source span depth arguments =>
    .object [("type", .string "helper"), ("key", .string key), ("tag", .string source),
      ("span", span.toValue), ("depth", Wire.ofNat depth),
      ("addition", Wire.ofOptional arguments)]
  | close key source span depth =>
    .object [("type", .string "close"), ("key", .string key), ("tag", .string source),
      ("span", span.toValue), ("depth", Wire.ofNat depth)]
  | comment key source span =>
    .object [("type", .string "comment"), ("key", .string key), ("tag", .string source),
      ("span", span.toValue)]

def ofValue? (v : Value) : Option Node := do
  let fields ← Wire.fields? v
  let kind ← Wire.field? fields "type" Wire.string?
  let key? := Wire.field? fields "key" Wire.string?
  let source? := Wire.field? fields "tag" Wire.string?
  let span? := Wire.field? fields "span" Span.ofValue?
  let depth? := Wire.field? fields "depth" Wire.nat?
  let arguments? := Wire.fieldD? fields "addition" Wire.optional? none
  match kind with
  | "text" => return text (← Wire.field? fields "text" Wire.string?)
  | "variable" => return interpolation (← key?) (← source?) (← span?) (← arguments?)
  | "raw" => return raw (← key?) (← source?) (← span?)
  | "partial" => return inclusion (← key?) (← source?) (← span?) (← depth?) (← arguments?)
  | "helper" => return helper (← key?) (← source?) (← span?) (← depth?) (← arguments?)
  | "close" => return close (← key?) (← source?) (← span?) (← depth?)
  | "comment" => return comment (← key?) (← source?) (← span?)
  | _ => none

def listToValue (nodes : List Node) : Value :=
  .array (nodes.map toValue)

def listOfValue? (v : Value) : Option (List Node) :=
  Wire.list? ofValue? v

end Node

end Stencil
