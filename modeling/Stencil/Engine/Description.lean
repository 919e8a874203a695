import Stencil.Engine.Basic
import Stencil.Text.Printable

/-!
# Descriptions of engines

An engine is described in one line by its dialect and the names of its helpers and partials in
order of code points. Strings and characters are quoted, and characters that cannot be shown are
written by their code points.

## Main definitions

* `Engine.description`: the line.
-/

namespace Stencil

namespace Description

/-- A character of a quoted text, where the quote `quote` must not appear as itself. -/
def quotedChar (quote c : Char) : List Char :=
  if c == quote || c == '\\' then ['\\', c]
  else if c == '\x00' then ['\\', '0']
  else if c == '\t' then ['\\', 't']
  else if c == '\n' then ['\\', 'n']
  else if c == '\x0d' then ['\\', 'r']
  else if Text.isPrintable c then [c]
  else "\\u\x7b".toList ++ Nat.toDigits 16 c.toNat ++ ['\x7d']

def string (s : String) : String :=
  "\"" ++ String.ofList (s.toList.flatMap (quotedChar '"')) ++ "\""

def char (c : Char) : String :=
  "'" ++ String.ofList (quotedChar '\'' c) ++ "'"

def list (items : List String) : String :=
  "[" ++ ", ".intercalate items ++ "]"

/-- A record with the descriptions of its fields. -/
def record (name : String) (fields : List (String × String)) : String :=
  name ++ " \x7b " ++ ", ".intercalate (fields.map fun field => field.1 ++ ": " ++ field.2) ++ " \x7d"

def bool (b : Bool) : String :=
  if b then "true" else "false"

def brackets (b : Brackets) : String :=
  "(" ++ string b.opening ++ ", " ++ string b.closing ++ ")"

def dialect (d : Dialect) : String :=
  record "Syntax" [
    ("escape", char d.escape),
    ("delimiters", brackets d.delimiters),
    ("raw", brackets d.raw),
    ("helper", brackets d.helper),
    ("partial", brackets d.inclusion),
    ("close", brackets d.close),
    ("comment", brackets d.comment),
    ("block_comment", brackets d.blockComment),
    ("strict", bool d.strict)]

/-- Names in order of code points. -/
def names (entries : List String) : String :=
  list ((entries.mergeSort fun a b => a ≤ b).map string)

end Description

def Engine.description {σ : Type} [PartialStore σ] (engine : Engine σ) : String :=
  Description.record "Engine" [
    ("syntax", Description.dialect engine.dialect),
    ("helpers", Description.names (Table.keys engine.helpers)),
    ("partials", Description.names (PartialStore.names engine.partials)),
    ("on_diagnostic", Description.bool engine.receiver.isSome)]

end Stencil
