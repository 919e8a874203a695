import Stencil.Template.Dialect
import Stencil.Wire.Basic

/-!
# Dialects as values

The texts of a kind of tag are an array of two strings and the escape character is a string of one
character. Fields that are missing take the values of the standard dialect.
-/

namespace Stencil

namespace Brackets

def toValue (brackets : Brackets) : Value :=
  .array [.string brackets.opening, .string brackets.closing]

def ofValue? (v : Value) : Option Brackets :=
  match v with
  | .array [.string opening, .string closing] => some ⟨opening, closing⟩
  | _ => none

end Brackets

namespace Dialect

/-- The character that a string of one character is. -/
def char? (v : Value) : Option Char :=
  match v with
  | .string s =>
    match s.toList with
    | [c] => some c
    | _ => none
  | _ => none

def toValue (dialect : Dialect) : Value :=
  .object [
    ("escape", .string (String.ofList [dialect.escape])),
    ("delimiters", dialect.delimiters.toValue),
    ("raw", dialect.raw.toValue),
    ("helper", dialect.helper.toValue),
    ("partial", dialect.inclusion.toValue),
    ("close", dialect.close.toValue),
    ("comment", dialect.comment.toValue),
    ("block_comment", dialect.blockComment.toValue),
    ("strict", .bool dialect.strict)]

def ofValue? (v : Value) : Option Dialect := do
  let fields ← Wire.fields? v
  let brackets? (name : String) (default : Brackets) :=
    Wire.fieldD? fields name Brackets.ofValue? default
  return {
    escape := ← Wire.fieldD? fields "escape" char? standard.escape
    delimiters := ← brackets? "delimiters" standard.delimiters
    raw := ← brackets? "raw" standard.raw
    helper := ← brackets? "helper" standard.helper
    inclusion := ← brackets? "partial" standard.inclusion
    close := ← brackets? "close" standard.close
    comment := ← brackets? "comment" standard.comment
    blockComment := ← brackets? "block_comment" standard.blockComment
    strict := ← Wire.fieldD? fields "strict" Wire.bool? standard.strict }

end Dialect

end Stencil
