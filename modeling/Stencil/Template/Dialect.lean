/-!
# Dialects

A dialect fixes how tags are written. Every tag stands between the delimiters of the dialect, and
each kind of tag adds an opening text of its own after the opening delimiter and a closing text
before the closing one. In the standard dialect a block opens with two braces and a number sign,
and a raw interpolation stands between three braces.

## Main definitions

* `Dialect`: delimiters, the texts of each kind of tag, the escape character, strictness.
* `Dialect.wrap`: the whole opening and closing text of a kind of tag.
-/

namespace Stencil

/-- An opening and a closing text. -/
structure Brackets where
  opening : String
  closing : String
deriving DecidableEq, Repr

/-- How tags are written, and whether a missing value is an error. -/
structure Dialect where
  /-- A delimiter directly after this character is plain text. -/
  escape : Char := '\\'
  delimiters : Brackets := ⟨"\x7b\x7b", "\x7d\x7d"⟩
  raw : Brackets := ⟨"\x7b", "\x7d"⟩
  helper : Brackets := ⟨"#", ""⟩
  inclusion : Brackets := ⟨">", ""⟩
  close : Brackets := ⟨"/", ""⟩
  comment : Brackets := ⟨"!", ""⟩
  /-- A block comment may contain closing delimiters. -/
  blockComment : Brackets := ⟨"!--", "--"⟩
  /-- Whether an interpolation that addresses nothing fails instead of rendering nothing. -/
  strict : Bool := false
deriving DecidableEq, Repr

namespace Dialect

/-- The dialect of a new engine. -/
def standard : Dialect := {}

instance : Inhabited Dialect := ⟨standard⟩

/-- The whole opening and closing text of tags of a kind. -/
def wrap (dialect : Dialect) (kind : Brackets) : Brackets :=
  ⟨dialect.delimiters.opening ++ kind.opening, kind.closing ++ dialect.delimiters.closing⟩

end Dialect

end Stencil
