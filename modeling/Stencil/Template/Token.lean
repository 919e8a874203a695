import Stencil.Template.Delimiter
import Stencil.Template.Dialect

/-!
# Tokens

The first reading of a template cuts it into stretches of text and tags, without looking at the keys
of tags. It cannot fail: a delimiter that belongs to no tag is text.

A tag starts at an opening delimiter and needs a closing delimiter behind it. Its kind is the first
one, in a fixed order, whose opening text follows the opening delimiter and whose closing text
stands at the closing delimiter. An interpolation has neither text, so some kind always fits. A
block comment is tried before all and looks for its end on its own.

## Main definitions

* `TagKind`, `Tag`, `Token`: what a template is cut into.
* `Tag.read?`: the tag at the start of a text.
* `Token.ofText`: the tokens of a text.
-/

namespace Stencil

/-- The kinds of tags. -/
inductive TagKind where
  | raw
  | helper
  | inclusion
  | close
  | comment
  | interpolation
deriving DecidableEq, Repr

namespace TagKind

/-- The kinds in the order in which they are tried. -/
def order : List TagKind :=
  [raw, helper, inclusion, close, comment, interpolation]

/-- The texts that mark tags of a kind. -/
def brackets (dialect : Dialect) : TagKind → Brackets
  | raw => dialect.raw
  | helper => dialect.helper
  | inclusion => dialect.inclusion
  | close => dialect.close
  | comment => dialect.comment
  | interpolation => ⟨"", ""⟩

end TagKind

/-- A tag: its kind, the text between its brackets, and its whole source text. -/
structure Tag where
  kind : TagKind
  content : List Char
  source : List Char
deriving DecidableEq, Repr

/-- A stretch of text or a tag. -/
inductive Token where
  | text (source : List Char)
  | tag (tag : Tag)
deriving DecidableEq, Repr

namespace Tag

/-- The block comment that `s` starts with. -/
def blockComment? (dialect : Dialect) (s : List Char) : Option Tag :=
  let brackets := dialect.wrap dialect.blockComment
  let opening := brackets.opening.toList
  let closing := brackets.closing.toList
  if opening.isPrefixOf s then
    (Delimiter.find? closing (s.drop opening.length)).map fun (content, _) =>
      ⟨.comment, content, opening ++ content ++ closing⟩
  else none

/-- The tag of one kind with the text `inner` before the first closing delimiter, where `rest` is
the text from that delimiter on. -/
def ofKind? (dialect : Dialect) (inner rest : List Char) (kind : TagKind) : Option Tag :=
  let brackets := kind.brackets dialect
  let opening := brackets.opening.toList
  let closing := brackets.closing.toList ++ dialect.delimiters.closing.toList
  if opening.isPrefixOf inner ∧ closing.isPrefixOf rest then
    some ⟨kind, inner.drop opening.length, dialect.delimiters.opening.toList ++ inner ++ closing⟩
  else none

/-- The tag at the start of `s`, where `s` starts with the opening delimiter. -/
def read? (dialect : Dialect) (s : List Char) : Option Tag :=
  let opening := dialect.delimiters.opening.toList
  let closing := dialect.delimiters.closing.toList
  (Delimiter.findUnescaped? dialect.escape closing opening.getLast? (s.drop opening.length)).bind
    fun (inner, rest) =>
      (blockComment? dialect s).or (TagKind.order.findSome? (ofKind? dialect inner rest))

theorem source_ne_nil_of_blockComment? {dialect : Dialect} {s : List Char} {tag : Tag}
    (h : blockComment? dialect s = some tag) (hd : dialect.delimiters.opening.toList ≠ []) :
    tag.source ≠ [] := by
  rw [blockComment?] at h
  split at h
  · obtain ⟨_, _, rfl⟩ := Option.map_eq_some_iff.1 h
    simp [Dialect.wrap, hd]
  · contradiction

theorem source_ne_nil_of_ofKind? {dialect : Dialect} {inner rest : List Char} {kind : TagKind}
    {tag : Tag} (h : ofKind? dialect inner rest kind = some tag)
    (hd : dialect.delimiters.opening.toList ≠ []) : tag.source ≠ [] := by
  rw [ofKind?] at h
  split at h
  · obtain rfl := Option.some.inj h
    simp [hd]
  · contradiction

/-- A tag is never empty, so that reading a template makes progress. -/
theorem source_ne_nil_of_read? {dialect : Dialect} {s : List Char} {tag : Tag}
    (h : read? dialect s = some tag) (hd : dialect.delimiters.opening.toList ≠ []) :
    tag.source ≠ [] := by
  simp only [read?, Option.bind_eq_some_iff, Option.or_eq_some_iff] at h
  obtain ⟨⟨inner, rest⟩, _, h | ⟨_, h⟩⟩ := h
  · exact source_ne_nil_of_blockComment? h hd
  · obtain ⟨_, _, h⟩ := List.exists_of_findSome?_eq_some h
    exact source_ne_nil_of_ofKind? h hd

end Tag

namespace Token

def source : Token → List Char
  | text s => s
  | tag t => t.source

/-- A stretch of text as tokens: an empty one is none. -/
def ofPlain (s : List Char) : List Token :=
  if s.isEmpty then [] else [text s]

set_option linter.unusedVariables false in
/-- The tokens of `s` after the character `previous`. -/
def ofTextAfter (dialect : Dialect) (previous : Option Char) (s : List Char) : List Token :=
  match h : Delimiter.findUnescaped? dialect.escape dialect.delimiters.opening.toList previous s with
  | none => ofPlain s
  | some (before, rest) =>
    match hr : Tag.read? dialect rest with
    | none => ofPlain s
    | some t =>
      ofPlain before ++
        tag t :: ofTextAfter dialect t.source.getLast? (rest.drop t.source.length)
termination_by s.length
decreasing_by
  have hs := Delimiter.append_of_findUnescaped? h
  have hd := Tag.source_ne_nil_of_read? hr (Delimiter.ne_nil_of_findUnescaped? h)
  have hp := List.length_pos_iff.2 hd
  have hl : rest.length ≠ 0 := by
    intro h0
    have : rest = [] := List.length_eq_zero_iff.1 h0
    subst this
    simp [Tag.read?, Delimiter.findUnescaped?, Delimiter.scan?] at hr
  subst hs
  simp only [List.length_drop, List.length_append]
  omega

variable {dialect : Dialect} {previous : Option Char} {s before rest : List Char}

/-- Without an opening delimiter all is text. -/
theorem ofTextAfter_of_findUnescaped?_eq_none
    (h : Delimiter.findUnescaped? dialect.escape dialect.delimiters.opening.toList previous s =
      none) :
    ofTextAfter dialect previous s = ofPlain s := by
  rw [ofTextAfter]
  split
  · rfl
  · simp_all

/-- An opening delimiter without a closing one is text. -/
theorem ofTextAfter_of_read?_eq_none
    (h : Delimiter.findUnescaped? dialect.escape dialect.delimiters.opening.toList previous s =
      some (before, rest)) (hread : Tag.read? dialect rest = none) :
    ofTextAfter dialect previous s = ofPlain s := by
  rw [ofTextAfter]
  split
  · rfl
  · split
    · rfl
    · simp_all

/-- A tag is cut out of the text around it. -/
theorem ofTextAfter_of_read?_eq_some {t : Tag}
    (h : Delimiter.findUnescaped? dialect.escape dialect.delimiters.opening.toList previous s =
      some (before, rest)) (hread : Tag.read? dialect rest = some t) :
    ofTextAfter dialect previous s =
      ofPlain before ++
        tag t :: ofTextAfter dialect t.source.getLast? (rest.drop t.source.length) := by
  rw [ofTextAfter]
  split
  · simp_all
  · split
    · simp_all
    · simp_all

/-- The tokens of a template. -/
def ofText (dialect : Dialect) (s : List Char) : List Token :=
  ofTextAfter dialect none s

end Token

end Stencil
