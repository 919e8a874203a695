import Stencil.Template.Key
import Stencil.Template.Node
import Stencil.Template.ParseError
import Stencil.Template.Position
import Stencil.Template.Token

/-!
# Parsing

Parsing reads the keys of the tags of a template and numbers its blocks. The depth of a block is
the number of blocks with the same key that are open where it starts, and a close ends the block
of its key that was opened last.

## Main definitions

* `Template.Opened`: the keys of the open blocks.
* `Template.nodeOf`: the node of a tag.
* `Template.parse`: the nodes of a template.
-/

namespace Stencil

namespace Template

/-- The keys of the blocks that are open, the last one first. -/
abbrev Opened := List String

/-- The node of a tag that stands at a position, and the blocks that are open after it. -/
def nodeOf (position : Position) (opened : Opened) (tag : Tag) :
    Except ParseError (Node × Opened) :=
  let source := String.ofList tag.source
  let span : Span := ⟨position.offset, (position.after tag.source).offset⟩
  let trimmed := String.ofList (Text.trim tag.content)
  match tag.kind with
  | .raw => .ok (.raw trimmed source span, opened)
  | .comment => .ok (.comment trimmed source span, opened)
  | .interpolation =>
    let (key, rest) := Key.splitPath tag.content
    .ok (.interpolation (String.ofList key) source span (Key.arguments? rest), opened)
  | .helper =>
    let (key, rest) := Key.splitBlock tag.content
    let key := String.ofList key
    .ok (.helper key source span (opened.count key) (Key.arguments? rest), key :: opened)
  | .inclusion =>
    let (key, rest) := Key.splitBlock tag.content
    let key := String.ofList key
    .ok (.inclusion key source span (opened.count key) (Key.arguments? rest), key :: opened)
  | .close =>
    if trimmed ∈ opened then
      let opened := opened.erase trimmed
      .ok (.close trimmed source span (opened.count trimmed), opened)
    else .error ⟨position.line, position.column, .unexpectedClose source⟩

/-- The nodes of tokens that follow a position, with the blocks that are open there. -/
def nodesOf (position : Position) (opened : Opened) : List Token → Except ParseError (List Node)
  | [] => .ok []
  | .text s :: rest => do
    let nodes ← nodesOf (position.after s) opened rest
    return .text (String.ofList s) :: nodes
  | .tag t :: rest => do
    let (node, opened) ← nodeOf position opened t
    let nodes ← nodesOf (position.after t.source) opened rest
    return node :: nodes

theorem nodesOf_text_eq_ok_iff {position : Position} {opened : Opened} {s : List Char}
    {rest : List Token} {nodes : List Node} :
    nodesOf position opened (.text s :: rest) = .ok nodes ↔
      ∃ tail, nodesOf (position.after s) opened rest = .ok tail ∧
        nodes = .text (String.ofList s) :: tail := by
  rw [nodesOf]
  cases nodesOf (position.after s) opened rest <;>
    simp [bind, Except.bind, pure, Except.pure, eq_comm]

theorem nodesOf_tag_eq_ok_iff {position : Position} {opened : Opened} {tag : Tag}
    {rest : List Token} {nodes : List Node} :
    nodesOf position opened (.tag tag :: rest) = .ok nodes ↔
      ∃ node opened' tail, nodeOf position opened tag = .ok (node, opened') ∧
        nodesOf (position.after tag.source) opened' rest = .ok tail ∧ nodes = node :: tail := by
  rw [nodesOf]
  cases nodeOf position opened tag with
  | error e => simp [bind, Except.bind]
  | ok result =>
    obtain ⟨node, opened'⟩ := result
    simp only [bind, Except.bind, pure, Except.pure, Except.ok.injEq, Prod.mk.injEq]
    constructor
    · intro h
      cases hrest : nodesOf (position.after tag.source) opened' rest with
      | error e => simp [hrest] at h
      | ok tail => exact ⟨node, opened', tail, ⟨rfl, rfl⟩, hrest, by simp_all⟩
    · rintro ⟨_, _, tail, ⟨rfl, rfl⟩, hrest, rfl⟩
      simp [hrest]

theorem nodesOf_text_eq_error_iff {position : Position} {opened : Opened} {s : List Char}
    {rest : List Token} {error : ParseError} :
    nodesOf position opened (.text s :: rest) = .error error ↔
      nodesOf (position.after s) opened rest = .error error := by
  rw [nodesOf]
  cases nodesOf (position.after s) opened rest <;>
    simp [bind, Except.bind, pure, Except.pure]

theorem nodesOf_tag_eq_error_iff {position : Position} {opened : Opened} {tag : Tag}
    {rest : List Token} {error : ParseError} :
    nodesOf position opened (.tag tag :: rest) = .error error ↔
      nodeOf position opened tag = .error error ∨
        ∃ node opened', nodeOf position opened tag = .ok (node, opened') ∧
          nodesOf (position.after tag.source) opened' rest = .error error := by
  rw [nodesOf]
  cases nodeOf position opened tag with
  | error e => simp [bind, Except.bind]
  | ok result =>
    obtain ⟨node, opened'⟩ := result
    simp only [bind, Except.bind, pure, Except.pure, Except.ok.injEq, Prod.mk.injEq, reduceCtorEq,
      false_or]
    constructor
    · intro h
      cases hrest : nodesOf (position.after tag.source) opened' rest with
      | error e => exact ⟨node, opened', ⟨rfl, rfl⟩, by simpa [hrest] using h⟩
      | ok tail => simp [hrest] at h
    · rintro ⟨_, _, ⟨rfl, rfl⟩, hrest⟩
      simp [hrest]

/-- The nodes of a template. -/
def parse (dialect : Dialect) (template : String) : Except ParseError (List Node) :=
  nodesOf {} [] (Token.ofText dialect template.toList)

end Template

end Stencil
