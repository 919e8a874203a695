import Mathlib.Data.List.Chain
import Stencil.Template.Parse

/-!
# Nothing of a template is lost

The tokens of a text, and the nodes of a template, spell it out again. Tags stand where their spans
say, one behind the other, and stretches of text are as long as they can be: none is empty and no
two of them meet.

## Main definitions

* `Node.Placed`: nodes whose tags have the spans that follow from the sources before them.
* `Template.Lossless`: what the nodes of a template owe to it.
-/

namespace Stencil

/-! ## Tags -/

namespace Tag

theorem source_isPrefix_of_read? {dialect : Dialect} {s : List Char} {tag : Tag}
    (h : read? dialect s = some tag) (hs : dialect.delimiters.opening.toList <+: s) :
    tag.source <+: s := by
  obtain ⟨t, rfl⟩ := hs
  simp only [read?, List.drop_left, Option.bind_eq_some_iff, Option.or_eq_some_iff] at h
  obtain ⟨⟨inner, rest⟩, hcut, h | ⟨-, h⟩⟩ := h
  · simp only [blockComment?] at h
    split at h
    · next hp =>
      obtain ⟨u, hu⟩ := List.isPrefixOf_iff_prefix.1 hp
      obtain ⟨⟨content, after⟩, hfind, rfl⟩ := Option.map_eq_some_iff.1 h
      rw [← hu, List.drop_left] at hfind
      exact ⟨after, by simp [← hu, ← Delimiter.append_of_find? hfind]⟩
    · contradiction
  · obtain ⟨kind, -, h⟩ := List.exists_of_findSome?_eq_some h
    rw [ofKind?] at h
    split at h
    · next hp =>
      obtain ⟨u, rfl⟩ := List.isPrefixOf_iff_prefix.1 hp.2
      obtain rfl := Option.some.inj h
      exact ⟨u, by simp [← Delimiter.append_of_findUnescaped? hcut]⟩
    · contradiction

end Tag

/-! ## Tokens -/

namespace Token

/-- Whether the token is a stretch of text. -/
def isText : Token → Bool
  | text _ => true
  | tag _ => false

theorem flatMap_source_ofPlain (s : List Char) : (ofPlain s).flatMap source = s := by
  unfold ofPlain
  split <;> simp_all [source]

theorem flatMap_source_ofTextAfter (dialect : Dialect) (previous : Option Char) (s : List Char) :
    (ofTextAfter dialect previous s).flatMap source = s := by
  fun_induction ofTextAfter dialect previous s with
  | case1 previous s _ => exact flatMap_source_ofPlain s
  | case2 previous s _ _ _ _ => exact flatMap_source_ofPlain s
  | case3 previous s before rest h t hr ih =>
    obtain ⟨u, hu⟩ := Tag.source_isPrefix_of_read? hr (Delimiter.isPrefix_of_findUnescaped? h)
    have hs := Delimiter.append_of_findUnescaped? h
    rw [List.flatMap_append, List.flatMap_cons, flatMap_source_ofPlain, ih, ← hs, ← hu]
    simp [source]

theorem source_ne_nil_of_mem_ofPlain {s : List Char} {token : Token} (h : token ∈ ofPlain s) :
    token.source ≠ [] := by
  unfold ofPlain at h
  split at h <;> simp_all [source]

theorem source_ne_nil_of_mem_ofTextAfter {dialect : Dialect} {previous : Option Char}
    {s : List Char} {token : Token} (h : token ∈ ofTextAfter dialect previous s) :
    token.source ≠ [] := by
  fun_induction ofTextAfter dialect previous s with
  | case1 => exact source_ne_nil_of_mem_ofPlain h
  | case2 => exact source_ne_nil_of_mem_ofPlain h
  | case3 previous s before rest hcut t hr ih =>
    rcases List.mem_append.1 h with h | h
    · exact source_ne_nil_of_mem_ofPlain h
    · rcases List.mem_cons.1 h with rfl | h
      · exact Tag.source_ne_nil_of_read? hr (Delimiter.ne_nil_of_findUnescaped? hcut)
      · exact ih h

/-- After a stretch of text comes a tag. -/
theorem isChain_ofTextAfter (dialect : Dialect) (previous : Option Char) (s : List Char) :
    (ofTextAfter dialect previous s).IsChain fun a b => ¬ (a.isText ∧ b.isText) := by
  fun_induction ofTextAfter dialect previous s with
  | case1 => unfold ofPlain; split <;> simp
  | case2 => unfold ofPlain; split <;> simp
  | case3 previous s before rest hcut t hr ih =>
    have htag : (tag t :: ofTextAfter dialect t.source.getLast?
        (rest.drop t.source.length)).IsChain fun a b => ¬ (a.isText ∧ b.isText) := by
      rw [List.isChain_cons]
      exact ⟨fun b _ => by simp [isText], ih⟩
    unfold ofPlain
    split
    · exact htag
    · rw [List.singleton_append, List.isChain_cons_cons]
      exact ⟨by simp [isText], htag⟩

end Token

/-! ## Nodes -/

theorem Position.offset_after (position : Position) (s : List Char) :
    (position.after s).offset = position.offset + (String.ofList s).utf8ByteSize := by
  induction s generalizing position with
  | nil => simp [after]
  | cons c s ih =>
    have hnext : (position.next c).offset = position.offset + c.utf8Size := by
      unfold next
      split <;> rfl
    rw [after_cons, ih, hnext, String.ofList_cons, String.utf8ByteSize_append,
      String.utf8ByteSize_singleton]
    omega

namespace Node

/-- Whether the node is a stretch of text. -/
def isText : Node → Bool
  | text _ => true
  | _ => false

/-- The source texts of nodes, one after the other. -/
def sources (nodes : List Node) : String :=
  String.join (nodes.map source)

@[simp] theorem sources_nil : sources [] = "" := String.join_nil

@[simp] theorem sources_cons (node : Node) (rest : List Node) :
    sources (node :: rest) = node.source ++ sources rest := String.join_cons

@[simp] theorem sources_append (first second : List Node) :
    sources (first ++ second) = sources first ++ sources second := by
  simp [sources, String.join_append]

/-- Nodes from an offset on, where the span of each tag is what the sources before it and its own
source take up. -/
def Placed : Nat → List Node → Prop
  | _, [] => True
  | offset, node :: rest =>
    (∀ span ∈ node.span?, span = ⟨offset, offset + node.source.utf8ByteSize⟩) ∧
      Placed (offset + node.source.utf8ByteSize) rest

theorem placed_append {offset : Nat} {first second : List Node} :
    Placed offset (first ++ second) ↔
      Placed offset first ∧ Placed (offset + (sources first).utf8ByteSize) second := by
  induction first generalizing offset with
  | nil => simp [Placed]
  | cons node rest ih => simp [Placed, ih, and_assoc, Nat.add_assoc]

/-- A tag starts where the sources before it end. -/
theorem Placed.span_eq {offset : Nat} {before after : List Node} {node : Node} {span : Span}
    (h : Placed offset (before ++ node :: after)) (hspan : node.span? = some span) :
    span.start = offset + (sources before).utf8ByteSize ∧
      span.stop = span.start + node.source.utf8ByteSize := by
  obtain ⟨-, hnode, -⟩ := placed_append.1 h
  obtain rfl := hnode span hspan
  exact ⟨rfl, rfl⟩

theorem Placed.le_start {offset : Nat} {nodes : List Node} {span : Span}
    (h : Placed offset nodes) (hspan : span ∈ nodes.filterMap span?) : offset ≤ span.start := by
  obtain ⟨node, hmem, hnode⟩ := List.mem_filterMap.1 hspan
  obtain ⟨before, after, rfl⟩ := List.append_of_mem hmem
  have := (h.span_eq hnode).1
  omega

/-- No tag starts before the tags in front of it have ended. -/
theorem Placed.pairwise_span {offset : Nat} {nodes : List Node} (h : Placed offset nodes) :
    (nodes.filterMap span?).Pairwise fun a b => a.stop ≤ b.start := by
  induction nodes generalizing offset with
  | nil => simp
  | cons node rest ih =>
    obtain ⟨hnode, hrest⟩ := h
    cases hspan : node.span? with
    | none => simpa [List.filterMap_cons, hspan] using ih hrest
    | some span =>
      obtain rfl := hnode span hspan
      rw [List.filterMap_cons_some hspan, List.pairwise_cons]
      exact ⟨fun b hb => hrest.le_start hb, ih hrest⟩

end Node

namespace Template

/-- What the nodes of a template owe to it. -/
structure Lossless (template : String) (nodes : List Node) : Prop where
  /-- The sources of the nodes spell out the template. -/
  sources_eq : Node.sources nodes = template
  /-- The span of a tag is the range of bytes between the sources before it and those after it. -/
  span_eq : ∀ before node after span, nodes = before ++ node :: after → node.span? = some span →
    span.start = (Node.sources before).utf8ByteSize ∧
      span.stop = (Node.sources (before ++ [node])).utf8ByteSize ∧
      template.toUTF8.extract span.start span.stop = node.source.toUTF8
  /-- No tag is empty. -/
  span_not_isEmpty : ∀ span ∈ nodes.filterMap Node.span?, span.isEmpty = false
  /-- Tags follow each other without overlap. -/
  spans_pairwise : (nodes.filterMap Node.span?).Pairwise fun a b =>
    a.start < b.start ∧ a.stop ≤ b.start
  /-- No stretch of text is empty. -/
  text_ne : ∀ s, Node.text s ∈ nodes → s ≠ ""
  /-- No stretch of text meets another one. -/
  isChain : nodes.IsChain fun a b => ¬ (a.isText ∧ b.isText)

/-- The node of a tag keeps its source and notes where it stands. -/
theorem source_of_nodeOf {position : Position} {opened opened' : Opened} {tag : Tag} {node : Node}
    (h : nodeOf position opened tag = .ok (node, opened')) :
    node.source = String.ofList tag.source ∧
      node.span? = some ⟨position.offset, (position.after tag.source).offset⟩ := by
  cases hkind : tag.kind with
  | close =>
    simp only [nodeOf, hkind] at h
    split at h
    · obtain ⟨rfl, -⟩ := Prod.mk.inj (Except.ok.inj h)
      exact ⟨rfl, rfl⟩
    · contradiction
  | raw | helper | inclusion | comment | interpolation =>
    simp only [nodeOf, hkind] at h
    obtain ⟨rfl, -⟩ := Prod.mk.inj (Except.ok.inj h)
    exact ⟨rfl, rfl⟩

/-- Nodes keep the kinds and sources of the tokens they were read from. -/
theorem map_of_nodesOf {position : Position} {opened : Opened} {tokens : List Token}
    {nodes : List Node} (h : nodesOf position opened tokens = .ok nodes) :
    nodes.map Node.isText = tokens.map Token.isText ∧
      nodes.map Node.source = tokens.map fun token => String.ofList token.source := by
  induction tokens generalizing position opened nodes with
  | nil =>
    obtain rfl := Except.ok.inj h
    exact ⟨rfl, rfl⟩
  | cons token rest ih =>
    cases token with
    | text s =>
      obtain ⟨tail, htail, rfl⟩ := nodesOf_text_eq_ok_iff.1 h
      obtain ⟨htext, hsource⟩ := ih htail
      simp [htext, hsource, Node.isText, Token.isText, Node.source, Token.source]
    | tag t =>
      obtain ⟨node, opened', tail, hnode, htail, rfl⟩ := nodesOf_tag_eq_ok_iff.1 h
      obtain ⟨htext, hsource⟩ := ih htail
      obtain ⟨hs, hspan⟩ := source_of_nodeOf hnode
      have : node.isText = false := by cases node <;> simp_all [Node.isText, Node.span?]
      simp [htext, hsource, hs, this, Token.isText, Token.source]

/-- Each step of reading leaves the position behind the source of the node, so that spans add
up. -/
theorem placed_of_nodesOf {position : Position} {opened : Opened} {tokens : List Token}
    {nodes : List Node} (h : nodesOf position opened tokens = .ok nodes) :
    Node.Placed position.offset nodes := by
  induction tokens generalizing position opened nodes with
  | nil =>
    obtain rfl := Except.ok.inj h
    trivial
  | cons token rest ih =>
    cases token with
    | text s =>
      obtain ⟨tail, htail, rfl⟩ := nodesOf_text_eq_ok_iff.1 h
      have := ih htail
      rw [Position.offset_after] at this
      exact ⟨by simp [Node.span?], this⟩
    | tag t =>
      obtain ⟨node, opened', tail, hnode, htail, rfl⟩ := nodesOf_tag_eq_ok_iff.1 h
      obtain ⟨hsource, hspan⟩ := source_of_nodeOf hnode
      have := ih htail
      rw [Position.offset_after, ← hsource] at this
      refine ⟨fun span hmem => ?_, this⟩
      rw [hspan, Position.offset_after, ← hsource] at hmem
      exact (Option.some.inj hmem).symm

theorem sources_of_parse {dialect : Dialect} {template : String} {nodes : List Node}
    (h : parse dialect template = .ok nodes) : Node.sources nodes = template := by
  have hflat := Token.flatMap_source_ofTextAfter dialect none template.toList
  rw [← String.toList_inj, Node.sources, (map_of_nodesOf h).2, String.toList_join, List.flatMap_map]
  simpa [Token.ofText] using hflat

theorem source_ne_of_parse {dialect : Dialect} {template : String} {nodes : List Node}
    (h : parse dialect template = .ok nodes) {node : Node} (hnode : node ∈ nodes) :
    node.source ≠ "" := by
  have hmem : node.source ∈ nodes.map Node.source := List.mem_map_of_mem hnode
  rw [(map_of_nodesOf h).2] at hmem
  obtain ⟨token, htoken, hsource⟩ := List.mem_map.1 hmem
  rw [← hsource, ne_eq, String.ofList_eq_empty_iff]
  exact Token.source_ne_nil_of_mem_ofTextAfter htoken

/-- Parsing is lossless: the nodes spell out the template, every tag stands where its span says, and
no stretch of text is empty or cut in two. -/
theorem lossless_of_parse {dialect : Dialect} {template : String} {nodes : List Node}
    (h : parse dialect template = .ok nodes) : Lossless template nodes := by
  have hsources := sources_of_parse h
  have hplaced : Node.Placed 0 nodes := placed_of_nodesOf h
  have hspan : ∀ before node after span, nodes = before ++ node :: after →
      node.span? = some span → span.start = (Node.sources before).utf8ByteSize ∧
        span.stop = span.start + node.source.utf8ByteSize := by
    rintro before node after span rfl hnode
    simpa using hplaced.span_eq hnode
  have hlength : ∀ span ∈ nodes.filterMap Node.span?, span.start < span.stop := by
    intro span hmem
    obtain ⟨node, hnode, hs⟩ := List.mem_filterMap.1 hmem
    obtain ⟨before, after, hsplit⟩ := List.append_of_mem hnode
    have hpos : node.source.utf8ByteSize ≠ 0 := by
      simpa using source_ne_of_parse h hnode
    have := (hspan _ _ _ _ hsplit hs).2
    omega
  constructor
  case sources_eq => exact hsources
  case span_eq =>
    intro before node after span hsplit hnode
    obtain ⟨hstart, hstop⟩ := hspan before node after span hsplit hnode
    refine ⟨hstart, by simp [hstop, hstart], ?_⟩
    have hbytes : template.toUTF8 = (Node.sources before).toUTF8 ++
        (node.source.toUTF8 ++ (Node.sources after).toUTF8) := by
      simp [← hsources, hsplit]
    rw [hbytes, hstop, hstart]
    exact (ByteArray.extract_append_size_add (i := 0)).trans (ByteArray.extract_append_eq_left rfl)
  case span_not_isEmpty =>
    intro span hmem
    have := hlength span hmem
    simp only [Span.isEmpty, Span.length, beq_eq_false_iff_ne]
    omega
  case spans_pairwise =>
    refine List.Pairwise.imp_of_mem (fun ha _ hab => ?_) hplaced.pairwise_span
    have := hlength _ ha
    exact ⟨by omega, hab⟩
  case text_ne => exact fun s hs => source_ne_of_parse h hs
  case isChain =>
    have hchain := Token.isChain_ofTextAfter dialect none template.toList
    rw [← List.isChain_map (R := fun a b : Bool => ¬ (a ∧ b))] at hchain ⊢
    rw [(map_of_nodesOf h).1]
    exact hchain

/-- A block around a comment that holds a closing delimiter, between a letter of two bytes and an
escaped delimiter. -/
theorem lossless_of_parse_mixed :
    let template := "é<#if a><!-- > --></if>\\<x"
    let nodes : List Node := [.text "é", .helper "if" "<#if a>" ⟨2, 9⟩ 0 (some "a"),
      .comment ">" "<!-- > -->" ⟨9, 19⟩, .close "if" "</if>" ⟨19, 24⟩ 0, .text "\\<x"]
    parse { delimiters := ⟨"<", ">"⟩ } template = .ok nodes ∧ Lossless template nodes := by
  intro template nodes
  have h : parse { delimiters := ⟨"<", ">"⟩ } template = .ok nodes := by decide +kernel
  exact ⟨h, lossless_of_parse h⟩

end Template

end Stencil
