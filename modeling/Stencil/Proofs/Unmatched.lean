import Mathlib.Data.List.DropRight
import Stencil.Proofs.Locality
import Stencil.Proofs.Pairing

/-!
# The first close that closes nothing

In the standard dialect a template fails to parse for one reason only: a close tag for which no
block is open. The error names the first such tag and the line and column where it stands. What
stands before it is read as if the template ended there, since no tag is found by looking behind
its own end, and it closes its blocks with the key of the tag as often as it opens them.

## Main definitions

* `Template.PointsAt`: what an error says of a close tag, and what holds of the text before it.

## Main results

* `Token.ofTextAfter_flatMap_source_of_append`: the text before a tag is cut into the same tokens.
* `Template.nodesOf_eq_error`: what is read before the tag that is refused.
-/

namespace Stencil

/-! ## Lines and columns -/

namespace Position

/-- A line ends with each line feed. -/
theorem line_after (position : Position) (s : List Char) :
    (position.after s).line = position.line + s.count '\n' := by
  induction s generalizing position with
  | nil => rfl
  | cons c s ih =>
    rw [after_cons, ih, next]
    by_cases hc : c = '\n'
    · simp [hc, Nat.add_comm, Nat.add_left_comm]
    · simp [hc]

/-- Columns are counted from the last line feed. -/
theorem column_after (s : List Char) :
    (after {} s).column = 1 + (s.rtakeWhile (· ≠ '\n')).length := by
  induction s using List.reverseRecOn with
  | nil => rfl
  | append_singleton s c ih =>
    rw [after_concat, next, List.rtakeWhile_concat]
    by_cases hc : c = '\n'
    · simp [hc]
    · simp [hc, ih, Nat.add_assoc]

end Position

/-! ## Tokens before a tag -/

/-- A close tag of the standard dialect stands between its brackets. -/
theorem Tag.source_of_read?_close {s : List Char} {tag : Tag} (h : read? .standard s = some tag)
    (hkind : tag.kind = .close) : tag.source = ['{', '{', '/'] ++ tag.content ++ ['}', '}'] := by
  simp only [read?, Option.bind_eq_some_iff, Option.or_eq_some_iff] at h
  obtain ⟨⟨inner, rest⟩, -, h | ⟨-, h⟩⟩ := h
  · obtain ⟨body, rfl, -⟩ := exists_eq_blockComment h
    contradiction
  · obtain ⟨kind, -, h⟩ := List.exists_of_findSome?_eq_some h
    rw [ofKind?] at h
    split at h
    · next hfits =>
      obtain rfl := Option.some.inj h
      obtain rfl : kind = .close := hkind
      obtain ⟨content, rfl⟩ := List.isPrefixOf_iff_prefix.1 hfits.1
      rfl
    · contradiction

namespace Token

variable {dialect : Dialect} {previous : Option Char} {s : List Char} {tag : Tag}

theorem tag_not_mem_ofPlain (tag : Tag) (s : List Char) : .tag tag ∉ ofPlain s :=
  fun h => nomatch (eq_of_mem_ofPlain h).1

theorem exists_read?_of_mem (h : .tag tag ∈ ofTextAfter dialect previous s) :
    ∃ rest, Tag.read? dialect rest = some tag := by
  fun_induction ofTextAfter dialect previous s with
  | case1 | case2 => exact absurd h (tag_not_mem_ofPlain tag _)
  | case3 previous s before rest hcut t hread ih =>
    rcases List.mem_append.1 h with hplain | hbehind
    · exact absurd hplain (tag_not_mem_ofPlain tag before)
    · rcases List.mem_cons.1 hbehind with heq | hlater
      · obtain rfl := Token.tag.inj heq
        exact ⟨rest, hread⟩
      · exact ih hlater

/-- Tokens in front of a tag are a stretch of text or go on behind an earlier tag. -/
theorem cases_of_ofPlain_append {t : Tag} {tokens later rest : List Token}
    (h : ofPlain s ++ .tag t :: rest = tokens ++ .tag tag :: later) :
    tokens = ofPlain s ∨ ∃ more, tokens = ofPlain s ++ .tag t :: more ∧
      rest = more ++ .tag tag :: later := by
  rcases List.append_eq_append_iff.1 h with ⟨more, rfl, hmore⟩ | ⟨more, hplain, hmore⟩
  · cases more with
    | nil => exact .inl (List.append_nil _)
    | cons first more =>
      obtain ⟨rfl, hrest⟩ := List.cons.inj hmore
      exact .inr ⟨more, rfl, hrest⟩
  · cases more with
    | nil => exact .inl (by rw [hplain, List.append_nil])
    | cons first more =>
      -- The tag would be a stretch of text.
      obtain ⟨rfl, -⟩ := List.cons.inj hmore
      exact absurd (by simp [hplain]) (tag_not_mem_ofPlain tag s)

/-- The tokens before a tag are those of the text before it. -/
theorem ofTextAfter_flatMap_source_of_append {tokens later : List Token}
    (h : ofTextAfter .standard previous s = tokens ++ .tag tag :: later) :
    ofTextAfter .standard previous (tokens.flatMap source) = tokens := by
  fun_induction ofTextAfter .standard previous s generalizing tokens with
  | case1 | case2 =>
    have hmem : Token.tag tag ∈ tokens ++ .tag tag :: later := by simp
    exact absurd (h ▸ hmem) (tag_not_mem_ofPlain tag _)
  | case3 previous s before rest hcut t hread ih =>
    rcases cases_of_ofPlain_append h with rfl | ⟨more, rfl, hmore⟩
    · rw [flatMap_source_ofPlain, ofTextAfter_of_findUnescaped? hcut]
    · have hopening := Delimiter.isPrefix_of_findUnescaped? hcut
      obtain ⟨behind, hbehind⟩ := Tag.source_isPrefix_of_read? hread hopening
      have hsources := flatMap_source_ofTextAfter .standard t.source.getLast?
        (rest.drop t.source.length)
      rw [hmore, List.flatMap_append, ← hbehind, List.drop_left] at hsources
      -- The earlier tag is found and read alike in front of less text.
      have hrest : t.source ++ more.flatMap source <+: rest := by
        rw [← hbehind, ← hsources, List.prefix_append_right_inj]
        exact List.prefix_append _ _
      have hread' := Tag.read?_of_isPrefix hopening hread (List.prefix_append _ _) hrest
      have hopening' : Dialect.standard.delimiters.opening.toList <+:
          t.source ++ more.flatMap source := by
        obtain ⟨middle, hsource⟩ := Tag.exists_source_eq_of_read? hread
        rw [hsource, List.append_assoc, List.append_assoc]
        exact List.prefix_append _ _
      have hcut' := Delimiter.findUnescaped?_append hcut hopening'
      rw [List.flatMap_append, flatMap_source_ofPlain, List.flatMap_cons, source,
        ofTextAfter_of_read?_eq_some hcut' hread', List.drop_left, ih hmore]

end Token

namespace Template

variable {position : Position} {opened opened' : Opened} {tag : Tag} {node : Node}
  {error : ParseError}

/-- Only a close tag without an open block is refused. -/
theorem nodeOf_eq_error (h : nodeOf position opened tag = .error error) :
    tag.kind = .close ∧ String.ofList (Text.trim tag.content) ∉ opened ∧
      error = ⟨position.line, position.column, .unexpectedClose (String.ofList tag.source)⟩ := by
  cases hkind : tag.kind with
  | close =>
    simp only [nodeOf, hkind] at h
    split at h
    · contradiction
    · next hnot => exact ⟨rfl, hnot, (Except.error.inj h).symm⟩
  | raw | helper | inclusion | comment | interpolation =>
    simp only [nodeOf, hkind] at h
    contradiction

/-- An open block is one that was opened more often than closed. -/
theorem count_of_nodeOf (h : nodeOf position opened tag = .ok (node, opened')) (key : String) :
    opened'.count key + (if node.ends key then 1 else 0) =
      opened.count key + if node.opens key then 1 else 0 := by
  obtain ⟨-, hends, hstack⟩ := numbers_of_nodeOf h key
  have hcount := hstack (List.replicate (opened.count key) 0) (by simp) 0
  unfold Node.stackAfter at hcount
  cases hopen : node.opens key with
  | true =>
    have hnot : node.ends key = false := by
      by_contra hend
      simp [Node.not_opens_of_ends (by simpa using hend)] at hopen
    simpa [hopen, hnot] using hcount
  | false =>
    cases hend : node.ends key with
    | false => simpa [hopen, hend] using hcount
    | true =>
      obtain ⟨depth, -, hdepth⟩ := Option.map_eq_some_iff.1 (hends hend)
      simp only [hopen, hend, List.tail_replicate, List.length_replicate, if_true, if_false,
        Bool.false_eq_true] at hcount ⊢
      omega

/-- Parsing fails at the first tag that is refused. Before it, the open blocks are those that were
opened more often than closed. -/
theorem nodesOf_eq_error {tokens : List Token} (h : nodesOf position opened tokens = .error error) :
    ∃ before t later nodes opened', tokens = before ++ .tag t :: later ∧
      nodesOf position opened before = .ok nodes ∧
      nodeOf (position.after (before.flatMap Token.source)) opened' t = .error error ∧
      ∀ key, opened'.count key + nodes.countP (·.ends key) =
        opened.count key + nodes.countP (·.opens key) := by
  induction tokens generalizing position opened with
  | nil => contradiction
  | cons token rest ih =>
    cases token with
    | text s =>
      obtain ⟨before, t, later, nodes, opened', rfl, hnodes, hrefused, hcount⟩ :=
        ih (nodesOf_text_eq_error_iff.1 h)
      refine ⟨.text s :: before, t, later, .text (String.ofList s) :: nodes, opened', rfl,
        nodesOf_text_eq_ok_iff.2 ⟨nodes, hnodes, rfl⟩, ?_, fun key => ?_⟩
      · rwa [List.flatMap_cons, Position.after_append]
      · simpa [Node.ends, Node.opens, Node.isClose, Node.opensBlock] using hcount key
    | tag t =>
      rcases nodesOf_tag_eq_error_iff.1 h with hrefused | ⟨node, opened₁, hnode, hrest⟩
      · exact ⟨[], t, rest, [], opened, rfl, rfl, hrefused, fun _ => rfl⟩
      · obtain ⟨before, t', later, nodes, opened', rfl, hnodes, hrefused, hcount⟩ := ih hrest
        refine ⟨.tag t :: before, t', later, node :: nodes, opened', rfl,
          nodesOf_tag_eq_ok_iff.2 ⟨node, opened₁, nodes, hnode, hnodes, rfl⟩, ?_, fun key => ?_⟩
        · rwa [List.flatMap_cons, Position.after_append]
        · have hstep := count_of_nodeOf hnode key
          have hlater := hcount key
          rw [List.countP_cons, List.countP_cons]
          omega

/-- Whether an error names the close tag that stands behind `before` in a template and says where it
stands, while `before` is read as `nodes`, which open and close as many blocks with its key. -/
structure PointsAt (error : ParseError) (template before tag key : String) (nodes : List Node) :
    Prop where
  tag_eq : ∃ content, tag = "\x7b\x7b/" ++ content ++ "\x7d\x7d" ∧
    key = String.ofList (Text.trim content.toList)
  template_eq : ∃ after, template = before ++ tag ++ after
  /-- The tag stands at the offset of as many bytes as there are before it. -/
  extract_eq : template.toUTF8.extract before.utf8ByteSize
    (before.utf8ByteSize + tag.utf8ByteSize) = tag.toUTF8
  kind_eq : error.kind = .unexpectedClose tag
  line_eq : error.line = 1 + before.toList.count '\n'
  column_eq : error.column = 1 + (before.toList.rtakeWhile (· ≠ '\n')).length
  parse_eq : parse .standard before = .ok nodes
  countP_eq : nodes.countP (·.ends key) = nodes.countP (·.opens key)

/-- A part of a text takes up the bytes behind those of the text before it. -/
theorem extract_toUTF8_append (before s after : String) :
    (before ++ s ++ after).toUTF8.extract before.utf8ByteSize
      (before.utf8ByteSize + s.utf8ByteSize) = s.toUTF8 := by
  have hbytes : (before ++ s ++ after).toUTF8 = before.toUTF8 ++ (s.toUTF8 ++ after.toUTF8) := by
    simp [ByteArray.append_assoc]
  rw [hbytes]
  exact (ByteArray.extract_append_size_add (i := 0)).trans (ByteArray.extract_append_eq_left rfl)

/-- A template fails to parse at the first close tag that closes nothing. -/
theorem exists_pointsAt_of_parse {template : String}
    (h : parse .standard template = .error error) :
    ∃ before tag key nodes, PointsAt error template before tag key nodes := by
  obtain ⟨tokens, t, later, nodes, opened, htokens, hnodes, hrefused, hcount⟩ := nodesOf_eq_error h
  obtain ⟨hkind, hnot, herror⟩ := nodeOf_eq_error hrefused
  have hofText : Token.ofTextAfter .standard none template.toList = tokens ++ .tag t :: later :=
    htokens
  have hmem : Token.tag t ∈ Token.ofTextAfter .standard none template.toList := by simp [hofText]
  obtain ⟨rest, hread⟩ := Token.exists_read?_of_mem hmem
  have htemplate : template = String.ofList (tokens.flatMap Token.source) ++
      String.ofList t.source ++ String.ofList (later.flatMap Token.source) := by
    have hflat := Token.flatMap_source_ofTextAfter .standard none template.toList
    rw [hofText, List.flatMap_append, List.flatMap_cons, Token.source] at hflat
    rw [← String.toList_inj, ← hflat]
    simp
  refine ⟨String.ofList (tokens.flatMap Token.source), String.ofList t.source,
    String.ofList (Text.trim t.content), nodes, ?_⟩
  constructor
  case tag_eq =>
    refine ⟨String.ofList t.content, ?_, by rw [String.toList_ofList]⟩
    rw [Tag.source_of_read?_close hread hkind, ← String.toList_inj]
    simp
  case template_eq => exact ⟨_, htemplate⟩
  case extract_eq =>
    rw [htemplate]
    exact extract_toUTF8_append _ _ _
  case kind_eq => rw [herror]
  case line_eq =>
    rw [herror, Position.line_after, String.toList_ofList]
  case column_eq =>
    rw [herror, Position.column_after, String.toList_ofList]
  case parse_eq =>
    rw [parse, String.toList_ofList, Token.ofText,
      Token.ofTextAfter_flatMap_source_of_append hofText, hnodes]
  case countP_eq =>
    have hbalance := hcount (String.ofList (Text.trim t.content))
    rwa [List.count_eq_zero.2 hnot, List.count_nil, Nat.zero_add, Nat.zero_add] at hbalance

/-- The second close of a block on a line that starts inside it, behind a comment with a closing
delimiter of its own. -/
theorem exists_pointsAt_of_parse_surplus :
    let template := "é\x7b\x7b#a\x7d\x7d\n\x7b\x7b!--\x7d\x7d--\x7d\x7d" ++
      "ü\x7b\x7b/a\x7d\x7d\x7b\x7b/ a \x7d\x7d"
    let tag := "\x7b\x7b/ a \x7d\x7d"
    parse .standard template = .error ⟨2, 19, .unexpectedClose tag⟩ ∧
      ∃ before key nodes,
        PointsAt ⟨2, 19, .unexpectedClose tag⟩ template before tag key nodes := by
  intro template tag
  let tokens : List Token := [.text ['é'], .tag (TagKind.helper.around .standard "a"),
    .text ['\n'], .tag (Tag.blockComment "\x7d\x7d"), .text ['ü'],
    .tag (TagKind.close.around .standard "a"), .tag (TagKind.close.around .standard " a ")]
  have hread : ∀ token ∈ tokens, token.ReadBack .standard := by
    simp only [tokens, List.forall_mem_cons]
    refine ⟨?text, ?tag, ?text', ?comment, ?text'', ?close, ?surplus, by simp⟩
    case text | text' | text'' => exact ⟨by simp, by decide⟩
    case comment => exact Tag.readBack_blockComment (by decide)
    case tag | close | surplus =>
      exact (TagKind.fits_of_forall (by decide) (by simp) (by simp)).readBack
  have h : parse .standard template = .error ⟨2, 19, .unexpectedClose tag⟩ := by
    have htemplate : template.toList = tokens.flatMap Token.source := by
      simp only [template, tokens]
      rfl
    rw [parse_of_readBack (by decide) htemplate hread (by decide)]
    rfl
  obtain ⟨before, tag', key, nodes, hpoints⟩ := exists_pointsAt_of_parse h
  obtain rfl : tag = tag' := ParseErrorKind.unexpectedClose.inj hpoints.kind_eq
  exact ⟨h, before, key, nodes, hpoints⟩

end Template

end Stencil
