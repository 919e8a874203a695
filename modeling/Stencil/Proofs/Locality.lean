import Mathlib.Tactic.SplitIfs
import Stencil.Proofs.Reading

/-!
# Tokens by themselves

In the standard dialect a token is read alike wherever it stands. A stretch of text holds no tag of
its own, and a tag that is cut out of its template is read as the same tag: the searches that found
it look at nothing behind it, and what stands before it cannot escape its opening delimiter, since
tags never end with the escape character.

## Main definitions

* `Node.alone`: the node of a tag as it is where the tag stands alone.
-/

namespace Stencil

/-! ## Searches in a part of a text -/

namespace Delimiter

variable {escape : Char} {delimiter : List Char} {previous : Option Char}
  {s t before rest : List Char} {skipped : Nat}

theorem isPrefixOf_append_append (hs : delimiter.length ≤ s.length) (t t' : List Char) :
    delimiter.isPrefixOf (s ++ t) = delimiter.isPrefixOf (s ++ t') := by
  rw [Bool.eq_iff_iff, List.isPrefixOf_iff_prefix, List.isPrefixOf_iff_prefix]
  have hcut (u : List Char) : delimiter <+: s ++ u ↔ delimiter <+: s :=
    ⟨fun h => List.prefix_of_prefix_length_le h (List.prefix_append s u) hs,
      fun h => h.trans (List.prefix_append s u)⟩
  rw [hcut, hcut]

/-- Only whether it is the escape character matters of the character before a text. -/
theorem findUnescaped?_congr {previous' : Option Char}
    (h : previous = some escape ↔ previous' = some escape) (s : List Char) :
    findUnescaped? escape delimiter previous s = findUnescaped? escape delimiter previous' s := by
  cases s with
  | nil => rfl
  | cons c s => simp only [findUnescaped?, scan?, h]

/-- What is skipped stands before the delimiter that is found. -/
theorem le_length_of_scan?
    (h : scan? escape delimiter previous skipped s = some (before, rest)) :
    skipped ≤ before.length := by
  fun_induction scan? escape delimiter previous skipped s generalizing before rest <;>
    grind [Option.map_eq_some_iff]

/-- A character is put in front of what a search finds behind it. -/
theorem map_cons_eq_some_iff {found : Option (List Char × List Char)} {c : Char} :
    (found.map fun (before, rest) => (c :: before, rest)) = some (c :: before, rest) ↔
      found = some (before, rest) := by
  rw [Option.map_eq_some_iff]
  constructor
  · rintro ⟨⟨b, r⟩, rfl, heq⟩
    simpa using heq
  · exact fun h => ⟨_, h, rfl⟩

/-- The search for a delimiter does not look behind the one that it finds. -/
theorem scan?_append_delimiter (hd : delimiter ≠ []) {t' : List Char}
    (h : scan? escape delimiter previous skipped (before ++ (delimiter ++ t)) =
      some (before, delimiter ++ t)) :
    scan? escape delimiter previous skipped (before ++ (delimiter ++ t')) =
      some (before, delimiter ++ t') := by
  induction before generalizing previous skipped with
  | nil =>
    obtain rfl : skipped = 0 := Nat.le_zero.1 (le_length_of_scan? h)
    have hprevious : previous ≠ some escape := by
      rintro rfl
      cases delimiter with
      | nil => contradiction
      | cons d ds =>
        have hstart : (d :: ds).isPrefixOf (d :: (ds ++ t)) :=
          List.isPrefixOf_iff_prefix.2 (List.prefix_append (d :: ds) t)
        rw [List.nil_append, List.cons_append, scan?, if_pos hstart, if_pos rfl] at h
        simp at h
    exact scan?_of_isPrefix hd (List.prefix_append delimiter t') hprevious
  | cons c before ih =>
    have hhead : delimiter.isPrefixOf (c :: (before ++ (delimiter ++ t))) =
        delimiter.isPrefixOf (c :: (before ++ (delimiter ++ t'))) := by
      have hlength : delimiter.length ≤ (c :: before ++ delimiter).length := by
        rw [List.length_append]
        omega
      simpa using isPrefixOf_append_append hlength t t'
    rw [List.cons_append] at h ⊢
    cases skipped with
    | succ k =>
      rw [scan?, map_cons_eq_some_iff] at h ⊢
      exact ih h
    | zero =>
      simp only [scan?, ← hhead] at h ⊢
      split_ifs at h ⊢
      · exact map_cons_eq_some_iff.2 (ih (map_cons_eq_some_iff.1 h))
      · simp at h
      · exact map_cons_eq_some_iff.2 (ih (map_cons_eq_some_iff.1 h))

/-- A delimiter is found in front of any text that starts with it. -/
theorem findUnescaped?_append {rest' : List Char}
    (h : findUnescaped? escape delimiter previous s = some (before, rest))
    (hrest : delimiter <+: rest') :
    findUnescaped? escape delimiter previous (before ++ rest') = some (before, rest') := by
  have hd := ne_nil_of_findUnescaped? h
  obtain ⟨t, ht⟩ := isPrefix_of_findUnescaped? h
  obtain ⟨t', rfl⟩ := hrest
  rw [← append_of_findUnescaped? h, ← ht, findUnescaped?, if_neg (by simpa using hd)] at h
  rw [findUnescaped?, if_neg (by simpa using hd)]
  exact scan?_append_delimiter hd h

/-- There is no delimiter before the first one. -/
theorem scan?_eq_none_of_scan?
    (h : scan? escape delimiter previous skipped (before ++ rest) = some (before, rest)) :
    scan? escape delimiter previous skipped before = none := by
  induction before generalizing previous skipped with
  | nil => rfl
  | cons c before ih =>
    rw [List.cons_append] at h
    cases skipped with
    | succ k =>
      rw [scan?, map_cons_eq_some_iff] at h
      rw [scan?, ih h, Option.map_none]
    | zero =>
      simp only [scan?] at h ⊢
      split at h
      · next hstart =>
        split at h
        · next hescaped =>
          have hlater := map_cons_eq_some_iff.1 h
          -- What is skipped lies before the delimiter, so the escaped one fits in there.
          have hlength := le_length_of_scan? hlater
          have hinside : delimiter.isPrefixOf (c :: before) := by
            rw [List.isPrefixOf_iff_prefix, ← List.cons_append] at *
            refine List.prefix_of_prefix_length_le hstart (List.prefix_append _ rest) ?_
            rw [List.length_cons]
            omega
          rw [if_pos hinside, if_pos hescaped, ih hlater, Option.map_none]
        · simp at h
      · next hstart =>
        have houtside : ¬ delimiter.isPrefixOf (c :: before) := by
          intro hinside
          rw [List.isPrefixOf_iff_prefix] at hstart hinside
          exact hstart (hinside.trans (List.prefix_append (c :: before) rest))
        rw [if_neg houtside, ih (map_cons_eq_some_iff.1 h), Option.map_none]

/-- A delimiter that is found in a text is found there whatever follows. -/
theorem find?_append_right (h : find? delimiter s = some (before, rest)) (t : List Char) :
    find? delimiter (s ++ t) = some (before, rest ++ t) := by
  induction s generalizing before rest with
  | nil =>
    simp only [find?] at h
    split at h
    · next hempty =>
      obtain rfl := List.isEmpty_iff.1 hempty
      obtain ⟨rfl, rfl⟩ : [] = before ∧ [] = rest := by simpa using h
      cases t <;> rfl
    · contradiction
  | cons c s ih =>
    have hlength : delimiter.length ≤ (c :: s).length := by
      rw [← append_of_find? h, List.append_assoc, List.length_append, List.length_append]
      omega
    have hhead : delimiter.isPrefixOf (c :: (s ++ t)) = delimiter.isPrefixOf (c :: s) := by
      simpa using isPrefixOf_append_append hlength t []
    rw [List.cons_append]
    simp only [find?, hhead] at h ⊢
    split at h
    · next hstart =>
      obtain ⟨rfl, rfl⟩ : [] = before ∧ (c :: s).drop delimiter.length = rest := by simpa using h
      rw [if_pos hstart, ← List.cons_append, List.drop_append_of_le_length hlength]
    · next hstart =>
      obtain ⟨⟨b, r⟩, hlater, heq⟩ := Option.map_eq_some_iff.1 h
      obtain ⟨rfl, rfl⟩ := Prod.mk.inj heq
      rw [if_neg hstart, ih hlater, Option.map_some]

/-- A delimiter does not occur before it is found. -/
theorem not_isInfix_of_find? (hd : delimiter ≠ [])
    (h : find? delimiter s = some (before, rest)) : ¬ delimiter <:+: before := by
  induction s generalizing before rest with
  | nil => grind [find?]
  | cons c s ih =>
    simp only [find?] at h
    split at h
    · obtain ⟨rfl, -⟩ : [] = before ∧ (c :: s).drop delimiter.length = rest := by simpa using h
      simpa using hd
    · next hstart =>
      obtain ⟨⟨b, r⟩, hlater, heq⟩ := Option.map_eq_some_iff.1 h
      obtain ⟨rfl, rfl⟩ := Prod.mk.inj heq
      rw [List.infix_cons_iff]
      rintro (hinside | hinside)
      · have hb : c :: b <+: c :: s := by
          rw [← append_of_find? hlater, List.append_assoc]
          exact List.prefix_append (c :: b) _
        exact hstart (List.isPrefixOf_iff_prefix.2 (hinside.trans hb))
      · exact ih hlater hinside

end Delimiter

/-! ## Tags -/

namespace Tag

variable {dialect : Dialect} {s inner rest : List Char} {tag : Tag}

/-- A tag stands between the delimiters. -/
theorem exists_source_eq_of_read? (h : read? dialect s = some tag) :
    ∃ middle, tag.source = dialect.delimiters.opening.toList ++ middle ++
      dialect.delimiters.closing.toList := by
  simp only [read?, Option.bind_eq_some_iff, Option.or_eq_some_iff] at h
  obtain ⟨⟨inner, rest⟩, -, h | ⟨-, h⟩⟩ := h
  · simp only [blockComment?] at h
    split at h
    · obtain ⟨⟨content, after⟩, -, rfl⟩ := Option.map_eq_some_iff.1 h
      exact ⟨dialect.blockComment.opening.toList ++ content ++
        dialect.blockComment.closing.toList, by simp [Dialect.wrap]⟩
    · contradiction
  · obtain ⟨kind, -, h⟩ := List.exists_of_findSome?_eq_some h
    rw [ofKind?] at h
    split at h
    · obtain rfl := Option.some.inj h
      exact ⟨inner ++ (kind.brackets dialect).closing.toList, by simp⟩
    · contradiction

/-- A block comment is one whatever follows. -/
theorem blockComment?_append (h : blockComment? dialect s = some tag) (t : List Char) :
    blockComment? dialect (s ++ t) = some tag := by
  simp only [blockComment?] at h ⊢
  split at h
  · next hstart =>
    have hopens := List.isPrefixOf_iff_prefix.1 hstart
    obtain ⟨⟨content, after⟩, hfind, htag⟩ := Option.map_eq_some_iff.1 h
    rw [if_pos (List.isPrefixOf_iff_prefix.2 (hopens.trans (List.prefix_append s t))),
      List.drop_append_of_le_length hopens.length_le, Delimiter.find?_append_right hfind]
    exact congrArg some htag
  · contradiction

/-- The kinds that decline a tag go on to do so with less text behind it, so that it is of the same
kind as long as its closing text is there. -/
theorem findSome?_ofKind? {rest' : List Char}
    (h : TagKind.order.findSome? (ofKind? dialect inner rest) = some tag) (hrest : rest' <+: rest)
    (htag : tag.source <+: dialect.delimiters.opening.toList ++ (inner ++ rest')) :
    TagKind.order.findSome? (ofKind? dialect inner rest') = some tag := by
  obtain ⟨before, kind, after, horder, hkind, hbefore⟩ := List.findSome?_eq_some_iff.1 h
  refine List.findSome?_eq_some_iff.2 ⟨before, kind, after, horder, ?_, fun other hother => ?_⟩
  · rw [ofKind?] at hkind ⊢
    split at hkind
    · next hfits =>
      obtain rfl := Option.some.inj hkind
      have hcloser : (kind.brackets dialect).closing.toList ++
          dialect.delimiters.closing.toList <+: rest' := by
        simpa only [List.append_assoc, List.prefix_append_right_inj] using htag
      rw [if_pos ⟨hfits.1, List.isPrefixOf_iff_prefix.2 hcloser⟩]
    · contradiction
  · have hnone := hbefore other hother
    simp only [ofKind?, List.isPrefixOf_iff_prefix, ite_eq_right_iff, reduceCtorEq, imp_false]
      at hnone ⊢
    exact fun hfits => hnone ⟨hfits.1, hfits.2.trans hrest⟩

/-- The source of a tag that is no block comment ends behind the delimiter that was found. -/
theorem exists_source_eq_of_ofKind?
    (hclosing : dialect.delimiters.closing.toList <+: rest)
    (h : TagKind.order.findSome? (ofKind? dialect inner rest) = some tag) :
    ∃ closer, closer <+: rest ∧ dialect.delimiters.closing.toList <+: closer ∧
      tag.source = dialect.delimiters.opening.toList ++ (inner ++ closer) := by
  obtain ⟨kind, -, hkind⟩ := List.exists_of_findSome?_eq_some h
  rw [ofKind?] at hkind
  split at hkind
  · next hfits =>
    obtain rfl := Option.some.inj hkind
    have hcloser := List.isPrefixOf_iff_prefix.1 hfits.2
    exact ⟨_, hcloser, List.prefix_of_prefix_length_le hclosing hcloser (by simp), by simp⟩
  · contradiction

/-- A tag that is no block comment is read alike if less text stands behind it. -/
theorem read?_of_isPrefix_of_ofKind? {s' : List Char}
    (hs : dialect.delimiters.opening.toList <+: s)
    (hcut : Delimiter.findUnescaped? dialect.escape dialect.delimiters.closing.toList
      dialect.delimiters.opening.toList.getLast?
      (s.drop dialect.delimiters.opening.toList.length) = some (inner, rest))
    (hblock : blockComment? dialect s = none)
    (hkind : TagKind.order.findSome? (ofKind? dialect inner rest) = some tag)
    (htag : tag.source <+: s') (hs' : s' <+: s) : read? dialect s' = some tag := by
  obtain ⟨closer, hcloser, hclosing, hsource⟩ :=
    exists_source_eq_of_ofKind? (Delimiter.isPrefix_of_findUnescaped? hcut) hkind
  obtain ⟨t, ht⟩ := hs
  obtain ⟨u, rfl⟩ := htag
  have hinner := Delimiter.append_of_findUnescaped? hcut
  rw [← ht, List.drop_left] at hinner
  have hrest : closer ++ u <+: rest := by
    rw [hsource, ← ht, ← hinner] at hs'
    simpa only [List.append_assoc, List.prefix_append_right_inj] using hs'
  have hcut' := Delimiter.findUnescaped?_append hcut (hclosing.trans (List.prefix_append closer u))
  have hblock' : blockComment? dialect (tag.source ++ u) = none := by
    obtain ⟨v, hv⟩ := hs'
    by_contra hsome
    obtain ⟨comment, hcomment⟩ := Option.ne_none_iff_exists'.1 hsome
    rw [← hv, blockComment?_append hcomment v] at hblock
    contradiction
  have hkind' := findSome?_ofKind? hkind hrest (by simp [hsource])
  simp only [read?, hblock', Option.none_or]
  rw [hsource, List.append_assoc, List.drop_left, List.append_assoc, hcut', Option.bind_some,
    hkind']

/-- A block comment of the standard dialect ends at the first place where it can. -/
theorem exists_eq_blockComment (h : blockComment? .standard s = some tag) :
    ∃ body : String, tag = blockComment body ∧ ¬ ['-', '-', '}', '}'] <:+: body.toList := by
  rw [blockComment?] at h
  split at h
  · obtain ⟨⟨content, after⟩, hfind, rfl⟩ := Option.map_eq_some_iff.1 h
    refine ⟨String.ofList content, by simp [blockComment], ?_⟩
    rw [String.toList_ofList]
    exact Delimiter.not_isInfix_of_find? (by simp) hfind
  · contradiction

/-- A tag of the standard dialect is read alike if less text stands behind it. -/
theorem read?_of_isPrefix {s' : List Char} (hs : Dialect.standard.delimiters.opening.toList <+: s)
    (h : read? .standard s = some tag) (htag : tag.source <+: s') (hs' : s' <+: s) :
    read? .standard s' = some tag := by
  cases hblock : blockComment? .standard s with
  | some comment =>
    simp only [read?, hblock, Option.some_or, Option.bind_eq_some_iff, Option.some.injEq] at h
    obtain ⟨_, -, rfl⟩ := h
    obtain ⟨body, rfl, hbody⟩ := exists_eq_blockComment hblock
    obtain ⟨u, rfl⟩ := htag
    exact (readBack_blockComment hbody).read?_append u
  | none =>
    simp only [read?, hblock, Option.none_or, Option.bind_eq_some_iff] at h
    obtain ⟨⟨inner, rest⟩, hcut, hkind⟩ := h
    exact read?_of_isPrefix_of_ofKind? hs hcut hblock hkind htag hs'

end Tag

/-! ## Tokens -/

namespace Token

variable {dialect : Dialect} {previous : Option Char} {s before rest : List Char} {token : Token}

/-- Only whether it is the escape character matters of the character before a text. -/
theorem ofTextAfter_congr {previous' : Option Char}
    (h : previous = some dialect.escape ↔ previous' = some dialect.escape) (s : List Char) :
    ofTextAfter dialect previous s = ofTextAfter dialect previous' s := by
  have hcut : Delimiter.findUnescaped? _ dialect.delimiters.opening.toList _ s = _ :=
    Delimiter.findUnescaped?_congr h s
  cases hfound : Delimiter.findUnescaped? dialect.escape dialect.delimiters.opening.toList
      previous s with
  | none =>
    rw [ofTextAfter_of_findUnescaped?_eq_none hfound,
      ofTextAfter_of_findUnescaped?_eq_none (hcut ▸ hfound)]
  | some found =>
    cases hread : Tag.read? dialect found.2 with
    | none =>
      rw [ofTextAfter_of_read?_eq_none hfound hread,
        ofTextAfter_of_read?_eq_none (hcut ▸ hfound) hread]
    | some t =>
      rw [ofTextAfter_of_read?_eq_some hfound hread]
      exact (ofTextAfter_of_read?_eq_some (hcut ▸ hfound) hread).symm

theorem eq_of_mem_ofPlain (h : token ∈ ofPlain s) : token = text s ∧ ofPlain s = [text s] := by
  unfold ofPlain at h ⊢
  split at h <;> simp_all

/-- There is no tag before the first opening delimiter. -/
theorem ofTextAfter_of_findUnescaped?
    (h : Delimiter.findUnescaped? dialect.escape dialect.delimiters.opening.toList previous s =
      some (before, rest)) : ofTextAfter dialect previous before = ofPlain before := by
  have hd := Delimiter.ne_nil_of_findUnescaped? h
  rw [← Delimiter.append_of_findUnescaped? h, Delimiter.findUnescaped?,
    if_neg (by simpa using hd)] at h
  apply ofTextAfter_of_findUnescaped?_eq_none
  rw [Delimiter.findUnescaped?, if_neg (by simpa using hd)]
  exact Delimiter.scan?_eq_none_of_scan? h

/-- What stands before the first opening delimiter is text by itself. -/
theorem ofText_of_findUnescaped? (hprevious : previous ≠ some dialect.escape)
    (h : Delimiter.findUnescaped? dialect.escape dialect.delimiters.opening.toList previous s =
      some (before, rest)) : ofText dialect before = ofPlain before := by
  have hiff : none = some dialect.escape ↔ previous = some dialect.escape := by simp [hprevious]
  rw [ofText, ofTextAfter_congr hiff, ofTextAfter_of_findUnescaped? h]

/-- A tag of the standard dialect does not end with the escape character. -/
theorem getLast?_ne_of_read? {t : Tag} (h : Tag.read? .standard s = some t) :
    t.source.getLast? ≠ some Dialect.standard.escape := by
  obtain ⟨middle, hsource⟩ := Tag.exists_source_eq_of_read? h
  have hclosing : Dialect.standard.delimiters.closing.toList.getLast? = some '}' := rfl
  rw [hsource, List.getLast?_append, hclosing, Option.some_or]
  decide

/-- A tag of the standard dialect is the one token of its source. -/
theorem ofText_of_read? {t : Tag} (hs : Dialect.standard.delimiters.opening.toList <+: s)
    (h : Tag.read? .standard s = some t) : ofText .standard t.source = [tag t] := by
  obtain ⟨middle, hsource⟩ := Tag.exists_source_eq_of_read? h
  have hstart : Dialect.standard.delimiters.opening.toList <+: t.source := by
    rw [hsource, List.append_assoc]
    exact List.prefix_append _ _
  have hread := Tag.read?_of_isPrefix hs h List.prefix_rfl (Tag.source_isPrefix_of_read? h hs)
  rw [ofText_of_read?_eq_some (by decide) hstart hread, List.drop_length,
    ofTextAfter_of_findUnescaped?_eq_none]
  · rfl
  · simp [Delimiter.findUnescaped?, Delimiter.scan?]

/-- A token of a text of the standard dialect is the one token of its source. -/
theorem ofText_source_of_mem (hprevious : previous ≠ some Dialect.standard.escape)
    (h : token ∈ ofTextAfter .standard previous s) :
    ofText .standard token.source = [token] := by
  have hwhole {previous : Option Char} {s : List Char}
      (hprevious : previous ≠ some Dialect.standard.escape)
      (hplain : ofTextAfter .standard previous s = ofPlain s) (hmem : token ∈ ofPlain s) :
      ofText .standard token.source = [token] := by
    obtain ⟨rfl, hs⟩ := eq_of_mem_ofPlain hmem
    have hiff : none = some Dialect.standard.escape ↔ previous = some Dialect.standard.escape := by
      simp [hprevious]
    rw [source, ofText, ofTextAfter_congr hiff, hplain, hs]
  fun_induction ofTextAfter .standard previous s with
  | case1 previous s hnone =>
    exact hwhole hprevious (ofTextAfter_of_findUnescaped?_eq_none hnone) h
  | case2 previous s before rest hcut hread =>
    exact hwhole hprevious (ofTextAfter_of_read?_eq_none hcut hread) h
  | case3 previous s before rest hcut t hread ih =>
    rcases List.mem_append.1 h with hbefore | hbehind
    · obtain ⟨rfl, hplain⟩ := eq_of_mem_ofPlain hbefore
      rw [source, ofText_of_findUnescaped? hprevious hcut, hplain]
    · rcases List.mem_cons.1 hbehind with rfl | hrest
      · exact ofText_of_read? (Delimiter.isPrefix_of_findUnescaped? hcut) hread
      · exact ih (getLast?_ne_of_read? hread) hrest

end Token

/-! ## Nodes -/

/-- The node of a tag as it is where the tag stands alone: at the start of its template and outside
blocks. -/
def Node.alone : Node → Node
  | text s => text s
  | interpolation key source span arguments => interpolation key source ⟨0, span.length⟩ arguments
  | raw key source span => raw key source ⟨0, span.length⟩
  | inclusion key source span _ arguments => inclusion key source ⟨0, span.length⟩ 0 arguments
  | helper key source span _ arguments => helper key source ⟨0, span.length⟩ 0 arguments
  | close key source span _ => close key source ⟨0, span.length⟩ 0
  | comment key source span => comment key source ⟨0, span.length⟩

namespace Template

variable {position : Position} {opened opened' : Opened} {node : Node}

/-- A node is read from a token. -/
theorem exists_token_of_nodesOf {tokens : List Token} {nodes : List Node}
    (h : nodesOf position opened tokens = .ok nodes) (hnode : node ∈ nodes) :
    ∃ token ∈ tokens, (∃ s, token = .text s ∧ node = .text (String.ofList s)) ∨
      ∃ t before opened after, token = .tag t ∧ nodeOf before opened t = .ok (node, after) := by
  induction tokens generalizing position opened nodes with
  | nil =>
    obtain rfl := Except.ok.inj h
    contradiction
  | cons token rest ih =>
    cases token with
    | text s =>
      obtain ⟨tail, htail, rfl⟩ := nodesOf_text_eq_ok_iff.1 h
      rcases List.mem_cons.1 hnode with rfl | hmem
      · exact ⟨_, List.mem_cons_self, .inl ⟨s, rfl, rfl⟩⟩
      · obtain ⟨token, htoken, hread⟩ := ih htail hmem
        exact ⟨token, List.mem_cons_of_mem _ htoken, hread⟩
    | tag t =>
      obtain ⟨first, after, tail, hfirst, htail, rfl⟩ := nodesOf_tag_eq_ok_iff.1 h
      rcases List.mem_cons.1 hnode with rfl | hmem
      · exact ⟨_, List.mem_cons_self, .inr ⟨t, position, opened, after, rfl, hfirst⟩⟩
      · obtain ⟨token, htoken, hread⟩ := ih htail hmem
        exact ⟨token, List.mem_cons_of_mem _ htoken, hread⟩

/-- A tag that stands alone opens a block of depth zero and closes none. -/
theorem nodesOf_alone {t : Tag} (h : nodeOf position opened t = .ok (node, opened')) :
    nodesOf {} [] [.tag t] =
      if node.isClose then .error ⟨1, 1, .unexpectedClose node.source⟩ else .ok [node.alone] := by
  obtain ⟨kind, content, source⟩ := t
  have hspan : (Span.mk position.offset (position.after source).offset).length =
      (Position.after {} source).offset := by
    simp [Span.length, Position.offset_after]
  cases kind with
  | close =>
    simp only [nodeOf] at h
    split at h
    · obtain ⟨rfl, -⟩ := Prod.mk.inj (Except.ok.inj h)
      rfl
    · contradiction
  | raw | helper | inclusion | comment | interpolation =>
    obtain ⟨rfl, -⟩ := Prod.mk.inj (Except.ok.inj h)
    rw [Node.alone, hspan]
    exact nodesOf_tag_eq_ok_iff.2 ⟨_, _, [], rfl, rfl, rfl⟩

/-- Reading is local: a node of the standard dialect is read from its source as it is read from its
template, but for where it stands. A close by itself is refused, since it closes nothing. -/
theorem parse_source_of_mem {template : String} {nodes : List Node}
    (h : parse .standard template = .ok nodes) {node : Node} (hnode : node ∈ nodes) :
    parse .standard node.source =
      if node.isClose then .error ⟨1, 1, .unexpectedClose node.source⟩ else .ok [node.alone] := by
  obtain ⟨token, htoken, hread⟩ := exists_token_of_nodesOf h hnode
  have htokens := Token.ofText_source_of_mem (Option.some_ne_none _).symm htoken
  rcases hread with ⟨s, rfl, rfl⟩ | ⟨t, before, opened, after, rfl, hread⟩
  · have hparse : parse .standard (Node.text (String.ofList s)).source =
        nodesOf {} [] [.text s] := by
      rw [← htokens, parse, Node.source, String.toList_ofList, Token.source]
    exact hparse
  · have hparse : parse .standard node.source = nodesOf {} [] [.tag t] := by
      rw [← htokens, parse, (source_of_nodeOf hread).1, String.toList_ofList, Token.source]
    rw [hparse, nodesOf_alone hread]

/-- An escaped delimiter in a text, a block in a block of the same helper, and its close. -/
theorem parse_source_of_mem_nested :
    let template := "é\\\x7b\x7ba\x7b\x7b#if x\x7d\x7d\x7b\x7b#if 'b\\\x7d\x7d'\x7d\x7d" ++
      "\x7b\x7b/if\x7d\x7d"
    let nested := "\x7b\x7b#if 'b\\\x7d\x7d'\x7d\x7d"
    let nodes : List Node := [.text "é\\\x7b\x7ba",
      .helper "if" "\x7b\x7b#if x\x7d\x7d" ⟨6, 15⟩ 0 (some "x"),
      .helper "if" nested ⟨15, 29⟩ 1 (some "'b\\\x7d\x7d'"),
      .close "if" "\x7b\x7b/if\x7d\x7d" ⟨29, 36⟩ 1]
    parse .standard template = .ok nodes ∧
      parse .standard "é\\\x7b\x7ba" = .ok [.text "é\\\x7b\x7ba"] ∧
      parse .standard nested = .ok [.helper "if" nested ⟨0, 14⟩ 0 (some "'b\\\x7d\x7d'")] ∧
      parse .standard "\x7b\x7b/if\x7d\x7d" =
        .error ⟨1, 1, .unexpectedClose "\x7b\x7b/if\x7d\x7d"⟩ := by
  intro template nested nodes
  have h : parse .standard template = .ok nodes := by decide +kernel
  have hopen : nodes[2] ∈ nodes := List.getElem_mem _
  have hclose : nodes[3] ∈ nodes := List.getElem_mem _
  exact ⟨h, parse_source_of_mem h List.mem_cons_self, parse_source_of_mem h hopen,
    parse_source_of_mem h hclose⟩

end Template

end Stencil
