import Mathlib.Data.List.Chain
import Mathlib.Data.List.Infix
import Stencil.Proofs.Written

/-!
# Templates put together from tokens

Stretches of text and tags that are written one behind the other are read back one by one, if each
tag by itself is read back whatever follows it, and if nothing in a text looks like a delimiter.

## Main definitions

* `Tag.ReadBack`, `Token.ReadBack`: tags and tokens that are read back whatever follows.
* `TagKind.around`: the tag of a kind around a content, and `TagKind.Fits`: the contents with which
  it is read back in the standard dialect.
* `Tag.blockComment`: a block comment of the standard dialect.
-/

namespace Stencil

/-! ## Tokens -/

/-- Whether a tag is read where its source stands, whatever follows. -/
structure Tag.ReadBack (dialect : Dialect) (tag : Tag) : Prop where
  isPrefix : dialect.delimiters.opening.toList <+: tag.source
  getLast?_ne : tag.source.getLast? ≠ some dialect.escape
  read?_append : ∀ rest, Tag.read? dialect (tag.source ++ rest) = some tag

namespace Token

variable {dialect : Dialect} {previous : Option Char}

/-- The tokens behind a tag that is read back. -/
theorem ofTextAfter_of_readBack {t : Tag} (hd : dialect.delimiters.opening.toList ≠ [])
    (h : t.ReadBack dialect) (hprevious : previous ≠ some dialect.escape) (rest : List Char) :
    ofTextAfter dialect previous (t.source ++ rest) =
      tag t :: ofTextAfter dialect t.source.getLast? rest := by
  have hstart := Delimiter.findUnescaped?_of_isPrefix hd
    (h.isPrefix.trans (List.prefix_append _ rest)) hprevious
  rw [ofTextAfter_of_read?_eq_some hstart (h.read?_append rest), List.drop_left]
  rfl

/-- Whether a stretch of text is read back: it is not empty, and none of its characters belongs to
an opening delimiter or escapes one. -/
def Plain (dialect : Dialect) (s : List Char) : Prop :=
  s ≠ [] ∧ ∀ c ∈ s, c ∉ dialect.delimiters.opening.toList ∧ c ≠ dialect.escape

theorem Plain.ofPlain_eq {s : List Char} (h : Plain dialect s) : ofPlain s = [text s] := by
  rw [ofPlain, if_neg (by simpa using h.1)]

theorem Plain.getLast?_ne {s : List Char} (h : Plain dialect s) :
    s.getLast? ≠ some dialect.escape := by
  rw [List.getLast?_eq_some_getLast h.1]
  exact fun heq => (h.2 _ (List.getLast_mem h.1)).2 (Option.some.inj heq)

/-- A text with nothing behind it. -/
theorem ofTextAfter_of_plain {s : List Char} (hd : dialect.delimiters.opening.toList ≠ [])
    (h : Plain dialect s) : ofTextAfter dialect previous s = [text s] := by
  have hcut : Delimiter.scan? dialect.escape dialect.delimiters.opening.toList previous 0
      (s ++ []) = none := Delimiter.scan?_append_of_disjoint hd fun c hc => (h.2 c hc).1
  rw [List.append_nil] at hcut
  rw [ofTextAfter_of_findUnescaped?_eq_none, h.ofPlain_eq]
  rw [Delimiter.findUnescaped?, if_neg (by simpa using hd), hcut]

/-- A text in front of a tag. -/
theorem ofTextAfter_append_of_plain {s : List Char} {t : Tag} {rest : List Char}
    (hd : dialect.delimiters.opening.toList ≠ []) (hs : Plain dialect s)
    (h : t.ReadBack dialect) :
    ofTextAfter dialect previous (s ++ (t.source ++ rest)) =
      text s :: ofTextAfter dialect s.getLast? (t.source ++ rest) := by
  have hlast : s.getLast?.or previous ≠ some dialect.escape := by
    rw [List.getLast?_eq_some_getLast hs.1, Option.some_or, ← List.getLast?_eq_some_getLast hs.1]
    exact hs.getLast?_ne
  have hcut : Delimiter.findUnescaped? dialect.escape dialect.delimiters.opening.toList previous
      (s ++ (t.source ++ rest)) = some (s ++ [], t.source ++ rest) := by
    rw [Delimiter.findUnescaped?, if_neg (by simpa using hd),
      Delimiter.scan?_append_of_disjoint hd fun c hc => (hs.2 c hc).1,
      Delimiter.scan?_of_isPrefix hd (h.isPrefix.trans (List.prefix_append _ rest)) hlast]
    rfl
  rw [ofTextAfter_of_read?_eq_some hcut (h.read?_append rest), List.append_nil, hs.ofPlain_eq,
    ofTextAfter_of_readBack hd h hs.getLast?_ne, List.drop_left]
  rfl

/-- Whether a token is read back. -/
def ReadBack (dialect : Dialect) : Token → Prop
  | text s => Plain dialect s
  | tag t => t.ReadBack dialect

/-- Tokens that are each read back are read back one behind the other, if no two texts meet. -/
theorem ofTextAfter_flatMap_source {tokens : List Token}
    (hd : dialect.delimiters.opening.toList ≠ [])
    (h : ∀ token ∈ tokens, token.ReadBack dialect)
    (hchain : tokens.IsChain fun a b => ¬ (a.isText ∧ b.isText))
    (hprevious : previous ≠ some dialect.escape) :
    ofTextAfter dialect previous (tokens.flatMap source) = tokens := by
  induction tokens generalizing previous with
  | nil =>
    rw [List.flatMap_nil, ofTextAfter_of_findUnescaped?_eq_none]
    · rfl
    · simp [Delimiter.findUnescaped?, Delimiter.scan?]
  | cons token rest ih =>
    have htoken := h token List.mem_cons_self
    have hrest := fun other hmem => h other (List.mem_cons_of_mem token hmem)
    rw [List.flatMap_cons]
    cases token with
    | tag t =>
      rw [source, ofTextAfter_of_readBack hd htoken hprevious,
        ih hrest hchain.tail htoken.getLast?_ne]
    | text s =>
      rw [source]
      cases rest with
      | nil => rw [List.flatMap_nil, List.append_nil, ofTextAfter_of_plain hd htoken]
      | cons next rest =>
        cases next with
        | text _ => exact absurd ⟨rfl, rfl⟩ (List.isChain_cons_cons.1 hchain).1
        | tag t =>
          have hnext := ih hrest hchain.tail (Plain.getLast?_ne htoken)
          rw [List.flatMap_cons, source] at hnext ⊢
          rw [ofTextAfter_append_of_plain hd htoken (hrest _ List.mem_cons_self), hnext]

end Token

/-- A template that is put together from tokens has the nodes of these. -/
theorem Template.parse_of_readBack {dialect : Dialect} {template : String} {tokens : List Token}
    (hd : dialect.delimiters.opening.toList ≠ [])
    (htemplate : template.toList = tokens.flatMap Token.source)
    (h : ∀ token ∈ tokens, token.ReadBack dialect)
    (hchain : tokens.IsChain fun a b => ¬ (a.isText ∧ b.isText)) :
    parse dialect template = nodesOf {} [] tokens := by
  rw [parse, Token.ofText, htemplate,
    Token.ofTextAfter_flatMap_source hd h hchain (Option.some_ne_none _).symm]

/-! ## Tags of the standard dialect -/

namespace TagKind

/-- The tag of a kind around a content. -/
def around (dialect : Dialect) (kind : TagKind) (content : String) : Tag :=
  ⟨kind, content.toList, (kind.write dialect content).toList⟩

/-- Whether a content can stand in a tag of a kind of the standard dialect: it does not end the tag
early, and it does not make a tag of another kind of it. -/
structure Fits (kind : TagKind) (content : String) : Prop where
  not_infix : ¬ ['}', '}'] <:+: content.toList
  getLast?_ne : ∀ c ∈ content.toList.getLast?, c ≠ '}' ∧ c ≠ '\\'
  head?_ne : kind = .interpolation → ∀ c ∈ content.toList.head?, c ∉ ['{', '#', '>', '/', '!']
  not_prefix : kind = .comment → ¬ ['-', '-'] <+: content.toList

variable {kind : TagKind} {content : String}

/-- A content without closing braces and without the escape character does not end a tag early. -/
theorem fits_of_forall (h : ∀ c ∈ content.toList, c ≠ '}' ∧ c ≠ '\\')
    (hhead : kind = .interpolation → ∀ c ∈ content.toList.head?, c ∉ ['{', '#', '>', '/', '!'])
    (hhyphens : kind = .comment → ¬ ['-', '-'] <+: content.toList) : kind.Fits content where
  not_infix hends := (h '}' (hends.subset List.mem_cons_self)).1 rfl
  getLast?_ne c hc := h c (List.mem_of_getLast? hc)
  head?_ne := hhead
  not_prefix := hhyphens

theorem Fits.misses (h : kind.Fits content) (t : List Char) :
    Delimiter.Misses ['}', '}'] content.toList t := by
  intro v hv hne hstart
  match v with
  | [] => contradiction
  | [c] =>
    obtain ⟨u, hu⟩ := hv
    have hlast : c ∈ content.toList.getLast? := by simp [← hu]
    obtain ⟨rfl, -⟩ := List.cons_prefix_cons.1 hstart
    exact (h.getLast?_ne _ hlast).1 rfl
  | c :: d :: v =>
    obtain ⟨hc, hstart⟩ := List.cons_prefix_cons.1 hstart
    obtain ⟨hd, -⟩ := List.cons_prefix_cons.1 hstart
    refine h.not_infix (List.IsInfix.trans ?_ hv.isInfix)
    rw [← hc, ← hd]
    exact (List.prefix_append ['}', '}'] v).isInfix

/-- The search for the closing braces arrives behind the content. -/
theorem Fits.findUnescaped? (h : kind.Fits content) (rest : List Char) :
    Delimiter.findUnescaped? '\\' ['}', '}'] (some '{')
        ((kind.brackets .standard).opening.toList ++ content.toList ++
          ((kind.brackets .standard).closing.toList ++ ['}', '}'] ++ rest)) =
      some ((kind.brackets .standard).opening.toList ++ content.toList,
        (kind.brackets .standard).closing.toList ++ ['}', '}'] ++ rest) := by
  have hopening : ∀ c ∈ (kind.brackets .standard).opening.toList, c ∉ ['}', '}'] := by
    cases kind <;> decide
  have hmisses := (Delimiter.misses_of_disjoint (by simp) hopening _).append (h.misses
    ((kind.brackets .standard).closing.toList ++ ['}', '}'] ++ rest))
  have hlast : ((kind.brackets .standard).opening.toList ++ content.toList).getLast?.or
      (some '{') ≠ some '\\' := by
    rw [List.getLast?_append]
    cases hcontent : content.toList.getLast? with
    | none => cases kind <;> decide
    | some c => simpa using (h.getLast?_ne c hcontent).2
  have hfits : ['}', '}'] <+: (kind.brackets .standard).closing.toList ++ ['}', '}'] ++ rest := by
    cases kind <;> exact ⟨_, rfl⟩
  rw [Delimiter.findUnescaped?, if_neg (by simp), Delimiter.scan?_append hmisses,
    Delimiter.scan?_of_isPrefix (by simp) hfits hlast]
  simp

/-- The text of a tag with more text behind it. -/
theorem source_around_append (kind : TagKind) (content : String) (rest : List Char) :
    (kind.around .standard content).source ++ rest = ['{', '{'] ++
      ((kind.brackets .standard).opening.toList ++ content.toList ++
        ((kind.brackets .standard).closing.toList ++ ['}', '}'] ++ rest)) := by
  have hopening : Dialect.standard.delimiters.opening.toList = ['{', '{'] := rfl
  have hclosing : Dialect.standard.delimiters.closing.toList = ['}', '}'] := rfl
  rw [around, toList_write, hopening, hclosing]
  simp only [List.append_assoc]

/-- Only a comment whose content starts with two hyphens looks like a block comment. -/
theorem Fits.blockComment?_eq_none (h : kind.Fits content) (rest : List Char) :
    Tag.blockComment? .standard ((kind.around .standard content).source ++ rest) = none := by
  rw [Tag.blockComment?, if_neg]
  intro hstart
  rw [source_around_append] at hstart
  have hstart := (List.prefix_append_right_inj ['{', '{']).1 (List.isPrefixOf_iff_prefix.1 hstart :
    ['{', '{'] ++ ['!', '-', '-'] <+: _)
  cases kind with
  | raw | helper | inclusion | close =>
    obtain ⟨heq, -⟩ := List.cons_prefix_cons.1 hstart
    exact absurd heq (by decide)
  | comment =>
    obtain ⟨-, hstart⟩ := List.cons_prefix_cons.1 hstart
    have hcontent : ['-', '-'] <+: content.toList :=
      Delimiter.isPrefix_of_isPrefix_append (by decide) hstart
    exact h.not_prefix rfl hcontent
  | interpolation =>
    have hcontent : ['!', '-', '-'] <+: content.toList :=
      Delimiter.isPrefix_of_isPrefix_append (by decide) hstart
    obtain ⟨u, hu⟩ := hcontent
    exact h.head?_ne rfl '!' (by simp [← hu]) (by decide)

/-- The opening text of a kind that is tried before does not stand in front of the content. -/
theorem Fits.ofKind?_eq_none (h : kind.Fits content) {other : TagKind}
    (hother : other ∈ kind.earlier) (rest : List Char) :
    Tag.ofKind? .standard ((kind.brackets .standard).opening.toList ++ content.toList) rest other =
      none := by
  rw [Tag.ofKind?, if_neg]
  rintro ⟨hopening, -⟩
  have hstart := List.isPrefixOf_iff_prefix.1 hopening
  cases kind with
  | raw => contradiction
  | helper | inclusion | close | comment =>
    -- A kind is not tried before itself, and the signs of the others differ.
    cases other <;> first
      | exact absurd hother (by decide)
      | exact absurd (List.cons_prefix_cons.1 hstart).1 (by decide)
  | interpolation =>
    have hhead (c : Char) (hc : [c] <+: content.toList) : c ∉ ['{', '#', '>', '/', '!'] := by
      obtain ⟨u, hu⟩ := hc
      exact h.head?_ne rfl c (by simp [← hu])
    cases other with
    | interpolation => contradiction
    | raw | helper | inclusion | close | comment => exact hhead _ hstart (by decide)

theorem ofKind?_around (kind : TagKind) (content : String) (rest : List Char) :
    Tag.ofKind? .standard ((kind.brackets .standard).opening.toList ++ content.toList)
        ((kind.brackets .standard).closing.toList ++ ['}', '}'] ++ rest) kind =
      some (kind.around .standard content) := by
  have hclosing : Dialect.standard.delimiters.closing.toList = ['}', '}'] := rfl
  rw [Tag.ofKind?, if_pos]
  · simp [around, toList_write]
  · simp [List.isPrefixOf_iff_prefix, hclosing]

/-- A tag around a fitting content is read back. -/
theorem Fits.readBack (h : kind.Fits content) :
    (kind.around .standard content).ReadBack .standard where
  isPrefix := by
    rw [around, toList_write]
    exact List.prefix_append _ _
  getLast?_ne := by
    have hclosing : Dialect.standard.delimiters.closing.toList.getLast? = some '}' := rfl
    rw [around, toList_write]
    simp only [List.getLast?_append, hclosing, Option.some_or]
    decide
  read?_append rest := by
    have hblock := h.blockComment?_eq_none rest
    rw [source_around_append] at hblock ⊢
    exact read?_eq_some kind (h.findUnescaped? rest) hblock
      (fun _ hother => h.ofKind?_eq_none hother _) (ofKind?_around kind content rest)

end TagKind

namespace Tag

/-- The block comment of the standard dialect around a body. -/
def blockComment (body : String) : Tag :=
  let brackets := Dialect.standard.wrap Dialect.standard.blockComment
  ⟨.comment, body.toList, (brackets.opening ++ body ++ brackets.closing).toList⟩

theorem source_blockComment_append (body : String) (rest : List Char) :
    (blockComment body).source ++ rest = ['{', '{', '!', '-', '-'] ++
      (body.toList ++ (['-', '-', '}', '}'] ++ rest)) := by
  simp [blockComment, Dialect.wrap, Dialect.standard]

/-- The end of a block comment does not overlap itself. -/
theorem misses_blockComment {body : String} (h : ¬ ['-', '-', '}', '}'] <:+: body.toList)
    (rest : List Char) :
    Delimiter.Misses ['-', '-', '}', '}'] body.toList (['-', '-', '}', '}'] ++ rest) := by
  intro v hv hne hstart
  match v with
  | [] => contradiction
  | [_] | [_, _] | [_, _, _] => simp [List.cons_prefix_cons] at hstart
  | a :: b :: c :: d :: v =>
    refine h (List.IsInfix.trans ?_ hv.isInfix)
    have hstart : ['-', '-', '}', '}'] <+: a :: b :: c :: d :: v := by
      simpa [List.cons_prefix_cons] using hstart
    exact hstart.isInfix

theorem blockComment?_blockComment {body : String}
    (h : ¬ ['-', '-', '}', '}'] <:+: body.toList) (rest : List Char) :
    blockComment? .standard ((blockComment body).source ++ rest) = some (blockComment body) := by
  have hopening : (Dialect.standard.wrap Dialect.standard.blockComment).opening.toList =
      ['{', '{', '!', '-', '-'] := rfl
  have hclosing : (Dialect.standard.wrap Dialect.standard.blockComment).closing.toList =
      ['-', '-', '}', '}'] := rfl
  have hfind := Delimiter.find?_append (by simp) (misses_blockComment h rest)
  rw [source_blockComment_append, blockComment?, hopening, hclosing,
    if_pos (List.isPrefixOf_iff_prefix.2 (List.prefix_append _ _)), List.drop_left, hfind]
  simp [blockComment, hopening, hclosing]

/-- A block comment is read back unless its end occurs in its body. -/
theorem readBack_blockComment {body : String} (h : ¬ ['-', '-', '}', '}'] <:+: body.toList) :
    (blockComment body).ReadBack .standard where
  isPrefix := by
    have hsource := source_blockComment_append body []
    rw [List.append_nil] at hsource
    rw [hsource]
    exact ⟨_, rfl⟩
  getLast?_ne := by
    have hsource := source_blockComment_append body []
    have hlast : ['-', '-', '}', '}'].getLast? = some '}' := rfl
    rw [List.append_nil] at hsource
    rw [hsource, List.append_nil]
    simp only [List.getLast?_append, hlast, Option.some_or]
    decide
  read?_append rest := by
    have hblock := blockComment?_blockComment h rest
    -- Some closing delimiter has to be found before the kinds are tried, be it inside the body.
    have hfound : (Delimiter.scan? '\\' ['}', '}'] (some '{') 0
        (['!', '-', '-'] ++ body.toList ++ ['-'] ++ '-' :: (['}', '}'] ++ rest))).isSome :=
      Delimiter.isSome_scan? (by simp) (by decide) (by decide) (Nat.zero_le _)
    obtain ⟨⟨inner, after⟩, hcut⟩ := Option.isSome_iff_exists.1 hfound
    have hcut : Delimiter.findUnescaped? '\\' ['}', '}'] (some '{')
        (['!', '-', '-'] ++ (body.toList ++ (['-', '-', '}', '}'] ++ rest))) =
          some (inner, after) := by
      simpa [Delimiter.findUnescaped?] using hcut
    rw [source_blockComment_append] at hblock ⊢
    refine (congrArg (Option.bind · _) hcut).trans ?_
    dsimp only [Option.bind_some]
    rw [hblock, Option.some_or]

end Tag

end Stencil
