import Mathlib.Data.List.TakeWhile
import Stencil.Proofs.Lossless

/-!
# Tags as a dialect writes them

A dialect writes a tag between the whole brackets of its kind. The reading looks for the closing
delimiter alone and wants the closing text to start there. So a written tag is read back if its
closing text together with the closing delimiter starts with the closing delimiter, as it does if
the text is empty, and if it is the brace of a raw interpolation before two braces. Any other
closing text ends up in the content of a tag of another kind.

## Main definitions

* `TagKind.write`: the text of a tag of a kind.
* `TagKind.Recognized`: whether a text is read as a single tag of a kind with a key.
* `TagKind.Plain`: a tag around a word in which nothing looks like another tag.
-/

namespace Stencil

/-! ## Words -/

namespace Key

theorem isBlank_eq_false_of_isStart {c : Char} (h : isStart c = true) :
    Text.isBlank c = false := by
  rcases Bool.or_eq_true_iff.1 h with h | h
  · exact Text.isBlank_eq_false_of_isAlphanumeric h
  · obtain rfl := beq_iff_eq.1 h
    decide

theorem isBlockChar_of_isStart {c : Char} (h : isStart c = true) : isBlockChar c = true := by
  simp only [isStart, Bool.or_eq_true] at h
  rcases h with h | h <;> simp [isBlockChar, h]

theorem trim_word {word : List Char} (h : ∀ c ∈ word, isStart c = true) : Text.trim word = word :=
  Text.trim_eq_self fun c hc => isBlank_eq_false_of_isStart (h c hc)

/-- A word is the key of a block, with nothing behind it. -/
theorem splitBlock_word {word : List Char} (h : ∀ c ∈ word, isStart c = true) :
    splitBlock word = (word, []) := by
  have htrim := Text.trimLeft_eq_self fun c hc =>
    isBlank_eq_false_of_isStart (h c (List.mem_of_head? hc))
  have hall : ∀ c ∈ word, isBlockChar c = true := fun c hc => isBlockChar_of_isStart (h c hc)
  rw [splitBlock, htrim]
  cases word with
  | nil => rfl
  | cons c rest =>
    rw [splitWord, if_pos (h c List.mem_cons_self), List.takeWhile_eq_self_iff.2 hall,
      List.dropWhile_eq_nil_iff.2 hall]

end Key

/-! ## Written tags -/

/-- The kind of a tag, none for text. -/
def Node.kind? : Node → Option TagKind
  | text _ => none
  | interpolation .. => some .interpolation
  | raw .. => some .raw
  | inclusion .. => some .inclusion
  | helper .. => some .helper
  | close .. => some .close
  | comment .. => some .comment

/-- A node has the kind of the tag it was read from. -/
theorem Template.kind?_of_nodeOf {position : Position} {opened opened' : Opened} {tag : Tag}
    {node : Node} (h : nodeOf position opened tag = .ok (node, opened')) :
    node.kind? = some tag.kind := by
  cases hkind : tag.kind with
  | close =>
    simp only [nodeOf, hkind] at h
    split at h
    · obtain ⟨rfl, -⟩ := Prod.mk.inj (Except.ok.inj h)
      rfl
    · contradiction
  | raw | helper | inclusion | comment | interpolation =>
    simp only [nodeOf, hkind] at h
    obtain ⟨rfl, -⟩ := Prod.mk.inj (Except.ok.inj h)
    rfl

/-- A text that starts with an opening delimiter starts with the tag that is read there. -/
theorem Token.ofText_of_read?_eq_some {dialect : Dialect} {s : List Char} {t : Tag}
    (hd : dialect.delimiters.opening.toList ≠ []) (hs : dialect.delimiters.opening.toList <+: s)
    (hread : Tag.read? dialect s = some t) :
    ofText dialect s =
      tag t :: ofTextAfter dialect t.source.getLast? (s.drop t.source.length) :=
  ofTextAfter_of_read?_eq_some
    (Delimiter.findUnescaped?_of_isPrefix hd hs (Option.some_ne_none _).symm) hread

namespace TagKind

/-- The text of a tag of a kind. -/
def write (dialect : Dialect) (kind : TagKind) (content : String) : String :=
  let brackets := dialect.wrap (kind.brackets dialect)
  brackets.opening ++ content ++ brackets.closing

/-- The kinds that are tried before a kind. -/
def earlier (kind : TagKind) : List TagKind :=
  order.takeWhile (· ≠ kind)

/-- Whether a text starts like a block comment or like a tag of a kind that is tried before. -/
def Preempted (dialect : Dialect) (kind : TagKind) (text : String) : Prop :=
  (dialect.wrap dialect.blockComment).opening.toList <+: text.toList ∨
    ∃ other ∈ kind.earlier, (dialect.wrap (other.brackets dialect)).opening.toList <+: text.toList

/-- Whether a text is read as a single tag of a kind with a key. -/
def Recognized (dialect : Dialect) (kind : TagKind) (key text : String) : Prop :=
  ∃ node, Template.parse dialect text = .ok [node] ∧ node.kind? = some kind ∧
    node.key? = some key ∧ node.span? = some ⟨0, text.utf8ByteSize⟩

instance (dialect : Dialect) (kind : TagKind) (text : String) :
    Decidable (Preempted dialect kind text) :=
  inferInstanceAs (Decidable (_ ∨ _))

/-- A tag of a kind around a word, up to whose end nothing looks like another tag. -/
structure Plain (dialect : Dialect) (kind : TagKind) (word : String) : Prop where
  kind_mem : kind ∈ [raw, helper, inclusion, comment]
  opening_ne : dialect.delimiters.opening ≠ ""
  closing_ne : dialect.delimiters.closing ≠ ""
  word_ne : word ≠ ""
  isStart : ∀ c ∈ word.toList, Key.isStart c = true
  escape_not_mem : dialect.escape ∉ word.toList
  /-- No closing delimiter starts before the end of the word. -/
  not_mem_closing : ∀ c ∈ (kind.brackets dialect).opening.toList ++ word.toList,
    c ∉ dialect.delimiters.closing.toList
  not_preempted : ¬ Preempted dialect kind (kind.write dialect word)

variable {dialect : Dialect} {kind : TagKind} {word : String}

theorem order_eq (kind : TagKind) : ∃ later, order = kind.earlier ++ kind :: later := by
  cases kind <;> exact ⟨_, rfl⟩

/-- A tag is of the first kind that accepts what stands before the closing delimiter and from it
on. -/
theorem read?_eq_some (kind : TagKind) {s inner rest : List Char} {tag : Tag}
    (hcut : Delimiter.findUnescaped? dialect.escape dialect.delimiters.closing.toList
      dialect.delimiters.opening.toList.getLast?
      (s.drop dialect.delimiters.opening.toList.length) = some (inner, rest))
    (hblock : Tag.blockComment? dialect s = none)
    (hearlier : ∀ other ∈ kind.earlier, Tag.ofKind? dialect inner rest other = none)
    (hkind : Tag.ofKind? dialect inner rest kind = some tag) : Tag.read? dialect s = some tag := by
  obtain ⟨later, horder⟩ := order_eq kind
  simp only [Tag.read?, hcut, Option.bind_some, hblock, Option.none_or]
  rw [horder, List.findSome?_append, List.findSome?_cons, hkind,
    List.findSome?_eq_none_iff.2 hearlier, Option.none_or]

theorem toList_write (dialect : Dialect) (kind : TagKind) (word : String) :
    (kind.write dialect word).toList = dialect.delimiters.opening.toList ++
      (((kind.brackets dialect).opening.toList ++ word.toList) ++
        ((kind.brackets dialect).closing.toList ++ dialect.delimiters.closing.toList)) := by
  simp [write, Dialect.wrap]

namespace Plain

/-- The search for the closing delimiter arrives at the closing text of the tag. -/
theorem exists_scan? (h : Plain dialect kind word) :
    ∃ previous, previous ≠ some dialect.escape ∧
      Delimiter.findUnescaped? dialect.escape dialect.delimiters.closing.toList
          dialect.delimiters.opening.toList.getLast?
          ((kind.write dialect word).toList.drop dialect.delimiters.opening.toList.length) =
        (Delimiter.scan? dialect.escape dialect.delimiters.closing.toList previous 0
          ((kind.brackets dialect).closing.toList ++ dialect.delimiters.closing.toList)).map
          fun (before, rest) =>
            ((kind.brackets dialect).opening.toList ++ word.toList ++ before, rest) := by
  have hclosing : dialect.delimiters.closing.toList ≠ [] := by simpa using h.closing_ne
  have hword : word.toList ≠ [] := by simpa using h.word_ne
  refine ⟨some (word.toList.getLast hword), fun heq => ?_, ?_⟩
  · exact h.escape_not_mem (Option.some.inj heq ▸ List.getLast_mem hword)
  · have hlast : ((kind.brackets dialect).opening.toList ++ word.toList).getLast? =
        some (word.toList.getLast hword) := by
      rw [List.getLast?_append, List.getLast?_eq_some_getLast hword, Option.some_or]
    rw [toList_write, List.drop_left, Delimiter.findUnescaped?, if_neg (by simpa using hclosing),
      Delimiter.scan?_append_of_disjoint hclosing h.not_mem_closing, hlast, Option.some_or]

theorem blockComment?_eq_none (h : Plain dialect kind word) :
    Tag.blockComment? dialect (kind.write dialect word).toList = none := by
  rw [Tag.blockComment?, if_neg]
  exact fun hstart => h.not_preempted (.inl (List.isPrefixOf_iff_prefix.1 hstart))

/-- The kinds that are tried before decline what stands before the closing text. -/
theorem ofKind?_eq_none_of_mem_earlier (h : Plain dialect kind word) {other : TagKind}
    (hother : other ∈ kind.earlier) (rest : List Char) :
    Tag.ofKind? dialect ((kind.brackets dialect).opening.toList ++ word.toList) rest other =
      none := by
  rw [Tag.ofKind?, if_neg]
  rintro ⟨hopening, -⟩
  refine h.not_preempted (.inr ⟨other, hother, ?_⟩)
  rw [toList_write, Dialect.wrap, String.toList_append, List.prefix_append_right_inj]
  exact (List.isPrefixOf_iff_prefix.1 hopening).trans (List.prefix_append _ _)

/-- The tag is read back if its closing text starts with the closing delimiter. -/
theorem read?_write (h : Plain dialect kind word)
    (hfits : dialect.delimiters.closing.toList <+:
      (kind.brackets dialect).closing.toList ++ dialect.delimiters.closing.toList) :
    Tag.read? dialect (kind.write dialect word).toList =
      some ⟨kind, word.toList, (kind.write dialect word).toList⟩ := by
  obtain ⟨previous, hprevious, hcut⟩ := h.exists_scan?
  rw [Delimiter.scan?_of_isPrefix (by simpa using h.closing_ne) hfits hprevious] at hcut
  have hcut := hcut.trans (Option.map_some ..)
  refine read?_eq_some kind hcut h.blockComment?_eq_none ?_ ?_
  · intro other hother
    rw [List.append_nil]
    exact h.ofKind?_eq_none_of_mem_earlier hother _
  · simp [Tag.ofKind?, toList_write]

/-- Otherwise the closing delimiter is found too late, and not all of the closing text is left. -/
theorem kind_ne_of_read? (h : Plain dialect kind word)
    (hfits : ¬ dialect.delimiters.closing.toList <+:
      (kind.brackets dialect).closing.toList ++ dialect.delimiters.closing.toList)
    {tag : Tag} (hread : Tag.read? dialect (kind.write dialect word).toList = some tag) :
    tag.kind ≠ kind := by
  intro hkind
  obtain ⟨previous, -, hcut⟩ := h.exists_scan?
  simp only [Tag.read?, hcut, h.blockComment?_eq_none, Option.none_or, Option.bind_eq_some_iff,
    Option.map_eq_some_iff] at hread
  obtain ⟨_, ⟨⟨before, rest⟩, hscan, rfl⟩, hread⟩ := hread
  obtain ⟨other, -, hother⟩ := List.exists_of_findSome?_eq_some hread
  rw [Tag.ofKind?] at hother
  split at hother
  · next hp =>
    obtain rfl : other = kind := (congrArg Tag.kind (Option.some.inj hother)).trans hkind
    have hle := (List.isPrefixOf_iff_prefix.1 hp.2).length_le
    exact absurd hle (Delimiter.length_lt_of_scan? hfits hscan).not_ge
  · contradiction

end Plain

/-- The node of a tag around a word has the word as its key. -/
theorem exists_nodeOf_word (hkind : kind ∈ [raw, helper, inclusion, comment])
    (hword : ∀ c ∈ word.toList, Key.isStart c = true) (source : List Char) :
    ∃ node opened, Template.nodeOf {} [] ⟨kind, word.toList, source⟩ = .ok (node, opened) ∧
      node.key? = some word := by
  have htrim := Key.trim_word hword
  have hsplit := Key.splitBlock_word hword
  cases kind with
  | raw | comment | helper | inclusion =>
    simp [Template.nodeOf, Node.key?, htrim, hsplit]
  | close | interpolation => simp at hkind

/-- A text that is read as one tag is recognized with the key of its node. -/
theorem recognized_of_read? (hd : dialect.delimiters.opening ≠ "") {key text : String}
    {content : List Char} {node : Node} {opened : Template.Opened}
    (hs : dialect.delimiters.opening.toList <+: text.toList)
    (hread : Tag.read? dialect text.toList = some ⟨kind, content, text.toList⟩)
    (hnode : Template.nodeOf {} [] ⟨kind, content, text.toList⟩ = .ok (node, opened))
    (hkey : node.key? = some key) : Recognized dialect kind key text := by
  have htokens := Token.ofText_of_read?_eq_some (by simpa using hd) hs hread
  rw [List.drop_length, Token.ofTextAfter_of_findUnescaped?_eq_none] at htokens
  · refine ⟨node, ?_, Template.kind?_of_nodeOf hnode, hkey, ?_⟩
    · rw [Template.parse, htokens]
      exact Template.nodesOf_tag_eq_ok_iff.2 ⟨node, opened, [], hnode, rfl, rfl⟩
    · rw [(Template.source_of_nodeOf hnode).2, Position.offset_after]
      simp
  · simp [Delimiter.findUnescaped?, Delimiter.scan?]

/-- A text that is read as a tag of another kind is not recognized. -/
theorem not_recognized_of_read? (hd : dialect.delimiters.opening ≠ "") {key text : String}
    (hs : dialect.delimiters.opening.toList <+: text.toList)
    (hread : ∀ tag, Tag.read? dialect text.toList = some tag → tag.kind ≠ kind) :
    ¬ Recognized dialect kind key text := by
  rintro ⟨node, hparse, hkind, -⟩
  cases htag : Tag.read? dialect text.toList with
  | none =>
    have hstart := Delimiter.findUnescaped?_of_isPrefix (by simpa using hd) hs
      (Option.some_ne_none dialect.escape).symm
    rw [Template.parse, Token.ofText, Token.ofTextAfter_of_read?_eq_none hstart htag,
      Token.ofPlain] at hparse
    split at hparse
    · exact List.cons_ne_nil _ _ (Except.ok.inj hparse).symm
    · obtain ⟨_, -, heq⟩ := Template.nodesOf_text_eq_ok_iff.1 hparse
      obtain ⟨rfl, -⟩ := List.cons.inj heq
      contradiction
  | some tag =>
    rw [Template.parse, Token.ofText_of_read?_eq_some (by simpa using hd) hs htag] at hparse
    obtain ⟨_, _, _, hnode, -, heq⟩ := Template.nodesOf_tag_eq_ok_iff.1 hparse
    obtain ⟨rfl, -⟩ := List.cons.inj heq
    rw [Template.kind?_of_nodeOf hnode] at hkind
    exact hread tag htag (Option.some.inj hkind)

/-- A written tag is read back if and only if its closing text and the closing delimiter start with
the closing delimiter. A closing text without characters of the delimiter has to be empty for
that. -/
theorem recognized_write_iff (h : Plain dialect kind word) :
    (Recognized dialect kind word (kind.write dialect word) ↔
      dialect.delimiters.closing.toList <+:
        (kind.brackets dialect).closing.toList ++ dialect.delimiters.closing.toList) ∧
    ((∀ c ∈ (kind.brackets dialect).closing.toList, c ∉ dialect.delimiters.closing.toList) →
      (Recognized dialect kind word (kind.write dialect word) ↔
        (kind.brackets dialect).closing = "")) := by
  have hs : dialect.delimiters.opening.toList <+: (kind.write dialect word).toList :=
    toList_write dialect kind word ▸ List.prefix_append _ _
  have hiff : Recognized dialect kind word (kind.write dialect word) ↔
      dialect.delimiters.closing.toList <+:
        (kind.brackets dialect).closing.toList ++ dialect.delimiters.closing.toList := by
    constructor
    · intro hrecognized
      by_contra hfits
      exact not_recognized_of_read? h.opening_ne hs (fun _ => h.kind_ne_of_read? hfits) hrecognized
    · intro hfits
      obtain ⟨node, opened, hnode, hkey⟩ := exists_nodeOf_word h.kind_mem h.isStart _
      exact recognized_of_read? h.opening_ne hs (h.read?_write hfits) hnode hkey
  refine ⟨hiff, fun hdisjoint => hiff.trans ⟨fun hfits => ?_, fun hempty => by simp [hempty]⟩⟩
  exact String.toList_eq_nil_iff.1
    (Delimiter.eq_nil_of_isPrefix_append (by simpa using h.closing_ne) hdisjoint hfits)

/-- The braces of the standard dialect meet, those of a raw interpolation and other delimiters do
not. -/
theorem recognized_write_iff_raw :
    Recognized .standard .raw "x" "\x7b\x7b\x7bx\x7d\x7d\x7d" ∧
      ¬ Recognized { delimiters := ⟨"<%", "%>"⟩ } .raw "x" "<%\x7bx\x7d%>" := by
  have hstandard : Plain .standard .raw "x" := by constructor <;> decide
  have hother : Plain { delimiters := ⟨"<%", "%>"⟩ } .raw "x" := by constructor <;> decide
  exact ⟨(recognized_write_iff hstandard).1.2 (by decide),
    fun h => absurd (((recognized_write_iff hother).2 (by decide)).1 h) (by decide)⟩

/-- Within other delimiters a raw interpolation of the standard dialect is read as an interpolation
without a key. -/
theorem write_raw_downgraded :
    let dialect : Dialect := { delimiters := ⟨"<%", "%>"⟩ }
    let text := "<%\x7bx\x7d%>"
    TagKind.raw.write dialect "x" = text ∧ Plain dialect .raw "x" ∧
      (∀ c ∈ dialect.raw.opening.toList ++ dialect.raw.closing.toList ++ "x".toList,
        c ∉ dialect.delimiters.opening.toList ++ dialect.delimiters.closing.toList ∧
          c ≠ dialect.escape) ∧
      Template.parse dialect text = .ok [.interpolation "" text ⟨0, 7⟩ (some "\x7bx\x7d")] ∧
      ¬ Recognized dialect .raw "x" text := by
  intro dialect text
  have hparse : Template.parse dialect text =
      .ok [.interpolation "" text ⟨0, 7⟩ (some "\x7bx\x7d")] := by decide +kernel
  refine ⟨by decide, by constructor <;> decide, by decide, hparse, ?_⟩
  rintro ⟨node, hnode, hkind, -⟩
  obtain ⟨rfl, -⟩ := List.cons.inj (Except.ok.inj (hparse.symm.trans hnode))
  exact absurd hkind (by decide)

end TagKind

end Stencil
