import Mathlib.Data.List.Chain
import Mathlib.Data.List.TakeWhile
import Stencil.Proofs.Reading

/-!
# The grammar of the standard dialect

A template of the standard dialect may be put together from texts and tags of all kinds, with plain
keys and contents, in any order in which no two texts meet and every close finds an open block.
Such a template parses into one node for each item, with the key and the arguments of the item, its
source, its place in the template, and the number of blocks with its key that are open there.

## Main definitions

* `Item`, `Item.source`: what a template is put together from, and how it is written.
* `Item.WellFormed`, `Item.Grammatical`: the conditions on single items and on sequences.
* `Item.node`: the node of an item behind others.
-/

namespace Stencil

/-! ## Keys -/

namespace Key

/-- Whether `s` is a key: the start of one, and characters of a class behind it. -/
def isKey (isKeyChar : Char → Bool) : List Char → Bool
  | [] => false
  | c :: s => isStart c && s.all isKeyChar

/-- Whether `s` is the key of an interpolation, which may have a dollar sign in front. -/
def isPathKey : List Char → Bool
  | '$' :: s => isKey isPathChar s
  | s => isKey isPathChar s

variable {isKeyChar : Char → Bool} {key rest : List Char}

theorem isPathChar_of_isStart {c : Char} (h : isStart c = true) : isPathChar c = true := by
  simp only [isStart, Bool.or_eq_true] at h
  rcases h with h | h <;> simp [isPathChar, h]

theorem forall_of_isKey (hstart : ∀ c, isStart c = true → isKeyChar c = true)
    (hkey : isKey isKeyChar key = true) : ∀ d ∈ key, isKeyChar d = true := by
  cases key with
  | nil => contradiction
  | cons c s =>
    obtain ⟨hc, hs⟩ := Bool.and_eq_true_iff.1 hkey
    exact List.forall_mem_cons.2 ⟨hstart c hc, List.all_eq_true.1 hs⟩

theorem forall_of_isPathKey (hkey : isPathKey key = true) :
    ∀ d ∈ key, d = '$' ∨ isPathChar d = true := by
  unfold isPathKey at hkey
  split at hkey
  · next s =>
    have hall := forall_of_isKey (fun _ => isPathChar_of_isStart) hkey
    exact List.forall_mem_cons.2 ⟨.inl rfl, fun d hd => .inr (hall d hd)⟩
  · exact fun d hd => .inr (forall_of_isKey (fun _ => isPathChar_of_isStart) hkey d hd)

/-- A key is read up to the first character that cannot belong to it. -/
theorem splitWord_append (hstart : ∀ c, isStart c = true → isKeyChar c = true)
    (hkey : isKey isKeyChar key = true) (hrest : ∀ d ∈ rest.head?, isKeyChar d = false) :
    splitWord isKeyChar (key ++ rest) = (key, rest) := by
  cases key with
  | nil => contradiction
  | cons c s =>
    have hc : isStart c = true := (Bool.and_eq_true_iff.1 hkey).1
    have hall := forall_of_isKey hstart hkey
    have hstop : rest.takeWhile isKeyChar = [] ∧ rest.dropWhile isKeyChar = rest := by
      cases rest with
      | nil => exact ⟨rfl, rfl⟩
      | cons d rest => simp [hrest d rfl]
    rw [List.cons_append, splitWord, if_pos hc, ← List.cons_append,
      List.takeWhile_append_of_pos hall, List.dropWhile_append_of_pos hall, hstop.1, hstop.2,
      List.append_nil]

theorem trimLeft_of_isKey (h : isKey isKeyChar key = true) (rest : List Char) :
    Text.trimLeft (key ++ rest) = key ++ rest := by
  refine Text.trimLeft_eq_self fun c hc => ?_
  cases key with
  | nil => contradiction
  | cons d s =>
    obtain rfl := Option.some.inj hc
    exact isBlank_eq_false_of_isStart (Bool.and_eq_true_iff.1 h).1

theorem splitBlock_append (hkey : isKey isBlockChar key = true)
    (hrest : ∀ d ∈ rest.head?, isBlockChar d = false) : splitBlock (key ++ rest) = (key, rest) := by
  rw [splitBlock, trimLeft_of_isKey hkey,
    splitWord_append (fun _ => isBlockChar_of_isStart) hkey hrest]

theorem splitPath_append (hkey : isPathKey key = true)
    (hrest : ∀ d ∈ rest.head?, isPathChar d = false) : splitPath (key ++ rest) = (key, rest) := by
  unfold isPathKey at hkey
  split at hkey
  · next s =>
    have hblank : Text.isBlank '$' = false := by decide
    have htrim : Text.trimLeft ('$' :: s ++ rest) = '$' :: (s ++ rest) := by
      rw [Text.trimLeft, List.cons_append, List.dropWhile_cons_of_neg (by simp [hblank])]
    have hsplit := splitWord_append (fun _ => isPathChar_of_isStart) hkey hrest
    simp only [splitPath, htrim, hsplit]
    cases s with
    | nil => contradiction
    | cons c s => rfl
  · next hdollar =>
    have hsplit := splitWord_append (fun _ => isPathChar_of_isStart) hkey hrest
    rw [splitPath, trimLeft_of_isKey hkey]
    split
    · next heq =>
      cases key with
      | nil => contradiction
      | cons c s =>
        obtain ⟨rfl, -⟩ := List.cons.inj heq
        exact absurd rfl (hdollar s)
    · exact hsplit

/-- A key of an interpolation does not start like a tag of another kind. -/
theorem head?_of_isPathKey (hkey : isPathKey key = true) :
    ∀ c ∈ (key ++ rest).head?, c ∉ ['{', '#', '>', '/', '!'] := by
  have hsigns : ∀ c ∈ ['{', '#', '>', '/', '!'], isStart c = false := by decide
  unfold isPathKey at hkey
  split at hkey
  · rintro _ ⟨⟩
    decide
  · cases key with
    | nil => contradiction
    | cons c s =>
      rintro _ ⟨⟩ hmem
      rw [isKey, hsigns c hmem] at hkey
      contradiction

theorem isBlank_eq_false_of_isBlockChar {c : Char} (h : isBlockChar c = true) :
    Text.isBlank c = false := by
  simp only [isBlockChar, Bool.or_eq_true, beq_iff_eq] at h
  rcases h with ((h | rfl) | rfl) | rfl
  · exact Text.isBlank_eq_false_of_isAlphanumeric h
  all_goals decide

theorem trim_of_isKey (hkey : isKey isBlockChar key = true) : Text.trim key = key :=
  Text.trim_eq_self fun d hd =>
    isBlank_eq_false_of_isBlockChar (forall_of_isKey (fun _ => isBlockChar_of_isStart) hkey d hd)

end Key

/-! ## Items -/

/-- A text or a tag, with what its author writes between the braces. -/
inductive Item where
  | text (text : String)
  | interpolation (key : String) (arguments : Option String)
  | raw (content : String)
  | helper (key : String) (arguments : Option String)
  | inclusion (key : String) (arguments : Option String)
  | close (key : String)
  | comment (content : String)
  | blockComment (body : String)
deriving DecidableEq, Repr

namespace Item

/-- A key and the arguments behind it, if there are any. -/
def content (key : String) (arguments : Option String) : String :=
  match arguments with
  | none => key
  | some s => key ++ " " ++ s

/-- How an item is written. -/
def source : Item → String
  | text s => s
  | interpolation key arguments => "\x7b\x7b" ++ content key arguments ++ "\x7d\x7d"
  | raw s => "\x7b\x7b\x7b" ++ s ++ "\x7d\x7d\x7d"
  | helper key arguments => "\x7b\x7b#" ++ content key arguments ++ "\x7d\x7d"
  | inclusion key arguments => "\x7b\x7b>" ++ content key arguments ++ "\x7d\x7d"
  | close key => "\x7b\x7b/" ++ key ++ "\x7d\x7d"
  | comment s => "\x7b\x7b!" ++ s ++ "\x7d\x7d"
  | blockComment body => "\x7b\x7b!--" ++ body ++ "--\x7d\x7d"

/-- Items as they stand one behind the other. -/
def sources (items : List Item) : String :=
  String.join (items.map source)

def isText : Item → Bool
  | text _ => true
  | _ => false

/-- The key of the block that an item opens. -/
def opened? : Item → Option String
  | helper key _ | inclusion key _ => some key
  | _ => none

/-- The key of the block that an item ends. -/
def closed? : Item → Option String
  | close key => some key
  | _ => none

/-- The number of blocks with a key that are open behind items. -/
def depth (key : String) (items : List Item) : Nat :=
  (items.filterMap opened?).count key - (items.filterMap closed?).count key

/-- Whether a text is trimmed and free of braces and of the escape character. -/
def Inert (s : String) : Prop :=
  Text.trim s.toList = s.toList ∧ ∀ c ∈ s.toList, c ∉ ['{', '}', '\\']

theorem Inert.ne {s : String} (h : Inert s) {c : Char} (hc : c ∈ s.toList) :
    c ≠ '}' ∧ c ≠ '\\' := by
  simpa using (not_or.1 (mt List.mem_cons.2 (h.2 c hc))).2

/-- Whether the parts of an item are what its kind asks for. -/
def WellFormed : Item → Prop
  | text s => s ≠ "" ∧ ∀ c ∈ s.toList, c ∉ ['{', '\\']
  | interpolation key arguments =>
    Key.isPathKey key.toList = true ∧ ∀ s ∈ arguments, s ≠ "" ∧ Inert s
  | helper key arguments | inclusion key arguments =>
    Key.isKey Key.isBlockChar key.toList = true ∧ ∀ s ∈ arguments, s ≠ "" ∧ Inert s
  | close key => Key.isKey Key.isBlockChar key.toList = true
  | raw s => Inert s
  | comment s => Inert s ∧ ¬ ['-', '-'] <+: s.toList
  | blockComment body => ¬ ['-', '-', '}', '}'] <:+: body.toList

instance (s : String) : Decidable (Inert s) :=
  inferInstanceAs (Decidable (_ ∧ _))

instance : DecidablePred WellFormed
  | text _ => inferInstanceAs (Decidable (_ ∧ _))
  | interpolation .. | helper .. | inclusion .. => inferInstanceAs (Decidable (_ ∧ _))
  | close _ => inferInstanceAs (Decidable (_ = _))
  | raw _ => inferInstanceAs (Decidable (Inert _))
  | comment _ => inferInstanceAs (Decidable (_ ∧ _))
  | blockComment _ => inferInstanceAs (Decidable (¬ _))

/-- Whether items are well formed, no two texts meet, and every close finds an open block. -/
structure Grammatical (items : List Item) : Prop where
  wellFormed : ∀ item ∈ items, item.WellFormed
  isChain : items.IsChain fun a b => ¬ (a.isText ∧ b.isText)
  depth_pos : ∀ i (h : i < items.length), ∀ key ∈ items[i].closed?, 0 < depth key (items.take i)

/-- The node of an item behind others. -/
def node (before : List Item) (item : Item) : Node :=
  let start := (sources before).utf8ByteSize
  let span : Span := ⟨start, start + item.source.utf8ByteSize⟩
  match item with
  | text s => .text s
  | interpolation key arguments => .interpolation key item.source span arguments
  | raw s => .raw s item.source span
  | helper key arguments => .helper key item.source span (depth key before) arguments
  | inclusion key arguments => .inclusion key item.source span (depth key before) arguments
  | close key => .close key item.source span (depth key before - 1)
  | comment s => .comment s item.source span
  | blockComment body => .comment (String.ofList (Text.trim body.toList)) item.source span

/-- The token of an item. -/
def token : Item → Token
  | text s => .text s.toList
  | interpolation key arguments =>
    .tag (TagKind.interpolation.around .standard (content key arguments))
  | raw s => .tag (TagKind.raw.around .standard s)
  | helper key arguments => .tag (TagKind.helper.around .standard (content key arguments))
  | inclusion key arguments => .tag (TagKind.inclusion.around .standard (content key arguments))
  | close key => .tag (TagKind.close.around .standard key)
  | comment s => .tag (TagKind.comment.around .standard s)
  | blockComment body => .tag (.blockComment body)

variable {key : String} {arguments : Option String} {item : Item} {before items : List Item}

theorem source_token (item : Item) : item.token.source = item.source.toList := by
  cases item <;> simp [token, source, Token.source, TagKind.around, TagKind.write, Dialect.wrap,
    TagKind.brackets, Dialect.standard, Tag.blockComment]

theorem eq_text_of_token {s : List Char} (h : item.token = .text s) :
    item = text (String.ofList s) := by
  cases item with
  | text t =>
    obtain rfl := Token.text.inj h
    rw [String.ofList_toList]
  | _ => contradiction

theorem isText_token (item : Item) : item.token.isText = item.isText := by
  cases item <;> rfl

/-! ## Contents -/

/-- What stands behind a key. -/
def behind (arguments : Option String) : List Char :=
  match arguments with
  | none => []
  | some s => ' ' :: s.toList

theorem toList_content (key : String) (arguments : Option String) :
    (content key arguments).toList = key.toList ++ behind arguments := by
  cases arguments <;> simp [content, behind]

theorem arguments?_behind (h : ∀ s ∈ arguments, s ≠ "" ∧ Text.trim s.toList = s.toList) :
    Key.arguments? (behind arguments) = arguments := by
  cases arguments with
  | none => rfl
  | some s =>
    obtain ⟨hne, htrim⟩ := h s rfl
    have hblank : Text.trim (' ' :: s.toList) = Text.trim s.toList := rfl
    have hnil : s.toList.isEmpty = false := by simpa using hne
    simp [Key.arguments?, behind, hblank, htrim, hnil]

theorem head?_behind {isKeyChar : Char → Bool} (h : isKeyChar ' ' = false)
    (arguments : Option String) : ∀ d ∈ (behind arguments).head?, isKeyChar d = false := by
  cases arguments <;> simp [behind, h]

theorem splitBlock_content (hkey : Key.isKey Key.isBlockChar key.toList = true)
    (arguments : Option String) :
    Key.splitBlock (content key arguments).toList = (key.toList, behind arguments) := by
  rw [toList_content]
  exact Key.splitBlock_append hkey (head?_behind (by decide) arguments)

/-- What a key and its arguments are free of. -/
theorem forall_mem_content (hkey : ∀ c ∈ key.toList, c ≠ '}' ∧ c ≠ '\\')
    (harguments : ∀ s ∈ arguments, s ≠ "" ∧ Inert s) :
    ∀ c ∈ (content key arguments).toList, c ≠ '}' ∧ c ≠ '\\' := by
  rw [toList_content]
  intro c hc
  rcases List.mem_append.1 hc with hc | hc
  · exact hkey c hc
  · cases arguments with
    | none => contradiction
    | some s =>
      rcases List.mem_cons.1 hc with rfl | hc
      · decide
      · exact (harguments s rfl).2.ne hc

theorem forall_mem_blockKey (hkey : Key.isKey Key.isBlockChar key.toList = true) :
    ∀ c ∈ key.toList, c ≠ '}' ∧ c ≠ '\\' := by
  have hneg : Key.isBlockChar '}' = false ∧ Key.isBlockChar '\\' = false := by decide
  intro c hc
  have hchar := Key.forall_of_isKey (fun _ => Key.isBlockChar_of_isStart) hkey c hc
  exact ⟨fun heq => by simp [heq, hneg.1] at hchar, fun heq => by simp [heq, hneg.2] at hchar⟩

theorem forall_mem_pathKey (hkey : Key.isPathKey key.toList = true) :
    ∀ c ∈ key.toList, c ≠ '}' ∧ c ≠ '\\' := by
  have hneg : Key.isPathChar '}' = false ∧ Key.isPathChar '\\' = false := by decide
  intro c hc
  rcases Key.forall_of_isPathKey hkey c hc with rfl | hchar
  · decide
  · exact ⟨fun heq => by simp [heq, hneg.1] at hchar, fun heq => by simp [heq, hneg.2] at hchar⟩

/-- The token of a well-formed item is read back. -/
theorem WellFormed.readBack (h : item.WellFormed) : item.token.ReadBack .standard := by
  cases item with
  | text s =>
    obtain ⟨hne, hall⟩ := h
    exact ⟨by simpa using hne, fun c hc => by simpa [Dialect.standard] using hall c hc⟩
  | interpolation key arguments =>
    obtain ⟨hkey, harguments⟩ := h
    have hcontent := forall_mem_content (forall_mem_pathKey hkey) harguments
    refine TagKind.Fits.readBack (TagKind.fits_of_forall hcontent (fun _ => ?_) (by simp))
    rw [toList_content]
    exact Key.head?_of_isPathKey hkey
  | raw s =>
    exact TagKind.Fits.readBack (TagKind.fits_of_forall (fun _ => h.ne) (by simp) (by simp))
  | helper key arguments | inclusion key arguments =>
    obtain ⟨hkey, harguments⟩ := h
    have hcontent := forall_mem_content (forall_mem_blockKey hkey) harguments
    exact TagKind.Fits.readBack (TagKind.fits_of_forall hcontent (by simp) (by simp))
  | close key =>
    exact TagKind.Fits.readBack (TagKind.fits_of_forall (forall_mem_blockKey h) (by simp) (by simp))
  | comment s =>
    obtain ⟨hinert, hhyphens⟩ := h
    exact TagKind.Fits.readBack
      (TagKind.fits_of_forall (fun _ => hinert.ne) (by simp) fun _ => hhyphens)
  | blockComment body => exact Tag.readBack_blockComment h

/-! ## Nodes -/

/-- Whether the open blocks that a reading has noted are those that items leave open. -/
def Leaves (items : List Item) (opened : Template.Opened) : Prop :=
  ∀ key, opened.count key + (items.filterMap closed?).count key =
    (items.filterMap opened?).count key

variable {opened : Template.Opened} {position : Position}

theorem Leaves.depth_eq (h : Leaves before opened) (key : String) :
    depth key before = opened.count key := by
  have := h key
  unfold depth
  omega

theorem leaves_nil : Leaves [] [] :=
  fun _ => rfl

/-- A block is open behind the item that opens it. -/
theorem Leaves.concat_of_opened? (h : Leaves before opened) (hopens : item.opened? = some key)
    (hcloses : item.closed? = none) : Leaves (before ++ [item]) (key :: opened) := by
  intro other
  have := h other
  simp only [List.filterMap_append, List.filterMap_cons, List.filterMap_nil, hopens, hcloses,
    List.count_append, List.count_cons, List.count_nil]
  omega

/-- An open block is not open any more behind the item that ends it. -/
theorem Leaves.concat_of_closed? (h : Leaves before opened) (hopens : item.opened? = none)
    (hcloses : item.closed? = some key) (hpos : key ∈ opened) :
    Leaves (before ++ [item]) (opened.erase key) := by
  intro other
  have := h other
  have hcount := List.count_pos_iff.2 hpos
  simp only [List.filterMap_append, List.filterMap_cons, List.filterMap_nil, hopens, hcloses,
    List.count_append, List.count_cons, List.count_nil, List.count_erase]
  by_cases hkey : key = other <;> grind

theorem Leaves.concat (h : Leaves before opened) (hopens : item.opened? = none)
    (hcloses : item.closed? = none) : Leaves (before ++ [item]) opened := by
  intro other
  simpa [hopens, hcloses] using h other

/-- The node of a tag is that of its item. -/
theorem exists_nodeOf {t : Tag} (ht : item.token = .tag t) (h : item.WellFormed)
    (hoffset : position.offset = (sources before).utf8ByteSize) (hopened : Leaves before opened)
    (hclose : ∀ key ∈ item.closed?, 0 < depth key before) :
    ∃ opened', Template.nodeOf position opened t = .ok (item.node before, opened') ∧
      Leaves (before ++ [item]) opened' := by
  have hsource : String.ofList t.source = item.source := by
    have := source_token item
    rw [ht] at this
    rw [← String.ofList_toList (s := item.source), ← this]
    rfl
  have hspan : (⟨position.offset, (position.after t.source).offset⟩ : Span) =
      ⟨(sources before).utf8ByteSize,
        (sources before).utf8ByteSize + item.source.utf8ByteSize⟩ := by
    rw [Position.offset_after, hsource, hoffset]
  cases item with
  | text s => contradiction
  | interpolation key arguments =>
    obtain rfl := Token.tag.inj ht
    obtain ⟨hkey, harguments⟩ := h
    have harguments := arguments?_behind fun s hs => ⟨(harguments s hs).1, (harguments s hs).2.1⟩
    have hsplit : Key.splitPath (content key arguments).toList = (key.toList, behind arguments) :=
      toList_content key arguments ▸
        Key.splitPath_append hkey (head?_behind (by decide) arguments)
    refine ⟨opened, ?_, hopened.concat rfl rfl⟩
    rw [Template.nodeOf, hsource, hspan]
    simp only [TagKind.around, hsplit, String.ofList_toList, harguments]
    rfl
  | raw s =>
    obtain rfl := Token.tag.inj ht
    refine ⟨opened, ?_, hopened.concat rfl rfl⟩
    rw [Template.nodeOf, hsource, hspan]
    simp only [TagKind.around, h.1, String.ofList_toList]
    rfl
  | helper key arguments | inclusion key arguments =>
    obtain rfl := Token.tag.inj ht
    obtain ⟨hkey, harguments⟩ := h
    have harguments := arguments?_behind fun s hs => ⟨(harguments s hs).1, (harguments s hs).2.1⟩
    refine ⟨key :: opened, ?_, hopened.concat_of_opened? rfl rfl⟩
    rw [Template.nodeOf, hsource, hspan]
    simp only [TagKind.around, splitBlock_content hkey, String.ofList_toList, harguments]
    rw [node, hopened.depth_eq]
  | close key =>
    obtain rfl := Token.tag.inj ht
    have hmem : key ∈ opened := by
      rw [← List.count_pos_iff, ← hopened.depth_eq]
      exact hclose key rfl
    refine ⟨opened.erase key, ?_, hopened.concat_of_closed? rfl rfl hmem⟩
    rw [Template.nodeOf, hsource, hspan]
    simp only [TagKind.around, Key.trim_of_isKey h, String.ofList_toList, if_pos hmem]
    rw [node, hopened.depth_eq, List.count_erase_self]
  | comment s =>
    obtain rfl := Token.tag.inj ht
    refine ⟨opened, ?_, hopened.concat rfl rfl⟩
    rw [Template.nodeOf, hsource, hspan]
    simp only [TagKind.around, h.1.1, String.ofList_toList]
    rfl
  | blockComment body =>
    obtain rfl := Token.tag.inj ht
    refine ⟨opened, ?_, hopened.concat rfl rfl⟩
    rw [Template.nodeOf, hsource, hspan]
    rfl

@[simp] theorem sources_concat (before : List Item) (item : Item) :
    sources (before ++ [item]) = sources before ++ item.source := by
  simp [sources, String.join_append]

/-- The nodes of items behind others. -/
theorem nodesOf_map_token {rest : List Item} (hwf : ∀ item ∈ rest, item.WellFormed)
    (hclose : ∀ i (h : i < rest.length), ∀ key ∈ rest[i].closed?,
      0 < depth key (before ++ rest.take i))
    (hoffset : position.offset = (sources before).utf8ByteSize) (hopened : Leaves before opened) :
    Template.nodesOf position opened (rest.map token) =
      .ok (rest.mapIdx fun i item => item.node (before ++ rest.take i)) := by
  induction rest generalizing before position opened with
  | nil => rfl
  | cons item rest ih =>
    have hfirst := hclose 0 (Nat.zero_lt_succ _)
    have hoffset' : (position.after item.source.toList).offset =
        (sources (before ++ [item])).utf8ByteSize := by
      simp [Position.offset_after, hoffset]
    have hrest {opened' : Template.Opened} (hopened' : Leaves (before ++ [item]) opened') :=
      ih (fun other hmem => hwf other (List.mem_cons_of_mem item hmem))
        (fun i h => by simpa using hclose (i + 1) (Nat.succ_lt_succ h)) hoffset' hopened'
    have hnodes : (item :: rest).mapIdx
          (fun i other => other.node (before ++ (item :: rest).take i)) =
        item.node before ::
          rest.mapIdx fun i other => other.node (before ++ [item] ++ rest.take i) := by
      simp [List.mapIdx_cons]
    have hsource := source_token item
    rw [hnodes, List.map_cons]
    cases htoken : item.token with
    | text s =>
      obtain rfl := eq_text_of_token htoken
      rw [htoken, Token.source] at hsource
      rw [← hsource] at hrest
      exact Template.nodesOf_text_eq_ok_iff.2 ⟨_, hrest (hopened.concat rfl rfl), rfl⟩
    | tag t =>
      obtain ⟨opened', hnode, hopened'⟩ := exists_nodeOf htoken (hwf item List.mem_cons_self)
        hoffset hopened (by simpa using hfirst)
      rw [htoken, Token.source] at hsource
      rw [← hsource] at hrest
      exact Template.nodesOf_tag_eq_ok_iff.2 ⟨_, opened', _, hnode, hrest hopened', rfl⟩

/-- Items that follow the grammar are parsed into their nodes, one for each and in their order. -/
theorem parse_sources (h : Grammatical items) :
    Template.parse .standard (sources items) =
      .ok (items.mapIdx fun i item => item.node (items.take i)) := by
  have hsources : (sources items).toList = (items.map token).flatMap Token.source := by
    simp [sources, String.toList_join, List.flatMap_map, source_token]
  have hread : ∀ t ∈ items.map token, t.ReadBack .standard := by
    intro t ht
    obtain ⟨item, hitem, rfl⟩ := List.mem_map.1 ht
    exact (h.wellFormed item hitem).readBack
  have hchain : (items.map token).IsChain fun a b => ¬ (a.isText ∧ b.isText) := by
    simpa [List.isChain_map, isText_token] using h.isChain
  rw [Template.parse_of_readBack (by decide) hsources hread hchain]
  exact nodesOf_map_token h.wellFormed h.depth_pos rfl leaves_nil

/-- Braces meet, a comment holds tags, and blocks with one key are nested. -/
theorem parse_sources_mixed :
    let items : List Item := [.text "a\x7d", .raw "x", .helper "p" none,
      .blockComment "\x7b\x7b/p\x7d\x7d\\\x7d\x7d-", .inclusion "p" (some "y = 'z'"),
      .interpolation "$x.y[0]" (some "z"), .close "p", .text "\x7d", .comment "- b", .close "p"]
    Grammatical items ∧
      Template.parse .standard (sources items) =
        .ok (items.mapIdx fun i item => item.node (items.take i)) ∧
      (items.mapIdx fun i item => item.node (items.take i))[6]? =
        some (.close "p" "\x7b\x7b/p\x7d\x7d" ⟨61, 67⟩ 1) := by
  intro items
  have h : Grammatical items := by
    constructor <;> decide
  exact ⟨h, parse_sources h, by decide⟩

end Item

end Stencil
