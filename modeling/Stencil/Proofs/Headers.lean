import Mathlib.Tactic.Common
import Stencil.Proofs.Segments

/-!
# Both forms of loop headers

A loop header is written with the list in front of the names or behind them. Both forms are read to
the same header, whatever the list is and whatever the names are, as long as no name is one of the
two words that divide headers. A list may be such a word: at either end of a header it does not
stand between white space.

## Main definitions

* `LoopHeader.Listed`: how names may be written one after the other.
* `LoopHeader.ListFirst`, `LoopHeader.NamesFirst`: the two forms.
-/

namespace Stencil

/-! ## White space -/

namespace Text

/-- Whether `s` is one or more characters of white space. -/
def IsGap (s : List Char) : Prop :=
  s ≠ [] ∧ ∀ c ∈ s, isBlank c = true

instance : DecidablePred IsGap :=
  fun s => inferInstanceAs (Decidable (s ≠ [] ∧ ∀ c ∈ s, isBlank c = true))

/-- White space around a text that neither starts nor ends with any is trimmed off. -/
theorem trim_append_append {front s back : List Char} (hs : s ≠ [])
    (hfirst : ∀ c ∈ s.head?, isBlank c = false) (hlast : ∀ c ∈ s.getLast?, isBlank c = false)
    (hfront : ∀ c ∈ front, isBlank c = true) (hback : ∀ c ∈ back, isBlank c = true) :
    trim (front ++ (s ++ back)) = s := by
  have hhead : ∀ c ∈ (s ++ back).head?, isBlank c = false := by
    obtain ⟨c, s, rfl⟩ := List.exists_cons_of_ne_nil hs
    exact hfirst
  have hleft : trimLeft (front ++ (s ++ back)) = s ++ back := by
    rw [trimLeft, List.dropWhile_append_of_pos hfront]
    exact trimLeft_eq_self hhead
  have hright : (back.reverse ++ s.reverse).dropWhile isBlank = s.reverse := by
    rw [List.dropWhile_append_of_pos fun c hc => hback c (List.mem_reverse.1 hc)]
    exact trimLeft_eq_self fun c hc => hlast c (by rwa [← List.head?_reverse])
  rw [trim, hleft, trimRight, List.reverse_append, hright, List.reverse_reverse]

end Text

namespace LoopHeader

open Text (isBlank IsGap)
open Stencil.Path (isName isWordChar)

/-! ## The two forms -/

/-- Whether a text lists names: one after the other with a comma between two of them, and any white
space around a comma. -/
inductive Listed : List (List Char) → List Char → Prop
  | single (name : List Char) : Listed [name] name
  | cons (name : List Char) {before after text : List Char} {names : List (List Char)}
    (hbefore : ∀ c ∈ before, isBlank c = true) (hafter : ∀ c ∈ after, isBlank c = true)
    (h : Listed names text) :
    Listed (name :: names) (name ++ (before ++ ',' :: (after ++ text)))

/-- The list, `as` between white space, and the names. -/
def ListFirst (list : List Char) (names : List (List Char)) (s : List Char) : Prop :=
  ∃ before after text, IsGap before ∧ IsGap after ∧ Listed names text ∧
    s = list ++ (before ++ ("as".toList ++ (after ++ text)))

/-- The names, `in` between white space, and the list. -/
def NamesFirst (list : List Char) (names : List (List Char)) (s : List Char) : Prop :=
  ∃ before after text, IsGap before ∧ IsGap after ∧ Listed names text ∧
    s = text ++ (before ++ ("in".toList ++ (after ++ list)))

variable {list text word name s rest : List Char} {names : List (List Char)} {afterBlank : Bool}

/-! ## Names -/

theorem isBlank_of_isWordChar {c : Char} (h : isWordChar c = true) : isBlank c = false := by
  refine Bool.eq_false_iff.2 fun hblank => ?_
  simp [Path.isWordChar_eq_false_of_isBlank hblank] at h

theorem isBlank_of_mem_isName (h : isName name = true) : ∀ c ∈ name, isBlank c = false :=
  fun c hc => isBlank_of_isWordChar ((Path.isName_iff.1 h).2 c hc)

theorem comma_notMem_of_isName (h : isName name = true) : ',' ∉ name :=
  fun hmem => absurd ((Path.isName_iff.1 h).2 ',' hmem) (by decide)

theorem comma_notMem_of_blank (h : ∀ c ∈ s, isBlank c = true) : ',' ∉ s :=
  fun hmem => absurd (h ',' hmem) (by decide)

/-- A piece goes on to the next comma. -/
theorem piecesFrom_append (hs : ',' ∉ s) (rest : List Char) :
    piecesFrom (s ++ rest) = (s ++ (piecesFrom rest).1, (piecesFrom rest).2) := by
  induction s with
  | nil => rfl
  | cons c s ih =>
    obtain ⟨hc, hs⟩ := not_or.1 (mt List.mem_cons.2 hs)
    rw [List.cons_append, piecesFrom, ih hs]
    simp [Ne.symm hc]

theorem trim_name (hname : isName name = true) {front back : List Char}
    (hfront : ∀ c ∈ front, isBlank c = true) (hback : ∀ c ∈ back, isBlank c = true) :
    Text.trim (front ++ (name ++ back)) = name :=
  have hblank := isBlank_of_mem_isName hname
  Text.trim_append_append (Path.isName_iff.1 hname).1 (fun c hc => hblank c (List.mem_of_head? hc))
    (fun c hc => hblank c (List.mem_of_getLast? hc)) hfront hback

/-- Names that are listed are found again, whatever white space stands in front of them. -/
theorem Listed.splitNames_eq (h : Listed names text) (hnames : ∀ name ∈ names, isName name = true)
    {front : List Char} (hfront : ∀ c ∈ front, isBlank c = true) :
    splitNames (front ++ text) = names := by
  induction h generalizing front with
  | single name =>
    have hname : isName name = true := hnames name List.mem_cons_self
    have hcomma : ',' ∉ front ++ name :=
      fun h => (List.mem_append.1 h).elim (comma_notMem_of_blank hfront)
        (comma_notMem_of_isName hname)
    have hpieces : piecesFrom (front ++ name) = (front ++ name, []) := by
      simpa [piecesFrom] using piecesFrom_append hcomma []
    simpa [splitNames, hpieces] using trim_name hname hfront (List.forall_mem_nil _)
  | @cons name before after text names hbefore hafter h ih =>
    obtain ⟨hname, hnames⟩ := List.forall_mem_cons.1 hnames
    have hpieces : piecesFrom (front ++ (name ++ (before ++ ',' :: (after ++ text)))) =
        (front ++ (name ++ before),
          (piecesFrom (after ++ text)).1 :: (piecesFrom (after ++ text)).2) := by
      rw [piecesFrom_append (comma_notMem_of_blank hfront),
        piecesFrom_append (comma_notMem_of_isName hname),
        piecesFrom_append (comma_notMem_of_blank hbefore)]
      simp [piecesFrom]
    have hlater := ih hnames hafter
    rw [splitNames] at hlater ⊢
    rw [hpieces]
    simpa [trim_name hname hfront hbefore] using hlater

/-! ## The word that divides a header -/

/-- A cut with a text put in front of it. -/
def behind (front : List Char) (cut : Option (List Char × List Char)) :
    Option (List Char × List Char) :=
  cut.map fun (before, after) => (front ++ before, after)

@[simp] theorem behind_none (front : List Char) : behind front none = none := rfl

@[simp] theorem behind_some (front before after : List Char) :
    behind front (some (before, after)) = some (front ++ before, after) := rfl

theorem behind_behind (front s : List Char) (cut : Option (List Char × List Char)) :
    behind front (behind s cut) = behind (front ++ s) cut := by
  simp [behind, Function.comp_def]

/-- Inside a word, no other word is found. -/
theorem cutAtWord?_append (h : ∀ c ∈ s, isBlank c = false) (rest : List Char) :
    cutAtWord? false word (s ++ rest) = behind s (cutAtWord? false word rest) := by
  induction s with
  | nil => simp [behind]
  | cons c s ih =>
    obtain ⟨hc, hs⟩ := List.forall_mem_cons.1 h
    rw [List.cons_append, cutAtWord?, hc, ih hs]
    simp [behind, Function.comp_def]

/-- A header is not divided by a word at its end. -/
theorem cutAtWord?_eq_none (h : ∀ c ∈ s, isBlank c = false) : cutAtWord? afterBlank word s = none := by
  induction s generalizing afterBlank with
  | nil => rfl
  | cons c s ih =>
    have hrest : ((c :: s).drop word.length).head?.any isBlank = false := by
      rw [Option.any_eq_false]
      intro d hd
      simp [h d (List.mem_of_mem_drop (List.mem_of_head? hd))]
    rw [cutAtWord?, hrest, ih (List.forall_mem_cons.1 h).2]
    simp

theorem cutAtWord?_word (hword : word ≠ []) (hrest : rest.head?.any isBlank = true) :
    cutAtWord? true word (word ++ rest) = some ([], rest) := by
  obtain ⟨c, s, rfl⟩ := List.exists_cons_of_ne_nil hword
  have hdrop : (c :: (s ++ rest)).drop (c :: s).length = rest := List.drop_left
  rw [List.cons_append, cutAtWord?, hdrop, hrest]
  simp

section

variable (hword : isName word = true)

include hword

/-- No word starts with a character that belongs to no word. -/
theorem cutAtWord?_cons {c : Char} (hc : isWordChar c = false) (s : List Char) :
    cutAtWord? afterBlank word (c :: s) = behind [c] (cutAtWord? (isBlank c) word s) := by
  obtain ⟨hne, hchars⟩ := Path.isName_iff.1 hword
  obtain ⟨d, word, rfl⟩ := List.exists_cons_of_ne_nil hne
  have hdc : (d == c) = false := by
    have hd := hchars d List.mem_cons_self
    grind
  rw [cutAtWord?]
  simp [List.isPrefixOf, hdc, behind]

theorem cutAtWord?_blanks (h : ∀ c ∈ s, isBlank c = true) (rest : List Char) :
    cutAtWord? afterBlank word (s ++ rest) =
      behind s (cutAtWord? (afterBlank || !s.isEmpty) word rest) := by
  induction s generalizing afterBlank with
  | nil => simp [behind]
  | cons c s ih =>
    obtain ⟨hc, hs⟩ := List.forall_mem_cons.1 h
    rw [List.cons_append, cutAtWord?_cons hword (Path.isWordChar_eq_false_of_isBlank hc), hc, ih hs,
      behind_behind]
    simp

theorem cutAtWord?_gap (h : IsGap s) (rest : List Char) :
    cutAtWord? afterBlank word (s ++ rest) = behind s (cutAtWord? true word rest) := by
  have hempty : s.isEmpty = false := by simpa using h.1
  rw [cutAtWord?_blanks hword h.2, hempty, Bool.not_false, Bool.or_true]

/-- What starts a text and ends before white space is the first name of the text. -/
theorem eq_of_append_eq_append (hname : isName name = true)
    (hrest : ∀ c ∈ rest.head?, isWordChar c = false) {t : List Char}
    (ht : t.head?.any isBlank = true) (h : word ++ t = name ++ rest) : name = word := by
  rcases List.append_eq_append_iff.1 h with ⟨s, rfl, rfl⟩ | ⟨s, rfl, rfl⟩
  · cases s with
    | nil => exact List.append_nil word
    | cons c s =>
      have hchar : isWordChar c = true := (Path.isName_iff.1 hname).2 c (by simp)
      have hblank : isBlank c = true := by simpa using ht
      simp [isBlank_of_isWordChar hchar] at hblank
  · cases s with
    | nil => exact (List.append_nil name).symm
    | cons c s =>
      have hchar : isWordChar c = true := (Path.isName_iff.1 hword).2 c (by simp)
      simp [hrest c rfl] at hchar

/-- Another name is no such word, though it may contain it. -/
theorem cutAtWord?_name (hname : isName name = true) (hne : name ≠ word)
    (hrest : ∀ c ∈ rest.head?, isWordChar c = false) :
    cutAtWord? afterBlank word (name ++ rest) = behind name (cutAtWord? false word rest) := by
  obtain ⟨c, s, rfl⟩ := List.exists_cons_of_ne_nil (Path.isName_iff.1 hname).1
  obtain ⟨hc, hs⟩ := List.forall_mem_cons.1 (isBlank_of_mem_isName hname)
  have hcut : (afterBlank && word.isPrefixOf (c :: s ++ rest) &&
      ((c :: s ++ rest).drop word.length).head?.any isBlank) = false := by
    refine Bool.eq_false_iff.2 fun hcut => hne ?_
    simp only [Bool.and_eq_true, List.isPrefixOf_iff_prefix] at hcut
    obtain ⟨⟨-, t, ht⟩, hblank⟩ := hcut
    rw [← ht, List.drop_left] at hblank
    exact eq_of_append_eq_append hword hname hrest hblank ht
  rw [List.cons_append] at hcut ⊢
  rw [cutAtWord?, hcut, hc, cutAtWord?_append hs]
  simp [behind, Function.comp_def]

/-- Nothing is cut among names that differ from the word. -/
theorem Listed.cutAtWord?_append (h : Listed names text)
    (hnames : ∀ name ∈ names, isName name = true ∧ name ≠ word)
    (hrest : ∀ c ∈ rest.head?, isWordChar c = false) :
    cutAtWord? afterBlank word (text ++ rest) = behind text (cutAtWord? false word rest) := by
  induction h generalizing afterBlank with
  | single name =>
    obtain ⟨hname, hne⟩ := hnames name List.mem_cons_self
    exact cutAtWord?_name hword hname hne hrest
  | @cons name before after text names hbefore hafter h ih =>
    obtain ⟨⟨hname, hne⟩, hnames⟩ := List.forall_mem_cons.1 hnames
    have hcomma : isWordChar ',' = false := by decide
    have hhead : ∀ c ∈ (before ++ ',' :: (after ++ (text ++ rest))).head?,
        isWordChar c = false := by
      cases before with
      | nil => simpa using hcomma
      | cons d before =>
        simpa using Path.isWordChar_eq_false_of_isBlank (hbefore d List.mem_cons_self)
    simp only [List.append_assoc, List.cons_append]
    rw [cutAtWord?_name hword hname hne hhead, cutAtWord?_blanks hword hbefore,
      cutAtWord?_cons hword hcomma, cutAtWord?_blanks hword hafter, ih hnames]
    simp [behind_behind]

end

/-! ## Reading -/

theorem isWordChar_head?_gap (h : IsGap s) (rest : List Char) :
    ∀ c ∈ (s ++ rest).head?, isWordChar c = false := by
  obtain ⟨c, s, rfl⟩ := List.exists_cons_of_ne_nil h.1
  simpa using Path.isWordChar_eq_false_of_isBlank (h.2 c List.mem_cons_self)

theorem isBlank_head?_gap (h : IsGap s) (rest : List Char) :
    (s ++ rest).head?.any isBlank = true := by
  obtain ⟨c, s, rfl⟩ := List.exists_cons_of_ne_nil h.1
  simpa using h.2 c List.mem_cons_self

/-- Listed names neither start nor end with white space. -/
theorem Listed.trim_eq (h : Listed names text) (hnames : ∀ name ∈ names, isName name = true)
    {front back : List Char} (hfront : ∀ c ∈ front, isBlank c = true)
    (hback : ∀ c ∈ back, isBlank c = true) : Text.trim (front ++ (text ++ back)) = text := by
  have hends : text ≠ [] ∧ (∀ c ∈ text.head?, isBlank c = false) ∧
      ∀ c ∈ text.getLast?, isBlank c = false := by
    induction h with
    | single name =>
      have hname : isName name = true := hnames name List.mem_cons_self
      exact ⟨(Path.isName_iff.1 hname).1,
        fun c hc => isBlank_of_mem_isName hname c (List.mem_of_head? hc),
        fun c hc => isBlank_of_mem_isName hname c (List.mem_of_getLast? hc)⟩
    | @cons name before after text names _ _ h ih =>
      obtain ⟨hname, hnames⟩ := List.forall_mem_cons.1 hnames
      obtain ⟨htext, -, hlast⟩ := ih hnames
      have hsame : name ++ (before ++ ',' :: (after ++ text)) =
          (name ++ (before ++ ',' :: after)) ++ text := by simp
      refine ⟨by simp, ?_, ?_⟩
      · obtain ⟨c, s, rfl⟩ := List.exists_cons_of_ne_nil (Path.isName_iff.1 hname).1
        simpa using isBlank_of_mem_isName hname c List.mem_cons_self
      · have hsome : text.getLast?.isSome = true := by simpa using htext
        rwa [hsame, List.getLast?_append, Option.or_of_isSome hsome]
  exact Text.trim_append_append hends.1 hends.2.1 hends.2.2 hfront hback

/-- A list that is found with names is read as the header of both. -/
theorem read_of_parts (hlist : list ≠ []) (hblank : ∀ c ∈ list, isBlank c = false)
    (hlength : names.length ≤ 3) (hnames : ∀ name ∈ names, isName name = true)
    (htext : Listed names text) (hparts : parts s = (list, some text)) :
    read s = .ok (ofNames list names) := by
  have hany : list.any isBlank = false := by simpa using hblank
  have hfind : names.find? (!isName ·) = none := by simpa using hnames
  have hsplit : splitNames text = names := by
    simpa using htext.splitNames_eq hnames (List.forall_mem_nil _)
  unfold read
  rw [hparts]
  simp [hlist, hany, hlength, hsplit, hfind]

theorem trim_list (hlist : list ≠ []) (hblank : ∀ c ∈ list, isBlank c = false)
    {front back : List Char} (hfront : ∀ c ∈ front, isBlank c = true)
    (hback : ∀ c ∈ back, isBlank c = true) : Text.trim (front ++ (list ++ back)) = list :=
  Text.trim_append_append hlist (fun c hc => hblank c (List.mem_of_head? hc))
    (fun c hc => hblank c (List.mem_of_getLast? hc)) hfront hback

/-- The first word that can divide a header with the list in front is its own. -/
theorem read_listFirst (hlist : list ≠ []) (hblank : ∀ c ∈ list, isBlank c = false)
    (hlength : names.length ≤ 3) (hnames : ∀ name ∈ names, isName name = true)
    (h : ListFirst list names s) : read s = .ok (ofNames list names) := by
  obtain ⟨before, after, text, hbefore, hafter, htext, rfl⟩ := h
  have has : isName ['a', 's'] = true := by decide
  have hcut : cutAtWord? false ['a', 's'] (list ++ (before ++ (['a', 's'] ++ (after ++ text)))) =
      some (list ++ before, after ++ text) := by
    rw [cutAtWord?_append hblank, cutAtWord?_gap has hbefore,
      cutAtWord?_word (by decide) (isBlank_head?_gap hafter text)]
    simp
  have hfront : Text.trim (list ++ before) = list := by
    simpa using trim_list hlist hblank (List.forall_mem_nil _) hbefore.2
  have hback : Text.trim (after ++ text) = text := by
    simpa using htext.trim_eq hnames hafter.2 (List.forall_mem_nil _)
  refine read_of_parts hlist hblank hlength hnames htext ?_
  simp only [parts, splitAtWord?, String.reduceToList, hcut, Option.map_some, hfront, hback]

/-- No name divides a header with the names in front, and neither does the list at its end. -/
theorem read_namesFirst (hlist : list ≠ []) (hblank : ∀ c ∈ list, isBlank c = false)
    (hlength : names.length ≤ 3) (hnames : ∀ name ∈ names, isName name = true)
    (has : ∀ name ∈ names, name ≠ "as".toList) (hin : ∀ name ∈ names, name ≠ "in".toList)
    (h : NamesFirst list names s) : read s = .ok (ofNames list names) := by
  obtain ⟨before, after, text, hbefore, hafter, htext, rfl⟩ := h
  have hword : isName ['a', 's'] = true ∧ isName ['i', 'n'] = true := by decide
  have hnone : cutAtWord? false ['a', 's']
      (text ++ (before ++ (['i', 'n'] ++ (after ++ list)))) = none := by
    rw [htext.cutAtWord?_append hword.1 (fun name hname => ⟨hnames name hname, has name hname⟩)
        (isWordChar_head?_gap hbefore _),
      cutAtWord?_gap hword.1 hbefore,
      cutAtWord?_name hword.1 hword.2 (by decide) (isWordChar_head?_gap hafter _),
      cutAtWord?_gap hword.1 hafter, cutAtWord?_eq_none hblank]
    simp
  have hcut : cutAtWord? false ['i', 'n']
      (text ++ (before ++ (['i', 'n'] ++ (after ++ list)))) =
        some (text ++ before, after ++ list) := by
    rw [htext.cutAtWord?_append hword.2 (fun name hname => ⟨hnames name hname, hin name hname⟩)
        (isWordChar_head?_gap hbefore _),
      cutAtWord?_gap hword.2 hbefore,
      cutAtWord?_word (by decide) (isBlank_head?_gap hafter list)]
    simp
  have hfront : Text.trim (text ++ before) = text := by
    simpa using htext.trim_eq hnames (List.forall_mem_nil _) hbefore.2
  have hback : Text.trim (after ++ list) = list := by
    simpa using trim_list hlist hblank hafter.2 (List.forall_mem_nil _)
  refine read_of_parts hlist hblank hlength hnames htext ?_
  simp only [parts, splitAtWord?, String.reduceToList, hnone, hcut, Option.map_none, Option.map_some,
    hfront, hback]

/-- A header with the list in front of the names and one with the list behind them are read alike:
both name the list, and the item, the key and the index by the names that there are and the default
names of the others. -/
theorem read_either_form (hlist : list ≠ []) (hblank : ∀ c ∈ list, isBlank c = false)
    (hlength : names.length ≤ 3)
    (hnames : ∀ name ∈ names, isName name = true ∧ name ≠ "as".toList ∧ name ≠ "in".toList)
    {first last : List Char} (hfirst : ListFirst list names first)
    (hlast : NamesFirst list names last) :
    ∃ header, read first = .ok header ∧ read last = .ok header ∧ header.list = list ∧
      [header.item, header.key, header.index] =
        names.map String.ofList ++ [defaultItem, defaultKey, defaultIndex].drop names.length := by
  have hname : ∀ name ∈ names, isName name = true := fun name h => (hnames name h).1
  refine ⟨ofNames list names, read_listFirst hlist hblank hlength hname hfirst,
    read_namesFirst hlist hblank hlength hname (fun name h => (hnames name h).2.1)
      (fun name h => (hnames name h).2.2) hlast, rfl, ?_⟩
  rcases names with _ | ⟨item, _ | ⟨key, _ | ⟨index, _ | ⟨more, names⟩⟩⟩⟩
  · rfl
  · rfl
  · rfl
  · rfl
  · simp only [List.length_cons] at hlength
    omega

/-- The list is one of the two words, and the names contain the other one and the first. -/
theorem read_either_form_as :
    ListFirst "as".toList ["assign".toList, "inner".toList] "as as assign , inner".toList ∧
      NamesFirst "as".toList ["assign".toList, "inner".toList] "assign,inner  in as".toList ∧
      ∃ header, read "as as assign , inner".toList = .ok header ∧
        read "assign,inner  in as".toList = .ok header ∧ header.list = "as".toList ∧
        [header.item, header.key, header.index] = ["assign", "inner", "index"] := by
  have hfirst : ListFirst "as".toList ["assign".toList, "inner".toList]
      "as as assign , inner".toList :=
    ⟨[' '], [' '], "assign , inner".toList, by decide, by decide,
      @Listed.cons _ [' '] [' '] _ _ (by decide) (by decide) (.single "inner".toList), rfl⟩
  have hlast : NamesFirst "as".toList ["assign".toList, "inner".toList]
      "assign,inner  in as".toList :=
    ⟨[' ', ' '], [' '], "assign,inner".toList, by decide, by decide,
      @Listed.cons _ [] [] _ _ (by decide) (by decide) (.single "inner".toList), rfl⟩
  exact ⟨hfirst, hlast,
    read_either_form (by decide) (by decide) (by decide) (by decide) hfirst hlast⟩

end LoopHeader

end Stencil
