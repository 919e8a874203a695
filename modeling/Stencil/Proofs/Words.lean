import Mathlib.Data.List.Induction
import Mathlib.Tactic.Common
import Stencil.Render.Builtin

/-!
# Words in arguments

The words of a text are the segments that it has as a path. Arguments of tags are cut in several
ways: at commas, at white space, around operators, at the first equals sign or at a word such as
`as`. All of them cut at characters that belong to no word, so that the words of the pieces are
words of the whole.

## Main definitions

* `Text.Divides`: whether a text is cut between its runs.
-/

namespace Stencil

namespace Text

variable {p : Char → Bool} {c : Char} {s t piece : List Char} {later pieces : List (List Char)}

/-! ## Texts in pieces -/

theorem runs_eq_nil (h : ∀ c ∈ s, p c = false) : runs p s = [] := by
  induction s with
  | nil => rfl
  | cons c s ih =>
    rw [runs_cons_of_neg (h c List.mem_cons_self)]
    exact ih fun d hd => h d (List.mem_cons_of_mem c hd)

/-- Whether the runs of a text are those of its pieces, the first of which it starts with. -/
def Divides (p : Char → Bool) (s : List Char) (pieces : List Char × List (List Char)) : Prop :=
  runsFrom p s = ((runsFrom p pieces.1).1, (runsFrom p pieces.1).2 ++ pieces.2.flatMap (runs p))

theorem Divides.flatMap_runs (h : Divides p s (piece, later)) :
    (piece :: later).flatMap (runs p) = runs p s := by
  rw [List.flatMap_cons, runs, runs, h]
  dsimp only
  split <;> simp

theorem divides_nil (p : Char → Bool) : Divides p [] ([], []) := rfl

/-- A first piece may start with any character. -/
theorem Divides.cons (c : Char) (h : Divides p s (piece, later)) :
    Divides p (c :: s) (c :: piece, later) := by
  rw [Divides] at h ⊢
  simp only [runsFrom, h]
  split
  · rfl
  · split <;> simp

/-- Pieces may be cut off at a character outside the class. -/
theorem divides_cons_of_neg (hc : p c = false) (h : pieces.flatMap (runs p) = runs p s) :
    Divides p (c :: s) ([], pieces) := by
  rw [Divides, runsFrom_cons_of_neg hc, ← h]
  rfl

theorem flatMap_runs_filter (pieces : List (List Char)) :
    (pieces.filter fun s => !s.isEmpty).flatMap (runs p) = pieces.flatMap (runs p) := by
  induction pieces with
  | nil => rfl
  | cons piece pieces ih =>
    cases piece with
    | nil => simpa [runs_nil] using ih
    | cons c s => simpa using ih

/-- The pieces between separators have the runs of the whole. -/
theorem flatMap_runs_splitUnquoted {separates : Char → Bool}
    (h : ∀ c, separates c = true → p c = false) (s : List Char) :
    (splitUnquoted separates s).flatMap (runs p) = runs p s := by
  have key : ∀ s open?, Divides p s (piecesFrom separates open? s) := by
    intro s
    induction s with
    | nil => exact fun _ => divides_nil p
    | cons c s ih =>
      intro open?
      unfold piecesFrom
      split
      · next hcut =>
        have hc : p c = false := h c ((Bool.and_eq_true_iff.1 hcut).2)
        exact divides_cons_of_neg hc (ih none).flatMap_runs
      · exact (ih _).cons c
  rw [splitUnquoted, flatMap_runs_filter]
  exact (key s none).flatMap_runs

/-- White space at the ends belongs to no run. -/
theorem runs_trim (h : ∀ c, isBlank c = true → p c = false) (s : List Char) :
    runs p (trim s) = runs p s := by
  have hleft (s : List Char) : runs p (trimLeft s) = runs p s := by
    induction s with
    | nil => rfl
    | cons c s ih =>
      by_cases hc : isBlank c = true
      · rw [trimLeft, List.dropWhile_cons_of_pos hc, runs_cons_of_neg (h c hc)]
        exact ih
      · rw [trimLeft, List.dropWhile_cons_of_neg hc]
  have hright (s : List Char) : runs p (trimRight s) = runs p s := by
    induction s using List.reverseRecOn with
    | nil => rfl
    | append_singleton s c ih =>
      by_cases hc : isBlank c = true
      · rw [trimRight, List.reverse_append, List.reverse_singleton, List.singleton_append,
          List.dropWhile_cons_of_pos hc, runs_append_cons (h c hc), runs_nil, List.append_nil]
        exact ih
      · rw [trimRight, List.reverse_append, List.reverse_singleton, List.singleton_append,
          List.dropWhile_cons_of_neg hc, List.reverse_cons, List.reverse_reverse]
  rw [trim, hright, hleft]

end Text

/-! ## Words -/

namespace Path

theorem isWordChar_eq_false_of_isBlank {c : Char} (h : Text.isBlank c = true) :
    isWordChar c = false := by
  refine Bool.eq_false_iff.2 fun hword => ?_
  simp only [isWordChar, Bool.or_eq_true, beq_iff_eq] at hword
  rcases hword with (hword | rfl) | rfl
  · rw [Text.isBlank_eq_false_of_isAlphanumeric hword] at h
    contradiction
  all_goals exact absurd h (by decide)

theorem isWordChar_eq_false_of_isDoubledOperator {c : Char}
    (h : Condition.isDoubledOperator c = true) : isWordChar c = false := by
  simp only [Condition.isDoubledOperator, Condition.isSingleOperator, Bool.or_eq_true,
    beq_iff_eq] at h
  rcases h with ((rfl | rfl) | rfl) | rfl <;> decide

theorem isWordChar_eq_false_of_separatesArguments {c : Char}
    (h : Helper.separatesArguments c = true) : isWordChar c = false := by
  rcases Bool.or_eq_true_iff.1 h with hblank | hcomma
  · exact isWordChar_eq_false_of_isBlank hblank
  · obtain rfl := beq_iff_eq.1 hcomma
    decide

theorem segments_append_cons {c : Char} (h : isWordChar c = false) (s t : List Char) :
    segments (s ++ c :: t) = segments s ++ segments t := by
  rw [segments, Text.runs_append_cons h, List.map_append]
  rfl

theorem flatMap_segments {pieces : List (List Char)} {s : List Char}
    (h : pieces.flatMap (Text.runs isWordChar) = Text.runs isWordChar s) :
    pieces.flatMap segments = segments s := by
  rw [segments, ← h, List.map_flatMap]
  rfl

theorem segments_trim (s : List Char) : segments (Text.trim s) = segments s := by
  rw [segments, Text.runs_trim fun _ => isWordChar_eq_false_of_isBlank]
  rfl

theorem flatMap_segments_splitUnquoted {separates : Char → Bool}
    (h : ∀ c, separates c = true → isWordChar c = false) (s : List Char) :
    (Text.splitUnquoted separates s).flatMap segments = segments s :=
  flatMap_segments (Text.flatMap_runs_splitUnquoted h s)

end Path

/-- The tokens of a condition have its words. -/
theorem Condition.flatMap_segments_tokens (s : List Char) :
    (tokens s).flatMap Path.segments = Path.segments s := by
  have key : ∀ word open?, Text.Divides Path.isWordChar word (tokensFrom open? word) := by
    intro word open?
    fun_induction tokensFrom open? word with
    | case1 => exact Text.divides_nil _
    | case2 open? c s hcut token later heq ih =>
      rw [heq] at ih
      have hc := Path.isWordChar_eq_false_of_isDoubledOperator ((Bool.and_eq_true_iff.1 hcut).2)
      have hequals : Path.isWordChar '=' = false := by decide
      refine Text.divides_cons_of_neg hc ?_
      rw [Text.runs_cons_of_neg hequals, ← ih.flatMap_runs, List.flatMap_cons, Text.runs_eq_nil]
      · rfl
      · simp [hc, hequals]
    | case3 open? c s hcut token later heq ih =>
      rw [heq] at ih
      exact ih.cons c
    | case4 open? c s _ hcut token later heq ih =>
      rw [heq] at ih
      have hsingle : isSingleOperator c = true := (Bool.and_eq_true_iff.1 hcut).2
      have hc : Path.isWordChar c = false :=
        Path.isWordChar_eq_false_of_isDoubledOperator (by rw [isDoubledOperator, hsingle]; rfl)
      refine Text.divides_cons_of_neg hc ?_
      rw [← ih.flatMap_runs, List.flatMap_cons, Text.runs_eq_nil]
      · rfl
      · simp [hc]
    | case5 open? c s _ hcut token later heq ih =>
      rw [heq] at ih
      exact ih.cons c
  have hcut (word : List Char) :
      (cutOperators word).flatMap Path.segments = Path.segments word := by
    refine Path.flatMap_segments ?_
    rw [cutOperators, Text.flatMap_runs_filter]
    exact (key word none).flatMap_runs
  simp only [tokens, List.flatMap_assoc, hcut]
  exact Path.flatMap_segments_splitUnquoted (fun _ => Path.isWordChar_eq_false_of_isBlank) s

/-- An equals sign cuts no word. -/
theorem Assignment.segments_of_cutAtEquals? {s name value : List Char}
    (h : cutAtEquals? s = some (name, value)) :
    Path.segments s = Path.segments name ++ Path.segments value := by
  have hparts : s = name ++ '=' :: value := by
    induction s generalizing name with
    | nil => contradiction
    | cons c s ih =>
      unfold cutAtEquals? at h
      split at h
      · next hc =>
        obtain ⟨rfl, rfl⟩ := Prod.mk.inj (Option.some.inj h)
        rw [hc, List.nil_append]
      · obtain ⟨⟨before, after⟩, hcut, hparts⟩ := Option.map_eq_some_iff.1 h
        obtain ⟨rfl, rfl⟩ := Prod.mk.inj hparts
        rw [ih hcut, List.cons_append]
  rw [hparts, Path.segments_append_cons (by decide)]

namespace LoopHeader

/-- A word that divides a header stands between white space. -/
theorem cutAtWord?_eq_some {afterBlank : Bool} {word s before after : List Char}
    (h : cutAtWord? afterBlank word s = some (before, after)) :
    s = before ++ (word ++ after) ∧ (∃ c rest, after = c :: rest ∧ Text.isBlank c = true) ∧
      (before = [] ∧ afterBlank = true ∨
        ∃ front c, before = front ++ [c] ∧ Text.isBlank c = true) := by
  induction s generalizing afterBlank before with
  | nil => contradiction
  | cons c s ih =>
    unfold cutAtWord? at h
    dsimp only at h
    split at h
    · next hcut =>
      obtain ⟨rfl, rfl⟩ := Prod.mk.inj (Option.some.inj h)
      simp only [Bool.and_eq_true, List.isPrefixOf_iff_prefix] at hcut
      obtain ⟨⟨hblank, rest, hrest⟩, hhead⟩ := hcut
      rw [← hrest, List.drop_left] at hhead ⊢
      refine ⟨rfl, ?_, .inl ⟨rfl, hblank⟩⟩
      cases rest with
      | nil => simp at hhead
      | cons d rest => exact ⟨d, rest, rfl, by simpa using hhead⟩
    · obtain ⟨⟨front, last⟩, hcut, hparts⟩ := Option.map_eq_some_iff.1 h
      obtain ⟨rfl, rfl⟩ := Prod.mk.inj hparts
      obtain ⟨rfl, hafter, hbefore⟩ := ih hcut
      refine ⟨rfl, hafter, .inr ?_⟩
      rcases hbefore with ⟨rfl, hblank⟩ | ⟨front', d, rfl, hblank⟩
      · exact ⟨[], c, rfl, hblank⟩
      · exact ⟨c :: front', d, rfl, hblank⟩

/-- The parts of a header around a word have no other words than the header. -/
theorem segments_of_splitAtWord? {word s before after : List Char}
    (h : splitAtWord? word s = some (before, after)) :
    Path.segments before ⊆ Path.segments s ∧ Path.segments after ⊆ Path.segments s := by
  obtain ⟨⟨front, last⟩, hcut, hparts⟩ := Option.map_eq_some_iff.1 h
  obtain ⟨rfl, rfl⟩ := Prod.mk.inj hparts
  obtain ⟨rfl, ⟨c, rest, rfl, hc⟩, hfront⟩ := cutAtWord?_eq_some hcut
  rw [Path.segments_trim, Path.segments_trim]
  constructor
  · rcases hfront with ⟨rfl, -⟩ | ⟨front, d, rfl, hd⟩
    · exact List.nil_subset _
    · have hneg := Path.isWordChar_eq_false_of_isBlank hd
      rw [List.append_assoc, List.singleton_append, Path.segments_append_cons hneg,
        Path.segments_append_cons hneg]
      exact List.append_subset.2 ⟨List.subset_append_left _ _, List.nil_subset _⟩
  · have hneg := Path.isWordChar_eq_false_of_isBlank hc
    have hrest : Path.segments (c :: rest) = Path.segments rest :=
      Path.segments_append_cons hneg [] rest
    rw [← List.append_assoc, Path.segments_append_cons hneg, hrest]
    exact List.subset_append_right _ _

/-- The list of a loop has no other words than the header. -/
theorem segments_list_subset {s : List Char} {header : LoopHeader} (h : read s = .ok header) :
    Path.segments header.list ⊆ Path.segments s := by
  have hparts : Path.segments (parts s).1 ⊆ Path.segments s := by
    unfold parts
    split
    · next hsplit => exact (segments_of_splitAtWord? hsplit).1
    · split
      · next hsplit => exact (segments_of_splitAtWord? hsplit).2
      · rw [Path.segments_trim]
        exact List.Subset.refl _
  unfold read at h
  dsimp only at h
  split at h
  · contradiction
  · split at h
    · contradiction
    · split at h
      · contradiction
      · obtain rfl := Except.ok.inj h
        exact hparts

end LoopHeader

end Stencil
