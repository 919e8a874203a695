import Mathlib.Tactic.Common
import Stencil.Text.Quoted

/-!
# Pieces between separators outside quotes

Arguments of tags are cut into pieces at characters outside quotes. The pieces are exactly the
maximal runs without such a character, in order and without empty ones: nothing else is lost, so
that the text is put together again from the pieces and the separators, and no piece can be cut any
further. A quote that is not closed reaches to the end of the text, and so of the last piece.

## Main definitions

* `Text.Quoting.after`, `Text.unquoted`: the quote that is open behind a text, and the characters of
  a text outside quotes.
* `Text.Divided`: a text as pieces with separators around them.
* `Text.SeparatorAt`, `Text.IsRun`: the places of separators, and of the runs between them.
-/

namespace Stencil.Text

/-! ## Outside quotes -/

namespace Quoting

/-- Whether `c` stands outside quotes, and is none, where the quote `open?` is open. -/
def bares (open? : Quoting) (c : Char) : Bool :=
  open?.isNone && !isQuote c

/-- The quote that is open behind `s` if `open?` is open in front of it. -/
def after (open? : Quoting) (s : List Char) : Quoting :=
  s.foldl next open?

variable {open? : Quoting} {c : Char}

@[simp] theorem after_nil (open? : Quoting) : open?.after [] = open? := rfl

@[simp] theorem after_cons (open? : Quoting) (c : Char) (s : List Char) :
    open?.after (c :: s) = (open?.next c).after s := rfl

theorem after_append (open? : Quoting) (s t : List Char) :
    open?.after (s ++ t) = (open?.after s).after t :=
  List.foldl_append

/-- No quote is opened by a character outside quotes. -/
theorem next_of_bares (h : open?.bares c = true) : open? = none ∧ open?.next c = none := by
  cases open? <;> simp_all [bares, next]

end Quoting

/-- The characters of a text outside quotes, if the quote `open?` is open in front of it. -/
def unquotedFrom (open? : Quoting) : List Char → List Char
  | [] => []
  | c :: s =>
    if open?.bares c then c :: unquotedFrom (open?.next c) s else unquotedFrom (open?.next c) s

/-- The characters of a text outside quotes. -/
def unquoted (s : List Char) : List Char :=
  unquotedFrom none s

variable {separates : Char → Bool} {open? : Quoting} {c : Char} {s t piece rest : List Char}
  {pieces : List (List Char)}

theorem unquotedFrom_append (open? : Quoting) (s t : List Char) :
    unquotedFrom open? (s ++ t) = unquotedFrom open? s ++ unquotedFrom (open?.after s) t := by
  induction s generalizing open? with
  | nil => rfl
  | cons c s ih => by_cases h : open?.bares c <;> simp [unquotedFrom, h, ih]

theorem unquoted_append (h : Quoting.after none s = none) (t : List Char) :
    unquoted (s ++ t) = unquoted s ++ unquoted t := by
  rw [unquoted, unquotedFrom_append, h]
  rfl

theorem unquoted_cons (h : isQuote c = false) (s : List Char) :
    unquoted (c :: s) = c :: unquoted s := by
  simp [unquoted, unquotedFrom, Quoting.bares, Quoting.next, h]

theorem bares_none (h : isQuote c = false) : Quoting.bares none c = true := by
  simp [Quoting.bares, h]

theorem unquoted_eq_self (h : ∀ c ∈ s, isQuote c = false) : unquoted s = s := by
  induction s with
  | nil => rfl
  | cons c s ih =>
    obtain ⟨hc, hs⟩ := List.forall_mem_cons.1 h
    rw [unquoted_cons hc, ih hs]

theorem after_eq_none (h : ∀ c ∈ s, isQuote c = false) : Quoting.after none s = none := by
  induction s with
  | nil => rfl
  | cons c s ih =>
    obtain ⟨hc, hs⟩ := List.forall_mem_cons.1 h
    rw [Quoting.after_cons, (Quoting.next_of_bares (bares_none hc)).2, ih hs]

/-- Only quotes are open. -/
theorem isQuote_of_mem_next (h : ∀ q ∈ open?, isQuote q = true) (c : Char) :
    ∀ q ∈ open?.next c, isQuote q = true := by
  cases open? with
  | none => by_cases hc : isQuote c = true <;> simp [Quoting.next, hc]
  | some q => by_cases hc : c = q <;> simp_all [Quoting.next]

theorem isQuote_of_mem_after (h : ∀ q ∈ open?, isQuote q = true) (s : List Char) :
    ∀ q ∈ open?.after s, isQuote q = true := by
  induction s generalizing open? with
  | nil => exact h
  | cons c s ih => exact ih (isQuote_of_mem_next h c)

/-- Only a quote ends a quote. -/
theorem eq_none_of_next_eq_none (h : ∀ q ∈ open?, isQuote q = true) (hc : isQuote c = false)
    (hnext : open?.next c = none) : open? = none := by
  cases open? with
  | none => rfl
  | some q =>
    have hne : c ≠ q := by
      rintro rfl
      simp [h c rfl] at hc
    simp [Quoting.next, hne] at hnext

/-! ## Pieces -/

/-- Whether a text starts with a separator. -/
def StartsWithSeparator (separates : Char → Bool) (s : List Char) : Prop :=
  ∃ c ∈ s.head?, isQuote c = false ∧ separates c = true

/-- Whether a text is made of pieces, in order, with separators in front of them, between them and
behind them. No separator stands in a piece outside quotes, and a piece in which a quote stays open
ends the text. -/
inductive Divided (separates : Char → Bool) : List Char → List (List Char) → Prop
  | nil : Divided separates [] []
  | separator {c : Char} {s : List Char} {pieces : List (List Char)}
    (hc : isQuote c = false ∧ separates c = true) (h : Divided separates s pieces) :
    Divided separates (c :: s) pieces
  | piece {piece rest : List Char} {pieces : List (List Char)} (hne : piece ≠ [])
    (hpiece : ∀ c ∈ unquoted piece, separates c = false)
    (hrest : rest = [] ∨ Quoting.after none piece = none ∧ StartsWithSeparator separates rest)
    (h : Divided separates rest pieces) : Divided separates (piece ++ rest) (piece :: pieces)

theorem piecesFrom_cons_of_bares (h : open?.bares c = true) (hc : separates c = true)
    (s : List Char) : piecesFrom separates open? (c :: s) =
      ([], (piecesFrom separates none s).1 :: (piecesFrom separates none s).2) := by
  rw [Quoting.bares] at h
  simp [piecesFrom, h, hc]

/-- A piece goes on to the next separator outside quotes. -/
theorem piecesFrom_append_of_unquoted (h : ∀ c ∈ unquotedFrom open? s, separates c = false)
    (rest : List Char) : piecesFrom separates open? (s ++ rest) =
      (s ++ (piecesFrom separates (open?.after s) rest).1,
        (piecesFrom separates (open?.after s) rest).2) := by
  induction s generalizing open? with
  | nil => rfl
  | cons c s ih =>
    have hc : (open?.isNone && !isQuote c && separates c) = false := by
      by_cases hbare : open?.bares c = true
      · simp [h c (by simp [unquotedFrom, hbare])]
      · rw [Quoting.bares, Bool.not_eq_true] at hbare
        simp [hbare]
    have hs : ∀ d ∈ unquotedFrom (open?.next c) s, separates d = false := by
      intro d hd
      refine h d ?_
      by_cases hbare : open?.bares c = true <;> simp [unquotedFrom, hbare, hd]
    rw [List.cons_append, piecesFrom, hc, ih hs]
    simp

theorem splitUnquoted_cons (hc : isQuote c = false ∧ separates c = true) (s : List Char) :
    splitUnquoted separates (c :: s) = splitUnquoted separates s := by
  simp [splitUnquoted, piecesFrom_cons_of_bares (bares_none hc.1) hc.2]

theorem splitUnquoted_piece (hne : piece ≠ []) (hpiece : ∀ c ∈ unquoted piece, separates c = false)
    (hrest : rest = [] ∨ Quoting.after none piece = none ∧ StartsWithSeparator separates rest) :
    splitUnquoted separates (piece ++ rest) = piece :: splitUnquoted separates rest := by
  rw [splitUnquoted, piecesFrom_append_of_unquoted hpiece]
  rcases hrest with rfl | ⟨hclosed, c, hhead, hc⟩
  · simp [splitUnquoted, piecesFrom, hne]
  · obtain ⟨rest, rfl⟩ := List.head?_eq_some_iff.1 hhead
    rw [hclosed, splitUnquoted_cons hc, piecesFrom_cons_of_bares (bares_none hc.1) hc.2]
    simp [splitUnquoted, hne]

theorem splitUnquoted_of_divided (h : Divided separates s pieces) :
    splitUnquoted separates s = pieces := by
  induction h with
  | nil => rfl
  | separator hc _ ih => rw [splitUnquoted_cons hc, ih]
  | piece hne hpiece hrest _ ih => rw [splitUnquoted_piece hne hpiece hrest, ih]

/-- Every text starts with a piece, possibly empty, which ends before a separator outside quotes or
with the text. -/
theorem exists_piece (separates : Char → Bool) (open? : Quoting) (s : List Char) :
    ∃ piece rest, s = piece ++ rest ∧ (∀ c ∈ unquotedFrom open? piece, separates c = false) ∧
      (rest = [] ∨ open?.after piece = none ∧ StartsWithSeparator separates rest) := by
  induction s generalizing open? with
  | nil => exact ⟨[], [], rfl, by simp [unquotedFrom], .inl rfl⟩
  | cons c s ih =>
    by_cases hc : open?.bares c = true ∧ separates c = true
    · obtain ⟨hnone, -⟩ := Quoting.next_of_bares hc.1
      have hquote : isQuote c = false := by
        simpa using (Bool.and_eq_true_iff.1 hc.1).2
      exact ⟨[], c :: s, rfl, by simp [unquotedFrom], .inr ⟨hnone, c, rfl, hquote, hc.2⟩⟩
    · obtain ⟨piece, rest, rfl, hpiece, hrest⟩ := ih (open?.next c)
      refine ⟨c :: piece, rest, rfl, ?_, hrest⟩
      by_cases hbare : open?.bares c = true
      · have hc : separates c = false := by simpa [hbare] using hc
        simpa [unquotedFrom, hbare, hc] using hpiece
      · simpa [unquotedFrom, hbare] using hpiece

theorem exists_divided (separates : Char → Bool) (s : List Char) :
    ∃ pieces, Divided separates s pieces := by
  obtain ⟨piece, rest, hs, hpiece, hrest⟩ := exists_piece separates none s
  by_cases hne : piece = []
  · subst hne
    rw [List.nil_append] at hs
    rcases hrest with rfl | ⟨-, c, hhead, hc⟩
    · exact ⟨[], hs ▸ .nil⟩
    · obtain ⟨t, rfl⟩ := List.head?_eq_some_iff.1 hhead
      obtain ⟨pieces, h⟩ := exists_divided separates t
      exact ⟨pieces, hs ▸ .separator hc h⟩
  · obtain ⟨pieces, h⟩ := exists_divided separates rest
    exact ⟨piece :: pieces, hs ▸ .piece hne hpiece hrest h⟩
termination_by s.length
decreasing_by
  · simp [hs]
  · have := List.length_pos_iff.2 hne
    simp [hs]
    omega

/-- A text is divided in one way only. -/
theorem divided_iff : Divided separates s pieces ↔ splitUnquoted separates s = pieces := by
  refine ⟨splitUnquoted_of_divided, ?_⟩
  rintro rfl
  obtain ⟨pieces, h⟩ := exists_divided separates s
  rwa [splitUnquoted_of_divided h]

theorem divided_splitUnquoted (separates : Char → Bool) (s : List Char) :
    Divided separates s (splitUnquoted separates s) :=
  divided_iff.2 rfl

/-! ## Runs -/

/-- Whether a separator stands outside quotes at position `i` of a text. -/
def SeparatorAt (separates : Char → Bool) (s : List Char) (i : Nat) : Prop :=
  ∃ c, s[i]? = some c ∧ (Quoting.after none (s.take i)).bares c = true ∧ separates c = true

/-- Whether the positions from `i` to `j`, without `j`, are a maximal run without separators outside
quotes, and not empty. -/
structure IsRun (separates : Char → Bool) (s : List Char) (i j : Nat) : Prop where
  lt : i < j
  le_length : j ≤ s.length
  not_separatorAt : ∀ k, i ≤ k → k < j → ¬ SeparatorAt separates s k
  start : i = 0 ∨ SeparatorAt separates s (i - 1)
  stop : j = s.length ∨ SeparatorAt separates s j

theorem SeparatorAt.lt_length {i : Nat} (h : SeparatorAt separates s i) : i < s.length := by
  obtain ⟨c, hc, -⟩ := h
  exact (List.getElem?_eq_some_iff.1 hc).1

theorem separatorAt_append_left {i : Nat} (hi : i < s.length) (t : List Char) :
    SeparatorAt separates (s ++ t) i ↔ SeparatorAt separates s i := by
  have htake : (s ++ t).take i = s.take i := List.take_append_of_le_length (by omega)
  rw [SeparatorAt, SeparatorAt, List.getElem?_append_left hi, htake]

theorem separatorAt_append_right (hs : Quoting.after none s = none) (t : List Char) (i : Nat) :
    SeparatorAt separates (s ++ t) (i + s.length) ↔ SeparatorAt separates t i := by
  have htake : (s ++ t).take (i + s.length) = s ++ t.take i := by
    rw [Nat.add_comm, List.take_length_add_append]
  rw [SeparatorAt, SeparatorAt, List.getElem?_append_right (by omega), htake, Quoting.after_append,
    hs, Nat.add_sub_cancel]

theorem StartsWithSeparator.separatorAt (h : StartsWithSeparator separates s) :
    SeparatorAt separates s 0 := by
  obtain ⟨c, hhead, hquote, hc⟩ := h
  obtain ⟨s, rfl⟩ := List.head?_eq_some_iff.1 hhead
  exact ⟨c, rfl, bares_none hquote, hc⟩

theorem not_separatorAt_of_unquoted (h : ∀ c ∈ unquoted s, separates c = false) (i : Nat) :
    ¬ SeparatorAt separates s i := by
  rintro ⟨c, hc, hbare, hseparates⟩
  have hs : s = s.take i ++ c :: s.drop (i + 1) := by
    obtain ⟨hi, rfl⟩ := List.getElem?_eq_some_iff.1 hc
    simp
  have hsame : unquoted s = unquotedFrom none (s.take i ++ c :: s.drop (i + 1)) :=
    congrArg unquoted hs
  have hmem : c ∈ unquoted s := by
    rw [hsame, unquotedFrom_append]
    simp [unquotedFrom, hbare]
  simp [h c hmem] at hseparates

/-- Behind a text that leaves no quote open, the runs are those of the rest, if a separator stands
at the seam. -/
theorem isRun_append_right (hs : Quoting.after none s = none)
    (hseam : SeparatorAt separates s (s.length - 1) ∨ SeparatorAt separates t 0) (i j : Nat) :
    IsRun separates (s ++ t) (i + s.length) (j + s.length) ↔ IsRun separates t i j := by
  have hright (k : Nat) : SeparatorAt separates (s ++ t) (k + s.length) ↔ SeparatorAt separates t k :=
    separatorAt_append_right hs t k
  have hlength : (s ++ t).length = t.length + s.length := by simp [Nat.add_comm]
  constructor
  · intro h
    refine ⟨by have := h.lt; omega, by have := h.le_length; omega, fun k hik hkj hk => ?_, ?_, ?_⟩
    · exact h.not_separatorAt (k + s.length) (by omega) (by omega) ((hright k).2 hk)
    · rcases Nat.eq_zero_or_pos i with hi | hi
      · exact .inl hi
      · refine .inr ((hright (i - 1)).1 ?_)
        have hstart := h.start.resolve_left (by omega)
        rwa [show i + s.length - 1 = i - 1 + s.length by omega] at hstart
    · exact h.stop.imp (by omega) (hright j).1
  · intro h
    have hlt := h.lt
    refine ⟨by omega, by have := h.le_length; omega, fun k hik hkj hk => ?_, .inr ?_, ?_⟩
    · obtain ⟨k, rfl⟩ := Nat.exists_eq_add_of_le' (show s.length ≤ k by omega)
      exact h.not_separatorAt k (by omega) (by omega) ((hright k).1 hk)
    · rcases Nat.eq_zero_or_pos i with rfl | hi
      · -- A run cannot start with the separator at the seam.
        have hlast := hseam.resolve_right (h.not_separatorAt 0 (by omega) hlt)
        rw [Nat.zero_add]
        exact (separatorAt_append_left hlast.lt_length t).2 hlast
      · rw [show i + s.length - 1 = i - 1 + s.length by omega]
        exact (hright (i - 1)).2 (h.start.resolve_left (by omega))
    · exact h.stop.imp (by omega) (hright j).2

/-- No separator stands in a piece. -/
theorem not_separatorAt_append (hpiece : ∀ c ∈ unquoted piece, separates c = false)
    (rest : List Char) {k : Nat} (hk : k < piece.length) :
    ¬ SeparatorAt separates (piece ++ rest) k :=
  fun h => not_separatorAt_of_unquoted hpiece k ((separatorAt_append_left hk rest).1 h)

/-- A run that starts in the first piece is that piece. -/
theorem isRun_append_left_iff (hpiece : ∀ c ∈ unquoted piece, separates c = false)
    (hrest : rest = [] ∨ Quoting.after none piece = none ∧ StartsWithSeparator separates rest)
    {i j : Nat} (hi : i < piece.length) :
    IsRun separates (piece ++ rest) i j ↔ i = 0 ∧ j = piece.length := by
  have hend : piece.length = (piece ++ rest).length ∨
      SeparatorAt separates (piece ++ rest) piece.length := by
    rcases hrest with rfl | ⟨hclosed, hstarts⟩
    · simp
    · right
      simpa using (separatorAt_append_right hclosed rest 0).2 hstarts.separatorAt
  constructor
  · intro h
    have hlt := h.lt
    have hle := h.le_length
    have hzero : i = 0 := by
      by_contra hne
      exact not_separatorAt_append hpiece rest (by omega) (h.start.resolve_left hne)
    refine ⟨hzero, ?_⟩
    by_contra hne
    rcases Nat.lt_or_gt_of_ne hne with hlt | hgt
    · exact not_separatorAt_append hpiece rest hlt (h.stop.resolve_left (by simp; omega))
    · exact h.not_separatorAt piece.length (by omega) hgt (hend.resolve_left (by omega))
  · rintro ⟨rfl, rfl⟩
    exact ⟨hi, by simp, fun k _ hk => not_separatorAt_append hpiece rest hk, .inl rfl, hend⟩

/-- A range of positions, moved to the right. -/
def shift (n : Nat) (range : Nat × Nat) : Nat × Nat :=
  (range.1 + n, range.2 + n)

theorem mem_map_shift {ranges : List (Nat × Nat)} {n i j : Nat} :
    (i, j) ∈ ranges.map (shift n) ↔ n ≤ i ∧ n ≤ j ∧ (i - n, j - n) ∈ ranges := by
  simp only [List.mem_map, shift, Prod.mk.injEq, Prod.exists]
  constructor
  · rintro ⟨i, j, hmem, rfl, rfl⟩
    simpa using hmem
  · rintro ⟨hi, hj, hmem⟩
    exact ⟨i - n, j - n, hmem, by omega, by omega⟩

theorem extract_append_shift (s t : List Char) (range : Nat × Nat) :
    (s ++ t).extract (shift s.length range).1 (shift s.length range).2 =
      t.extract range.1 range.2 := by
  simp only [List.extract_eq_take_drop, shift]
  rw [Nat.add_comm range.1, List.drop_length_add_append]
  congr 1
  omega

/-- The runs behind a text are found in the whole at the places that they have in the rest. -/
theorem mem_map_shift_iff_isRun {ranges : List (Nat × Nat)} (hs : Quoting.after none s = none)
    (hseam : SeparatorAt separates s (s.length - 1) ∨ SeparatorAt separates t 0)
    (h : ∀ i j, (i, j) ∈ ranges ↔ IsRun separates t i j) {i j : Nat} (hi : s.length ≤ i) :
    (i, j) ∈ ranges.map (shift s.length) ↔ IsRun separates (s ++ t) i j := by
  rw [mem_map_shift, h]
  constructor
  · rintro ⟨-, hj, hrun⟩
    have := (isRun_append_right hs hseam _ _).2 hrun
    rwa [Nat.sub_add_cancel hi, Nat.sub_add_cancel hj] at this
  · intro hrun
    have hj : s.length ≤ j := by have := hrun.lt; omega
    refine ⟨hi, hj, (isRun_append_right hs hseam _ _).1 ?_⟩
    rwa [Nat.sub_add_cancel hi, Nat.sub_add_cancel hj]

theorem not_isRun_nil (i j : Nat) : ¬ IsRun separates [] i j := by
  intro h
  have hlt := h.lt
  have hle : j ≤ 0 := h.le_length
  omega

/-- The pieces of a text are its runs, in order. -/
theorem Divided.exists_ranges (h : Divided separates s pieces) :
    ∃ ranges : List (Nat × Nat), ranges.Pairwise (fun a b => a.2 < b.1) ∧
      (∀ i j, (i, j) ∈ ranges ↔ IsRun separates s i j) ∧
      pieces = ranges.map fun range => s.extract range.1 range.2 := by
  induction h with
  | nil =>
    refine ⟨[], .nil, fun i j => ?_, rfl⟩
    simpa using not_isRun_nil i j
  | @separator c s pieces hc _ ih =>
    obtain ⟨ranges, hsorted, hmem, rfl⟩ := ih
    have hstarts (t : List Char) : StartsWithSeparator separates (c :: t) := ⟨c, rfl, hc⟩
    have hclosed : Quoting.after none [c] = none := by simp [Quoting.next, hc.1]
    refine ⟨ranges.map (shift 1), ?_, fun i j => ?_, ?_⟩
    · exact List.pairwise_map.2 (hsorted.imp fun h => Nat.add_lt_add_right h 1)
    · rcases Nat.eq_zero_or_pos i with rfl | hi
      · rw [mem_map_shift]
        refine ⟨fun h => absurd h.1 (by omega), fun h => ?_⟩
        exact absurd (hstarts s).separatorAt (h.not_separatorAt 0 (Nat.le_refl 0) h.lt)
      · exact mem_map_shift_iff_isRun (s := [c]) hclosed (.inl (hstarts []).separatorAt) hmem hi
    · rw [List.map_map]
      exact List.map_congr_left fun range _ => (extract_append_shift [c] s range).symm
  | @piece piece rest pieces hne hpiece hrest _ ih =>
    obtain ⟨ranges, hsorted, hmem, rfl⟩ := ih
    have hpos : 0 < piece.length := List.length_pos_iff.2 hne
    have hlater {i j : Nat} (hi : piece.length ≤ i) :
        (i, j) ∈ ranges.map (shift piece.length) ↔ IsRun separates (piece ++ rest) i j := by
      rcases hrest with rfl | ⟨hclosed, hstarts⟩
      · rw [mem_map_shift, hmem]
        refine ⟨fun h => absurd h.2.2 (not_isRun_nil _ _), fun h => ?_⟩
        have hlt := h.lt
        have hle : j ≤ (piece ++ []).length := h.le_length
        rw [List.append_nil] at hle
        omega
      · exact mem_map_shift_iff_isRun hclosed (.inr hstarts.separatorAt) hmem hi
    refine ⟨(0, piece.length) :: ranges.map (shift piece.length), ?_, fun i j => ?_, ?_⟩
    · refine List.pairwise_cons.2 ⟨fun ⟨i, j⟩ hrange => ?_, ?_⟩
      · -- Between two runs there is a separator, which belongs to neither of them.
        have hi : piece.length ≤ i := (mem_map_shift.1 hrange).1
        have hrun := (hlater hi).1 hrange
        refine Nat.lt_of_le_of_ne hi fun heq => ?_
        exact not_separatorAt_append hpiece rest (by omega) (hrun.start.resolve_left (by omega))
      · exact List.pairwise_map.2 (hsorted.imp fun h => Nat.add_lt_add_right h piece.length)
    · rw [List.mem_cons, Prod.mk.injEq]
      rcases Nat.lt_or_ge i piece.length with hi | hi
      · rw [isRun_append_left_iff hpiece hrest hi, or_iff_left]
        intro h
        exact absurd (mem_map_shift.1 h).1 (by omega)
      · rw [hlater hi, or_iff_right]
        rintro ⟨rfl, -⟩
        omega
    · rw [List.map_cons, List.map_map]
      congr 1
      · simp [List.extract_eq_take_drop]
      · exact List.map_congr_left fun range _ => (extract_append_shift piece rest range).symm

/-! ## Separators -/

theorem unquoted_append_of_rest
    (hrest : rest = [] ∨ Quoting.after none piece = none ∧ StartsWithSeparator separates rest) :
    unquoted (piece ++ rest) = unquoted piece ++ unquoted rest := by
  rcases hrest with rfl | ⟨hclosed, -⟩
  · simp [unquoted, unquotedFrom]
  · exact unquoted_append hclosed rest

/-- Pieces and the separators behind each of them make up the text, together with the separators in
front of the first one, and these are all the separators that stand outside quotes. -/
theorem Divided.exists_gaps (h : Divided separates s pieces) :
    ∃ (lead : List Char) (runs : List (List Char × List Char)),
      lead ++ runs.flatMap (fun run => run.1 ++ run.2) = s ∧ runs.map Prod.fst = pieces ∧
      lead ++ runs.flatMap Prod.snd = (unquoted s).filter separates := by
  induction h with
  | nil => exact ⟨[], [], rfl, rfl, rfl⟩
  | @separator c s pieces hc _ ih =>
    obtain ⟨lead, runs, rfl, rfl, hgaps⟩ := ih
    refine ⟨c :: lead, runs, rfl, rfl, ?_⟩
    rw [unquoted_cons hc.1, List.filter_cons_of_pos hc.2, ← hgaps, List.cons_append]
  | @piece piece rest pieces _ hpiece hrest _ ih =>
    obtain ⟨lead, runs, hrest', rfl, hgaps⟩ := ih
    have hnone : (unquoted piece).filter separates = [] :=
      List.filter_eq_nil_iff.2 fun c hc => by simp [hpiece c hc]
    refine ⟨[], (piece, lead) :: runs, ?_, rfl, ?_⟩
    · rw [List.nil_append, List.flatMap_cons, List.append_assoc, hrest']
    · rw [unquoted_append_of_rest hrest, List.filter_append, hnone, ← hgaps]
      simp

theorem Divided.of_mem (h : Divided separates s pieces) (hmem : piece ∈ pieces) :
    piece ≠ [] ∧ (∀ c ∈ unquoted piece, separates c = false) ∧ Divided separates piece [piece] := by
  induction h with
  | nil => contradiction
  | separator _ _ ih => exact ih hmem
  | @piece first rest pieces hne hpiece _ _ ih =>
    rcases List.mem_cons.1 hmem with rfl | hlater
    · have hone := Divided.piece hne hpiece (.inl rfl) .nil
      rw [List.append_nil] at hone
      exact ⟨hne, hpiece, hone⟩
    · exact ih hlater

/-- Splitting is exact. The pieces are the maximal runs without a separator outside quotes, all of
them in order. The text is made up of them and of its separators outside quotes. No piece is empty
or holds such a separator, and each is the only piece of itself. -/
theorem splitUnquoted_exact (separates : Char → Bool) (s : List Char) :
    (∃ ranges : List (Nat × Nat), ranges.Pairwise (fun a b => a.2 < b.1) ∧
        (∀ i j, (i, j) ∈ ranges ↔ IsRun separates s i j) ∧
        splitUnquoted separates s = ranges.map fun range => s.extract range.1 range.2) ∧
      (∃ (lead : List Char) (runs : List (List Char × List Char)),
        lead ++ runs.flatMap (fun run => run.1 ++ run.2) = s ∧
        runs.map Prod.fst = splitUnquoted separates s ∧
        lead ++ runs.flatMap Prod.snd = (unquoted s).filter separates) ∧
      ∀ piece ∈ splitUnquoted separates s, piece ≠ [] ∧
        (∀ c ∈ unquoted piece, separates c = false) ∧ splitUnquoted separates piece = [piece] := by
  have hdivided := divided_splitUnquoted separates s
  refine ⟨hdivided.exists_ranges, hdivided.exists_gaps, fun piece hmem => ?_⟩
  obtain ⟨hne, hpiece, hone⟩ := hdivided.of_mem hmem
  exact ⟨hne, hpiece, divided_iff.1 hone⟩

/-- A quote that is not closed keeps all separators behind it in the last piece. -/
example : splitUnquoted (· == ',') ",a,',',,b\",'".toList =
    ["a".toList, "','".toList, "b\",'".toList] := by
  decide

end Stencil.Text
