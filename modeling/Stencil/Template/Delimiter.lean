/-!
# Looking for delimiters

A delimiter directly after the escape character does not count, and the search goes on behind it.
An empty delimiter is never found.

## Main definitions

* `Delimiter.findUnescaped?`: a text cut at the first delimiter that counts.
* `Delimiter.find?`: a text cut around the first delimiter, escaped or not.

The two halves of a cut are the text again, see `Delimiter.append_of_findUnescaped?`, and the second
one starts with the delimiter, see `Delimiter.isPrefix_of_findUnescaped?`.
-/

namespace Stencil.Delimiter

/-- The text before the first unescaped `delimiter`, and the text from it on. The character before
`s` is `previous`, and the first `skipped` characters belong to an escaped delimiter. -/
def scan? (escape : Char) (delimiter : List Char) (previous : Option Char) (skipped : Nat) :
    List Char → Option (List Char × List Char)
  | [] => none
  | c :: s =>
    match skipped with
    | k + 1 => (scan? escape delimiter (some c) k s).map fun (before, rest) => (c :: before, rest)
    | 0 =>
      if delimiter.isPrefixOf (c :: s) then
        if previous = some escape then
          (scan? escape delimiter (some c) (delimiter.length - 1) s).map
            fun (before, rest) => (c :: before, rest)
        else some ([], c :: s)
      else (scan? escape delimiter (some c) 0 s).map fun (before, rest) => (c :: before, rest)

/-- The text before the first unescaped `delimiter` of `s`, and the text from it on. The character
before `s` is `previous`. -/
def findUnescaped? (escape : Char) (delimiter : List Char) (previous : Option Char)
    (s : List Char) : Option (List Char × List Char) :=
  if delimiter.isEmpty then none else scan? escape delimiter previous 0 s

/-- The text before the first `delimiter`, and the text after it. -/
def find? (delimiter : List Char) : List Char → Option (List Char × List Char)
  | [] => if delimiter.isEmpty then some ([], []) else none
  | c :: s =>
    if delimiter.isPrefixOf (c :: s) then some ([], (c :: s).drop delimiter.length)
    else (find? delimiter s).map fun (before, rest) => (c :: before, rest)

theorem append_of_scan? {escape : Char} {delimiter : List Char} {previous : Option Char}
    {skipped : Nat} {s before rest : List Char}
    (h : scan? escape delimiter previous skipped s = some (before, rest)) :
    before ++ rest = s := by
  fun_induction scan? escape delimiter previous skipped s generalizing before rest <;>
    grind [Option.map_eq_some_iff]

theorem append_of_findUnescaped? {escape : Char} {delimiter : List Char} {previous : Option Char}
    {s before rest : List Char}
    (h : findUnescaped? escape delimiter previous s = some (before, rest)) :
    before ++ rest = s := by
  grind [findUnescaped?, append_of_scan?]

theorem isPrefix_of_scan? {escape : Char} {delimiter : List Char} {previous : Option Char}
    {skipped : Nat} {s before rest : List Char}
    (h : scan? escape delimiter previous skipped s = some (before, rest)) :
    delimiter <+: rest := by
  fun_induction scan? escape delimiter previous skipped s generalizing before rest <;>
    grind [Option.map_eq_some_iff, List.isPrefixOf_iff_prefix]

theorem isPrefix_of_findUnescaped? {escape : Char} {delimiter : List Char} {previous : Option Char}
    {s before rest : List Char}
    (h : findUnescaped? escape delimiter previous s = some (before, rest)) :
    delimiter <+: rest := by
  grind [findUnescaped?, isPrefix_of_scan?]

theorem ne_nil_of_findUnescaped? {escape : Char} {delimiter : List Char} {previous : Option Char}
    {s before rest : List Char}
    (h : findUnescaped? escape delimiter previous s = some (before, rest)) :
    delimiter ≠ [] := by
  grind [findUnescaped?]

variable {escape : Char} {delimiter : List Char} {previous : Option Char}

/-- A delimiter does not start in front of other characters. -/
theorem eq_nil_of_isPrefix_append {s t : List Char} (hd : delimiter ≠ [])
    (h : ∀ c ∈ s, c ∉ delimiter) (hstart : delimiter <+: s ++ t) : s = [] := by
  cases s with
  | nil => rfl
  | cons c s =>
    cases delimiter with
    | nil => contradiction
    | cons d ds =>
      obtain ⟨rfl, -⟩ := List.cons_prefix_cons.1 hstart
      exact absurd List.mem_cons_self (h d List.mem_cons_self)

/-- Whether a delimiter starts nowhere in `s` if `t` follows. -/
def Misses (delimiter s t : List Char) : Prop :=
  ∀ v, v <:+ s → v ≠ [] → ¬ delimiter <+: v ++ t

theorem misses_of_disjoint {s : List Char} (hd : delimiter ≠ []) (h : ∀ c ∈ s, c ∉ delimiter)
    (t : List Char) : Misses delimiter s t :=
  fun _ hv hne hstart =>
    hne (eq_nil_of_isPrefix_append hd (fun c hc => h c (hv.subset hc)) hstart)

theorem Misses.of_cons {c : Char} {s t : List Char} (h : Misses delimiter (c :: s) t) :
    ¬ delimiter.isPrefixOf (c :: (s ++ t)) ∧ Misses delimiter s t :=
  ⟨fun hp => h _ (List.suffix_refl _) (List.cons_ne_nil c s) (List.isPrefixOf_iff_prefix.1 hp),
    fun v hv => h v (hv.trans (List.suffix_cons c s))⟩

theorem Misses.append {s t u : List Char} (hs : Misses delimiter s (t ++ u))
    (ht : Misses delimiter t u) : Misses delimiter (s ++ t) u := by
  intro v hv hne hstart
  rcases List.suffix_or_suffix_of_suffix hv (List.suffix_append s t) with h | ⟨w, rfl⟩
  · exact ht v h hne hstart
  · by_cases hw : w = []
    · exact ht t (List.suffix_refl t) (by simpa [hw] using hne) (by simpa [hw] using hstart)
    · obtain ⟨x, hx⟩ := hv
      rw [← List.append_assoc] at hx
      rw [List.append_assoc] at hstart
      exact hs w ⟨x, List.append_cancel_right hx⟩ hw hstart

/-- A delimiter is found behind where it starts nowhere. -/
theorem scan?_append {s t : List Char} (h : Misses delimiter s t) :
    scan? escape delimiter previous 0 (s ++ t) =
      (scan? escape delimiter (s.getLast?.or previous) 0 t).map
        fun (before, rest) => (s ++ before, rest) := by
  induction s generalizing previous with
  | nil => simp
  | cons c s ih =>
    obtain ⟨hc, hs⟩ := h.of_cons
    have hlast : (c :: s).getLast?.or previous = s.getLast?.or (some c) := by
      cases hs : s.getLast? <;> simp [List.getLast?_cons, hs]
    rw [List.cons_append, scan?, if_neg hc, hlast, ih hs, Option.map_map]
    rfl

/-- A delimiter is not found where only other characters stand. -/
theorem scan?_append_of_disjoint {s t : List Char} (hd : delimiter ≠ [])
    (h : ∀ c ∈ s, c ∉ delimiter) :
    scan? escape delimiter previous 0 (s ++ t) =
      (scan? escape delimiter (s.getLast?.or previous) 0 t).map
        fun (before, rest) => (s ++ before, rest) :=
  scan?_append (misses_of_disjoint hd h t)

/-- A delimiter at the start counts unless it is escaped. -/
theorem scan?_of_isPrefix {s : List Char} (hd : delimiter ≠ []) (h : delimiter <+: s)
    (hprevious : previous ≠ some escape) : scan? escape delimiter previous 0 s = some ([], s) := by
  cases s with
  | nil => exact absurd (List.prefix_nil.1 h) hd
  | cons c s => rw [scan?, if_pos (List.isPrefixOf_iff_prefix.2 h), if_neg hprevious]

theorem findUnescaped?_of_isPrefix {s : List Char} (hd : delimiter ≠ []) (h : delimiter <+: s)
    (hprevious : previous ≠ some escape) :
    findUnescaped? escape delimiter previous s = some ([], s) := by
  rw [findUnescaped?, if_neg (by simpa using hd), scan?_of_isPrefix hd h hprevious]

/-- A delimiter that does not stand at the start is found later. -/
theorem length_lt_of_scan? {s before rest : List Char} (h : ¬ delimiter <+: s)
    (hfound : scan? escape delimiter previous 0 s = some (before, rest)) :
    rest.length < s.length := by
  cases s with
  | nil => contradiction
  | cons c s =>
    rw [scan?, if_neg fun hp => h (List.isPrefixOf_iff_prefix.1 hp)] at hfound
    obtain ⟨⟨before, rest⟩, hlater, heq⟩ := Option.map_eq_some_iff.1 hfound
    obtain ⟨-, rfl⟩ := Prod.mk.inj heq
    have := congrArg List.length (append_of_scan? hlater)
    simp only [List.length_append, List.length_cons] at this ⊢
    omega

theorem append_of_find? {delimiter s before rest : List Char}
    (h : find? delimiter s = some (before, rest)) : before ++ delimiter ++ rest = s := by
  induction s generalizing before rest with
  | nil =>
    simp only [find?] at h
    split at h <;> simp_all
  | cons c s ih =>
    simp only [find?] at h
    split at h
    · next hp =>
      obtain ⟨t, ht⟩ := List.isPrefixOf_iff_prefix.1 hp
      obtain ⟨rfl, rfl⟩ : [] = before ∧ (c :: s).drop delimiter.length = rest := by simpa using h
      simp [← ht]
    · obtain ⟨⟨b, r⟩, hb, he⟩ := Option.map_eq_some_iff.1 h
      obtain ⟨rfl, rfl⟩ : c :: b = before ∧ r = rest := by simpa using he
      simp [← ih hb]

/-- A delimiter that starts nowhere before is found where it stands. -/
theorem find?_append {s t : List Char} (hd : delimiter ≠ [])
    (h : Misses delimiter s (delimiter ++ t)) :
    find? delimiter (s ++ (delimiter ++ t)) = some (s, t) := by
  induction s with
  | nil =>
    cases delimiter with
    | nil => contradiction
    | cons d ds =>
      have hprefix : (d :: ds).isPrefixOf (d :: (ds ++ t)) :=
        List.isPrefixOf_iff_prefix.2 (List.prefix_append (d :: ds) t)
      rw [List.nil_append, List.cons_append, find?, if_pos hprefix, ← List.cons_append,
        List.drop_left]
  | cons c s ih =>
    obtain ⟨hc, hs⟩ := h.of_cons
    rw [List.cons_append, find?, if_neg hc, ih hs]
    rfl

/-- A delimiter that a character does not belong to does not reach beyond it. -/
theorem isPrefix_of_isPrefix_append {c : Char} {s t : List Char} (hc : c ∉ delimiter)
    (h : delimiter <+: s ++ c :: t) : delimiter <+: s := by
  induction s generalizing delimiter with
  | nil =>
    cases delimiter with
    | nil => exact List.prefix_refl []
    | cons d ds =>
      obtain ⟨rfl, -⟩ := List.cons_prefix_cons.1 h
      exact absurd List.mem_cons_self hc
  | cons e s ih =>
    cases delimiter with
    | nil => exact List.nil_prefix
    | cons d ds =>
      obtain ⟨rfl, hds⟩ := List.cons_prefix_cons.1 h
      exact List.cons_prefix_cons.2 ⟨rfl, ih (fun hmem => hc (List.mem_cons_of_mem d hmem)) hds⟩

/-- A delimiter that a character does not belong to stands before it or behind it. -/
theorem isInfix_or_of_isInfix_append_cons {c : Char} {s t : List Char} (hc : c ∉ delimiter)
    (h : delimiter <:+: s ++ c :: t) : delimiter <:+: s ∨ delimiter <:+: t := by
  induction s with
  | nil =>
    rcases List.infix_cons_iff.1 h with hstart | hlater
    · exact .inl (isPrefix_of_isPrefix_append hc hstart (s := [])).isInfix
    · exact .inr hlater
  | cons e s ih =>
    rcases List.infix_cons_iff.1 h with hstart | hlater
    · exact .inl (isPrefix_of_isPrefix_append hc hstart (s := e :: s)).isInfix
    · exact (ih hlater).imp_left fun hin => hin.trans (List.suffix_cons e s).isInfix

/-- A delimiter behind a character that is neither part of it nor the escape character is found
there at the latest, if nothing is skipped beyond that character. -/
theorem isSome_scan? {c : Char} {s t : List Char} {skipped : Nat} (hd : delimiter ≠ [])
    (hc : c ∉ delimiter) (hescape : c ≠ escape) (hskipped : skipped ≤ s.length) :
    (scan? escape delimiter previous skipped (s ++ c :: (delimiter ++ t))).isSome := by
  induction s generalizing previous skipped with
  | nil =>
    obtain rfl : skipped = 0 := Nat.le_zero.1 hskipped
    have hdisjoint : ∀ d ∈ [c], d ∉ delimiter := by simpa using hc
    have hmiss := (misses_of_disjoint hd hdisjoint (delimiter ++ t)).of_cons.1
    have hprevious : some c ≠ some escape := fun heq => hescape (Option.some.inj heq)
    rw [List.nil_append, scan?]
    rw [List.nil_append] at hmiss
    rw [if_neg hmiss, scan?_of_isPrefix hd (List.prefix_append _ _) hprevious]
    rfl
  | cons e s ih =>
    rw [List.cons_append]
    cases skipped with
    | succ k =>
      rw [scan?, Option.isSome_map]
      exact ih (Nat.le_of_succ_le_succ hskipped)
    | zero =>
      simp only [scan?]
      split
      · next hprefix =>
        have hstart : delimiter <+: (e :: s) ++ c :: (delimiter ++ t) :=
          List.isPrefixOf_iff_prefix.1 hprefix
        have hlength := (isPrefix_of_isPrefix_append hc hstart).length_le
        split
        · rw [Option.isSome_map]
          apply ih
          simp only [List.length_cons] at hlength
          omega
        · rfl
      · rw [Option.isSome_map]
        exact ih (Nat.zero_le _)

end Stencil.Delimiter
