import Mathlib.Algebra.Group.Nat.Defs
import Mathlib.Tactic.Common
import Stencil.Proofs.JsonText
import Stencil.Proofs.Words

/-!
# Paths by their segments

A path is resolved segment by segment, so only its segments matter: paths that are written in
different ways lead to the same value if they have the same segments, and a path behind another one
leads on from where the first one leads. The key that a loop gives to an entry leads to its item:
the decimal digits of a position are a segment, and so is a key of an object that is a name.

## Main definitions

* `Path.Denotes`: how the segments of a path may be written.
* `Value.LeadsToEntries`: whether the keys of the entries of a value lead to their items.
-/

namespace Stencil

namespace Text

variable {p : Char → Bool} {s t : List Char}

/-- Characters outside the class do not count before a run. -/
theorem runs_append_of_neg (h : ∀ c ∈ s, p c = false) (t : List Char) :
    runs p (s ++ t) = runs p t := by
  induction s with
  | nil => rfl
  | cons c s ih =>
    obtain ⟨hc, hs⟩ := List.forall_mem_cons.1 h
    rw [List.cons_append, runs_cons_of_neg hc, ih hs]

theorem runsFrom_of_pos (h : ∀ c ∈ s, p c = true) : runsFrom p s = (s, []) := by
  induction s with
  | nil => rfl
  | cons c s ih => simp_all [runsFrom]

/-- A run goes to the first character outside the class. -/
theorem runs_append_of_pos (hs : s ≠ []) (h : ∀ c ∈ s, p c = true)
    (ht : ∀ c ∈ t.head?, p c = false) : runs p (s ++ t) = s :: runs p t := by
  have hone : runs p s = [s] := by simp [runs, runsFrom_of_pos h, hs]
  cases t with
  | nil => rw [List.append_nil, hone, runs_nil]
  | cons c t =>
    have hc : p c = false := ht c rfl
    rw [runs_append_cons hc, hone, runs_cons_of_neg hc, List.singleton_append]

end Text

/-! ## Ways to write segments -/

namespace Path

variable {s t u path : List Char} {names : List String}

/-- Whether a path is written with these segments: with one or more characters that belong to no
segment between any two of them, and any number of such characters in front and behind. -/
inductive Denotes : List Char → List String → Prop
  | nothing {s : List Char} (h : ∀ c ∈ s, isWordChar c = false) : Denotes s []
  | segment {before name rest : List Char} {names : List String}
    (hbefore : ∀ c ∈ before, isWordChar c = false) (hname : isName name = true)
    (hrest : ∀ c ∈ rest.head?, isWordChar c = false) (h : Denotes rest names) :
    Denotes (before ++ name ++ rest) (String.ofList name :: names)

theorem isName_iff : isName s = true ↔ s ≠ [] ∧ ∀ c ∈ s, isWordChar c = true := by
  simp [isName]

theorem segments_of_denotes (h : Denotes path names) : segments path = names := by
  induction h with
  | nothing h => rw [segments, Text.runs_eq_nil h, List.map_nil]
  | @segment before name rest names hbefore hname hrest _ ih =>
    obtain ⟨hne, hword⟩ := isName_iff.1 hname
    rw [segments, List.append_assoc, Text.runs_append_of_neg hbefore,
      Text.runs_append_of_pos hne hword hrest, List.map_cons, ← ih, segments]

/-- A first character stands before the first segment, belongs to it or is a segment of its own. -/
theorem Denotes.exists_cons (h : Denotes s names) (c : Char) : ∃ names, Denotes (c :: s) names := by
  cases hc : isWordChar c with
  | false =>
    cases h with
    | nothing hs => exact ⟨[], .nothing (List.forall_mem_cons.2 ⟨hc, hs⟩)⟩
    | segment hbefore hname hrest h =>
      exact ⟨_, .segment (List.forall_mem_cons.2 ⟨hc, hbefore⟩) hname hrest h⟩
  | true =>
    have hone : isName [c] = true := by simp [isName, hc]
    cases h with
    | nothing hs =>
      have hrest : ∀ d ∈ s.head?, isWordChar d = false := fun d hd => hs d (List.mem_of_head? hd)
      exact ⟨_, .segment (List.forall_mem_nil _) hone hrest (.nothing hs)⟩
    | @segment before name rest names hbefore hname hrest h =>
      -- The character joins a segment that follows it at once.
      cases before with
      | nil =>
        have hmore : isName (c :: name) = true := by
          rw [isName_iff] at hname ⊢
          exact ⟨List.cons_ne_nil c name, List.forall_mem_cons.2 ⟨hc, hname.2⟩⟩
        exact ⟨_, .segment (List.forall_mem_nil _) hmore hrest h⟩
      | cons d before =>
        have hd : ∀ e ∈ (d :: before ++ name ++ rest).head?, isWordChar e = false := by
          simpa using hbefore d List.mem_cons_self
        exact ⟨_, .segment (List.forall_mem_nil _) hone hd (.segment hbefore hname hrest h)⟩

theorem exists_denotes (path : List Char) : ∃ names, Denotes path names := by
  induction path with
  | nil => exact ⟨[], .nothing (List.forall_mem_nil _)⟩
  | cons c s ih =>
    obtain ⟨names, h⟩ := ih
    exact h.exists_cons c

theorem denotes_segments_iff : Denotes path names ↔ segments path = names := by
  refine ⟨segments_of_denotes, ?_⟩
  rintro rfl
  obtain ⟨names, h⟩ := exists_denotes path
  rwa [segments_of_denotes h]

/-- Every path is written with segments, and in one way only. -/
theorem existsUnique_denotes (path : List Char) : ∃! names, Denotes path names :=
  ⟨segments path, denotes_segments_iff.2 rfl, fun _ h => (segments_of_denotes h).symm⟩

theorem segments_append (ht : t ≠ []) (h : ∀ c ∈ t, isWordChar c = false) (s u : List Char) :
    segments (s ++ t ++ u) = segments s ++ segments u := by
  cases t with
  | nil => contradiction
  | cons c t =>
    obtain ⟨hc, htail⟩ := List.forall_mem_cons.1 h
    rw [List.append_assoc, List.cons_append, segments_append_cons hc, segments, segments, segments,
      Text.runs_append_of_neg htail]

/-- A name is a path of one segment. -/
theorem segments_of_isName (h : isName s = true) : segments s = [String.ofList s] := by
  refine segments_of_denotes ?_
  simpa using Denotes.segment (List.forall_mem_nil _) h (by simp) (.nothing (List.forall_mem_nil _))

/-! ## Positions -/

theorem isWordChar_of_isDigit {c : Char} (h : isDigit c = true) : isWordChar c = true := by
  have hlt : c.toNat < 0x80 := by
    have hle : c ≤ '9' := by simpa using (Bool.and_eq_true_iff.1 h).2
    exact Nat.lt_of_le_of_lt hle (by decide)
  have hdigit : c.isDigit = true := h
  simp [isWordChar, Text.isAlphanumeric, hlt, Char.isAlphanum, hdigit]

theorem all_isDigit_toString (n : Nat) : (toString n).toList.all isDigit = true := by
  rw [Nat.toString_eq_repr, Nat.toList_repr, List.all_eq_true]
  exact fun _ hc => isDigit_of_mem_toDigits hc

theorem isName_toString (n : Nat) : isName (toString n).toList = true := by
  rw [isName_iff]
  refine ⟨by simp [Nat.toDigits_ne_nil], fun c hc => ?_⟩
  exact isWordChar_of_isDigit (List.all_eq_true.1 (all_isDigit_toString n) c hc)

/-- A position is read back from its decimal digits. -/
theorem position?_toString {n : Nat} (h : n < 2 ^ 64) : position? (toString n) = some n := by
  have hall := all_isDigit_toString n
  simp_all [position?, digitsValue_toDigits]

end Path

/-! ## Walks -/

namespace Value

variable {path : List Char}

/-- The segments behind others lead on from where those lead. -/
theorem walk_append (v : Value) (first second : List String) :
    v.walk (first ++ second) = (v.walk first).bind fun below => below.walk second := by
  induction first generalizing v with
  | nil => rfl
  | cons segment rest ih =>
    rw [List.cons_append, walk, walk, Option.bind_assoc]
    simp only [ih]

theorem resolve?_of_segments_ne_nil (h : Path.segments path ≠ []) (v : Value) :
    v.resolve? path = v.walk (Path.segments path) := by
  unfold resolve?
  split
  · contradiction
  · rfl

/-- Only the segments of a path matter. -/
theorem resolve?_congr {other : List Char} (h : Path.segments path = Path.segments other)
    (v : Value) : v.resolve? path = v.resolve? other := by
  rw [resolve?, resolve?, h]

/-- A name leads to the child with this name. -/
theorem resolve?_of_isName {name : String} (h : Path.isName name.toList = true) (v : Value) :
    v.resolve? name.toList = v.child? name := by
  have hsegments : Path.segments name.toList = [name] := by
    rw [Path.segments_of_isName h, String.ofList_toList]
  rw [resolve?_of_segments_ne_nil (by simp [hsegments]), hsegments]
  simp [walk]

theorem resolve?_append {p t q : List Char} (hp : Path.segments p ≠ []) (hq : Path.segments q ≠ [])
    (ht : t ≠ []) (h : ∀ c ∈ t, Path.isWordChar c = false) (v : Value) :
    v.resolve? (p ++ t ++ q) = (v.resolve? p).bind fun below => below.resolve? q := by
  have hsegments := Path.segments_append ht h p q
  have hne : Path.segments (p ++ t ++ q) ≠ [] :=
    hsegments ▸ List.append_ne_nil_of_left_ne_nil hp _
  rw [resolve?_of_segments_ne_nil hp, resolve?_of_segments_ne_nil hne, hsegments, walk_append]
  simp only [resolve?_of_segments_ne_nil hq]

/-! ## Entries -/

/-- Whether the key of each entry leads to its item: always in an array, whose positions have 64
bits, and in an object for the keys that are names. -/
def LeadsToEntries (v : Value) : Prop :=
  match v with
  | array _ => ∀ (i : Nat) key item, i < 2 ^ 64 → v.entries[i]? = some (key, item) →
    v.resolve? key.toList = some item
  | object _ => ∀ key item, Path.isName key.toList = true → (key, item) ∈ v.entries →
    v.resolve? key.toList = some item
  | null | bool _ | number _ | string _ => True

theorem leadsToEntries_array (items : List Value) : (array items).LeadsToEntries := by
  intro i key item hi h
  obtain ⟨rfl, hitem⟩ : toString i = key ∧ items[i]? = some item := by
    rw [entries, List.getElem?_map, Option.map_eq_some_iff] at h
    grind
  rw [resolve?_of_isName (Path.isName_toString i), child?, Path.position?_toString hi,
    Option.bind_some, hitem]

theorem leadsToEntries_object {fields : Table Value} (hkeys : (Table.keys fields).Nodup) :
    (object fields).LeadsToEntries := by
  intro key item hname h
  rw [resolve?_of_isName hname, child?]
  exact Table.get?_of_mem hkeys h

theorem WellFormed.leadsToEntries {v : Value} (h : v.WellFormed) : v.LeadsToEntries := by
  cases v with
  | array items => exact leadsToEntries_array items
  | object fields => exact leadsToEntries_object (wellFormed_object_iff.1 h).1
  | null | bool | number | string => trivial

/-- Paths are resolved by their segments alone, a path behind another one goes on where the first
one ends, and the keys of entries lead to their items. -/
theorem resolve?_segmentwise (v : Value) :
    (∀ p t q, Path.segments p ≠ [] → Path.segments q ≠ [] → t ≠ [] →
      (∀ c ∈ t, Path.isWordChar c = false) →
      v.resolve? (p ++ t ++ q) = (v.resolve? p).bind fun below => below.resolve? q) ∧
    (∀ path, ∃! names, Path.Denotes path names) ∧
    (∀ p q names, Path.Denotes p names → Path.Denotes q names → v.resolve? p = v.resolve? q) ∧
    (v.resolve? "a.b[1]".toList = v.resolve? "a b 1".toList ∧
      v.resolve? "[a]..b.1".toList = v.resolve? "a b 1".toList) ∧
    (v.WellFormed → v.LeadsToEntries) := by
  refine ⟨fun p t q hp hq ht h => resolve?_append hp hq ht h v, Path.existsUnique_denotes, ?_, ?_,
    WellFormed.leadsToEntries⟩
  · intro p q names hp hq
    refine resolve?_congr ?_ v
    rw [Path.segments_of_denotes hp, Path.segments_of_denotes hq]
  · exact ⟨resolve?_congr rfl v, resolve?_congr rfl v⟩

/-- A name with a letter outside ASCII, in different notations, over two levels and an array. -/
theorem resolve?_segmentwise_nested :
    let list := Value.array [.string "x", .string "y"]
    let fields := Value.object [("ä1", list), ("a-b", .null)]
    let v := Value.object [("a", fields)]
    (Path.segments "[a]".toList ≠ [] ∧ Path.segments "ä1(1)".toList ≠ [] ∧ "..".toList ≠ [] ∧
      (∀ c ∈ "..".toList, Path.isWordChar c = false) ∧
      v.resolve? "[a]..ä1(1)".toList = some (.string "y")) ∧
    (Path.Denotes "a ä1".toList ["a", "ä1"] ∧ Path.Denotes "[a][ä1]".toList ["a", "ä1"] ∧
      v.resolve? "a ä1".toList = v.resolve? "[a][ä1]".toList) ∧
    (list.WellFormed ∧ list.entries[1]? = some ("1", .string "y") ∧
      list.resolve? "1".toList = some (.string "y")) ∧
    (fields.WellFormed ∧ Path.isName "ä1".toList = true ∧ ("ä1", list) ∈ fields.entries ∧
      fields.resolve? "ä1".toList = some list) := by
  intro list fields v
  have hp : Path.segments "[a]".toList ≠ [] := by decide
  have hq : Path.segments "ä1(1)".toList ≠ [] := by decide
  have ht : ∀ c ∈ "..".toList, Path.isWordChar c = false := by decide
  have hone : Path.Denotes "a ä1".toList ["a", "ä1"] := Path.denotes_segments_iff.2 (by decide)
  have htwo : Path.Denotes "[a][ä1]".toList ["a", "ä1"] := Path.denotes_segments_iff.2 (by decide)
  have hlist : list.WellFormed := by simp [list, WellFormed, itemsWellFormed]
  have hfields : fields.WellFormed := by
    simp [fields, WellFormed, fieldsWellFormed, Table.keys, hlist]
  have hname : Path.isName "ä1".toList = true := by decide
  have hmem : ("ä1", list) ∈ fields.entries := List.mem_cons_self
  obtain ⟨happend, -, hnotation, -, -⟩ := resolve?_segmentwise v
  obtain ⟨-, -, -, -, hitems⟩ := resolve?_segmentwise list
  obtain ⟨-, -, -, -, hkeys⟩ := resolve?_segmentwise fields
  refine ⟨⟨hp, hq, by decide, ht, ?_⟩, ⟨hone, htwo, hnotation _ _ _ hone htwo⟩,
    ⟨hlist, rfl, hitems hlist 1 _ _ (by decide) rfl⟩,
    ⟨hfields, hname, hmem, hkeys hfields _ _ hname hmem⟩⟩
  have hparts : "[a]..ä1(1)".toList = "[a]".toList ++ "..".toList ++ "ä1(1)".toList := rfl
  rw [hparts, happend _ _ _ hp hq (by decide) ht]
  rfl

end Value

end Stencil
