import Mathlib.Data.List.Induction
import Stencil.Template.Block

/-!
# Markers that divide a block

A marker of a list of nodes belongs to the list unless it stands in the body of a nested block. The
search for a marker keeps clear of nested blocks without knowing their bodies: it finds the first
marker that has no tag at a boundary of a block before it or none after it. Such a marker always
belongs to the list. A marker that belongs to the list and stands between two such tags is passed
over.

## Main definitions

* `Node.Nested`: positions in the bodies of nested blocks.
* `Node.OwnMarker`, `Node.FirstOwnMarker`: the markers that belong to a list.
* `Node.Exposed`: positions that the search for a marker looks at.
-/

namespace Stencil

namespace Node

variable {nodes : List Node} {node : Node} {word : String} {i : Nat}

/-! ## Own markers -/

/-- The body of the block that the node at a position opens. -/
def bodyAt (nodes : List Node) (i : Nat) : List Node :=
  match nodes.drop i with
  | [] => []
  | node :: rest => (node.body rest).1

/-- Whether a position lies in the body of a block. -/
def Nested (nodes : List Node) (i : Nat) : Prop :=
  ∃ k, k < i ∧ i ≤ k + (bodyAt nodes k).length

/-- Whether the node at a position is a marker. -/
def MarkerAt (word : String) (nodes : List Node) (i : Nat) : Prop :=
  nodes[i]?.any (·.isMarker word)

/-- Whether the node at a position is a marker outside the bodies of nested blocks. -/
def OwnMarker (word : String) (nodes : List Node) (i : Nat) : Prop :=
  MarkerAt word nodes i ∧ ¬ Nested nodes i

/-- Whether the first marker outside the bodies of nested blocks stands at a position. -/
def FirstOwnMarker (word : String) (nodes : List Node) (i : Nat) : Prop :=
  OwnMarker word nodes i ∧ ∀ j < i, ¬ OwnMarker word nodes j

/-- Whether the tags at a boundary of a block stand on one side of a position at most. -/
def Exposed (nodes : List Node) (i : Nat) : Prop :=
  (∀ node ∈ nodes.take i, node.isBlockTag = false) ∨
    ∀ node ∈ nodes.drop (i + 1), node.isBlockTag = false

instance (nodes : List Node) (i : Nat) : Decidable (Nested nodes i) :=
  inferInstanceAs (Decidable (∃ k, k < i ∧ i ≤ k + (bodyAt nodes k).length))

instance (word : String) (nodes : List Node) (i : Nat) : Decidable (MarkerAt word nodes i) :=
  inferInstanceAs (Decidable (_ = true))

instance (word : String) (nodes : List Node) (i : Nat) : Decidable (OwnMarker word nodes i) :=
  inferInstanceAs (Decidable (_ ∧ ¬ _))

instance (word : String) (nodes : List Node) (i : Nat) :
    Decidable (FirstOwnMarker word nodes i) :=
  inferInstanceAs (Decidable (_ ∧ ∀ j < i, ¬ OwnMarker word nodes j))

instance (nodes : List Node) (i : Nat) : Decidable (Exposed nodes i) :=
  inferInstanceAs (Decidable (_ ∨ _))

theorem isBlockTag_of_isMarker (h : node.isMarker word) : node.isBlockTag = false := by
  cases node <;> simp_all [isMarker, isBlockTag, opensBlock, isClose]

theorem MarkerAt.exists_getElem? (h : MarkerAt word nodes i) :
    ∃ node, nodes[i]? = some node ∧ node.isMarker word := by
  cases hget : nodes[i]? with
  | none => simp [MarkerAt, hget] at h
  | some node => exact ⟨node, rfl, by simpa [MarkerAt, hget] using h⟩

/-- A nested position lies between a tag that opens a block and the first node that closes it. -/
theorem nested_iff_exists_closedBy :
    Nested nodes i ↔ ∃ k node inner close after,
      nodes.drop k = node :: (inner ++ close :: after) ∧ node.closedBy close ∧
        (∀ other ∈ inner, node.closedBy other = false) ∧ k < i ∧ i < k + (inner.length + 1) := by
  constructor
  · rintro ⟨k, hk, hi⟩
    unfold bodyAt at hi
    split at hi
    · simp only [List.length_nil] at hi
      omega
    · next node rest hdrop =>
      rcases closedBy_cases node rest with hnone | ⟨inner, close, after, rfl, hclose, hinner⟩
      · rw [body_eq_nil hnone, List.length_nil] at hi
        omega
      · rw [body_eq_of_closedBy hclose hinner] at hi
        exact ⟨k, node, inner, close, after, hdrop, hclose, hinner, hk, Nat.lt_succ_of_le hi⟩
  · rintro ⟨k, node, inner, close, after, hdrop, hclose, hinner, hk, hi⟩
    refine ⟨k, hk, ?_⟩
    simp only [bodyAt, hdrop, body_eq_of_closedBy hclose hinner]
    omega

theorem Nested.exists_isBlockTag (h : Nested nodes i) :
    (∃ node ∈ nodes.take i, node.isBlockTag) ∧
      ∃ node ∈ nodes.drop (i + 1), node.isBlockTag := by
  obtain ⟨k, node, inner, close, after, hdrop, hclose, -, hk, hi⟩ := nested_iff_exists_closedBy.1 h
  have hnode : node.isBlockTag := by simp [isBlockTag, opensBlock_of_closedBy hclose]
  have hother : close.isBlockTag := by simp [isBlockTag, isClose_of_closedBy hclose]
  have hget (m : Nat) : nodes[k + m]? = (node :: (inner ++ close :: after))[m]? := by
    rw [← hdrop, List.getElem?_drop]
  have hfirst : nodes[k]? = some node := hget 0
  have hlast : nodes[k + (inner.length + 1)]? = some close := by simp [hget]
  refine ⟨⟨node, List.mem_of_getElem? (i := k) ?_, hnode⟩, close,
    List.mem_of_getElem? (i := k + inner.length - i) ?_, hother⟩
  · rw [List.getElem?_take_of_lt hk, hfirst]
  · rw [List.getElem?_drop, ← hlast]
    congr 1
    omega

/-- A position that the search for a marker looks at is not nested. -/
theorem Exposed.not_nested (h : Exposed nodes i) : ¬ Nested nodes i := by
  intro hnested
  obtain ⟨⟨opener, hopener, htag⟩, ⟨close, hclose, htag'⟩⟩ := hnested.exists_isBlockTag
  rcases h with h | h
  · simp [h opener hopener] at htag
  · simp [h close hclose] at htag'

/-! ## The search for a marker -/

/-- The leading run ends where the first tag at a boundary of a block stands. -/
theorem lt_length_leadingRun_iff :
    i < (leadingRun nodes).length ↔
      i < nodes.length ∧ ∀ node ∈ nodes.take (i + 1), node.isBlockTag = false := by
  induction nodes generalizing i with
  | nil => simp [leadingRun]
  | cons node rest ih =>
    unfold leadingRun at ih ⊢
    cases htag : node.isBlockTag with
    | true => simp [htag]
    | false => cases i <;> simp [htag, ih]

/-- The trailing run starts behind the last tag at a boundary of a block. -/
theorem length_sub_length_trailingRun_le_iff :
    nodes.length - (trailingRun nodes).length ≤ i ↔
      ∀ node ∈ nodes.drop i, node.isBlockTag = false := by
  induction nodes using List.reverseRecOn with
  | nil => simp [trailingRun]
  | append_singleton rest node ih =>
    cases htag : node.isBlockTag with
    | true =>
      have hrun : trailingRun (rest ++ [node]) = [] := by simp [trailingRun, htag]
      rw [hrun, List.length_nil, Nat.sub_zero]
      constructor
      · intro h other hother
        rw [List.drop_eq_nil_of_le h] at hother
        contradiction
      · intro h
        by_contra hlt
        rw [List.length_append, List.length_singleton] at hlt
        have hmem : node ∈ (rest ++ [node]).drop i := by
          rw [List.drop_append_of_le_length (by omega)]
          simp
        simp [h node hmem] at htag
    | false =>
      have hrun : trailingRun (rest ++ [node]) = trailingRun rest ++ [node] := by
        simp [trailingRun, htag]
      rw [hrun, List.length_append, List.length_append, List.length_singleton,
        Nat.add_sub_add_right, ih, List.drop_append]
      constructor
      · intro h other hother
        rcases List.mem_append.1 hother with hother | hother
        · exact h other hother
        · obtain rfl := List.mem_singleton.1 (List.mem_of_mem_drop hother)
          exact htag
      · intro h other hother
        exact h other (List.mem_append_left _ hother)

theorem markerAt_leadingRun_iff :
    MarkerAt word (leadingRun nodes) i ↔
      MarkerAt word nodes i ∧ ∀ node ∈ nodes.take i, node.isBlockTag = false := by
  have hget (hi : i < (leadingRun nodes).length) : (leadingRun nodes)[i]? = nodes[i]? := by
    obtain ⟨rest, hrest⟩ := List.takeWhile_prefix (l := nodes) fun node => !node.isBlockTag
    conv_rhs => rw [← hrest]
    exact (List.getElem?_append_left hi).symm
  constructor
  · intro h
    obtain ⟨marker, hmarker, -⟩ := h.exists_getElem?
    have hi := (List.getElem?_eq_some_iff.1 hmarker).1
    refine ⟨by rwa [MarkerAt, ← hget hi], fun other hother => ?_⟩
    exact (lt_length_leadingRun_iff.1 hi).2 other (List.take_subset_take_left _ (by omega) hother)
  · rintro ⟨h, hfront⟩
    obtain ⟨marker, hmarker, hword⟩ := h.exists_getElem?
    have hi : i < (leadingRun nodes).length := by
      refine lt_length_leadingRun_iff.2 ⟨(List.getElem?_eq_some_iff.1 hmarker).1, ?_⟩
      rw [List.take_add_one, hmarker]
      intro other hother
      rcases List.mem_append.1 hother with hother | hother
      · exact hfront other hother
      · obtain rfl := List.mem_singleton.1 hother
        exact isBlockTag_of_isMarker hword
    rwa [MarkerAt, hget hi]

theorem trailingRun_suffix (nodes : List Node) : trailingRun nodes <:+ nodes := by
  rw [← List.reverse_prefix]
  simpa [trailingRun] using List.takeWhile_prefix _

theorem markerAt_trailingRun_iff :
    MarkerAt word (trailingRun nodes) i ↔
      MarkerAt word nodes (i + (nodes.length - (trailingRun nodes).length)) := by
  unfold MarkerAt
  conv_lhs =>
    rw [List.suffix_iff_eq_drop.1 (trailingRun_suffix nodes), List.getElem?_drop, Nat.add_comm]

theorem findIdx?_isMarker_eq_some (h : nodes.findIdx? (·.isMarker word) = some i) :
    MarkerAt word nodes i ∧ ∀ j < i, ¬ MarkerAt word nodes j := by
  obtain ⟨hi, hmarker, hfirst⟩ := List.findIdx?_eq_some_iff_getElem.1 h
  refine ⟨by simp [MarkerAt, hi, hmarker], fun j hj => ?_⟩
  simpa [MarkerAt, Nat.lt_trans hj hi] using hfirst j hj

theorem findIdx?_isMarker_eq_none (h : nodes.findIdx? (·.isMarker word) = none) (i : Nat) :
    ¬ MarkerAt word nodes i := by
  intro hmarker
  obtain ⟨marker, hget, hword⟩ := hmarker.exists_getElem?
  simp [List.findIdx?_eq_none_iff.1 h marker (List.mem_of_getElem? hget)] at hword

theorem MarkerAt.exists_trailingRun (h : MarkerAt word nodes i)
    (hback : ∀ node ∈ nodes.drop (i + 1), node.isBlockTag = false) :
    ∃ k, i = k + (nodes.length - (trailingRun nodes).length) ∧
      MarkerAt word (trailingRun nodes) k := by
  obtain ⟨marker, hget, hword⟩ := h.exists_getElem?
  have hle : nodes.length - (trailingRun nodes).length ≤ i := by
    rw [length_sub_length_trailingRun_le_iff]
    obtain ⟨hi, rfl⟩ := List.getElem?_eq_some_iff.1 hget
    rw [List.drop_eq_getElem_cons hi]
    intro other hother
    rcases List.mem_cons.1 hother with rfl | hother
    · exact isBlockTag_of_isMarker hword
    · exact hback other hother
  refine ⟨i - (nodes.length - (trailingRun nodes).length), by omega, ?_⟩
  rwa [markerAt_trailingRun_iff, Nat.sub_add_cancel hle]

theorem markerIndex?_eq_some (h : markerIndex? nodes word = some i) :
    (MarkerAt word nodes i ∧ Exposed nodes i) ∧
      ∀ j < i, ¬ (MarkerAt word nodes j ∧ Exposed nodes j) := by
  unfold markerIndex? at h
  split at h
  · next k hlead =>
    obtain rfl := Option.some.inj h
    obtain ⟨hfound, hfirst⟩ := findIdx?_isMarker_eq_some hlead
    obtain ⟨hmarker, hfront⟩ := markerAt_leadingRun_iff.1 hfound
    refine ⟨⟨hmarker, .inl hfront⟩, ?_⟩
    rintro j hj ⟨hother, -⟩
    refine hfirst j hj (markerAt_leadingRun_iff.2 ⟨hother, fun other hmem => ?_⟩)
    exact hfront other (List.take_subset_take_left _ (by omega) hmem)
  · next hlead =>
    obtain ⟨k, htrail, rfl⟩ := Option.map_eq_some_iff.1 h
    obtain ⟨hfound, hfirst⟩ := findIdx?_isMarker_eq_some htrail
    have hle : nodes.length - (trailingRun nodes).length ≤
        k + (nodes.length - (trailingRun nodes).length) := Nat.le_add_left _ _
    have hback := length_sub_length_trailingRun_le_iff.1 hle
    refine ⟨⟨markerAt_trailingRun_iff.1 hfound, .inr fun other hmem => ?_⟩, ?_⟩
    · exact hback other (List.drop_subset_drop_left _ (by omega) hmem)
    · rintro j hj ⟨hother, hfront | hback⟩
      · exact findIdx?_isMarker_eq_none hlead j (markerAt_leadingRun_iff.2 ⟨hother, hfront⟩)
      · obtain ⟨m, rfl, hm⟩ := hother.exists_trailingRun hback
        exact hfirst m (by omega) hm

theorem markerIndex?_eq_none (h : markerIndex? nodes word = none) :
    ¬ (MarkerAt word nodes i ∧ Exposed nodes i) := by
  unfold markerIndex? at h
  split at h
  · contradiction
  · next hlead =>
    rw [Option.map_eq_none_iff] at h
    rintro ⟨hmarker, hfront | hback⟩
    · exact findIdx?_isMarker_eq_none hlead i (markerAt_leadingRun_iff.2 ⟨hmarker, hfront⟩)
    · obtain ⟨k, -, hk⟩ := hmarker.exists_trailingRun hback
      exact findIdx?_isMarker_eq_none h k hk

/-- The search finds the first marker that is exposed. -/
theorem markerIndex?_eq_some_iff :
    markerIndex? nodes word = some i ↔
      (MarkerAt word nodes i ∧ Exposed nodes i) ∧
        ∀ j < i, ¬ (MarkerAt word nodes j ∧ Exposed nodes j) := by
  refine ⟨markerIndex?_eq_some, fun ⟨hmarker, hfirst⟩ => ?_⟩
  cases hsearch : markerIndex? nodes word with
  | none => exact absurd hmarker (markerIndex?_eq_none hsearch)
  | some k =>
    obtain ⟨hfound, hfirst'⟩ := markerIndex?_eq_some hsearch
    rcases Nat.lt_trichotomy k i with hlt | rfl | hgt
    · exact absurd hfound (hfirst k hlt)
    · rfl
    · exact absurd hmarker (hfirst' i hgt)

theorem FirstOwnMarker.markerIndex?_eq_some_iff (h : FirstOwnMarker word nodes i) :
    markerIndex? nodes word = some i ↔ Exposed nodes i := by
  obtain ⟨⟨hmarker, -⟩, hfirst⟩ := h
  refine ⟨fun hfound => (markerIndex?_eq_some hfound).1.2, fun hexposed => ?_⟩
  refine Node.markerIndex?_eq_some_iff.2 ⟨⟨hmarker, hexposed⟩, ?_⟩
  rintro j hj ⟨hother, hexposed'⟩
  exact hfirst j hj ⟨hother, hexposed'.not_nested⟩

end Node

end Stencil
