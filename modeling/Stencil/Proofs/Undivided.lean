import Stencil.Proofs.Branches

/-!
# Bodies without markers of their own

The search for a marker does not match the tags of blocks, but it never takes a marker from a nested
block: no block that opens before the marker found is closed behind it. So a body divides nowhere if
all its markers are nested ones. A condition renders all of such a body or nothing, a loop without
entries nothing, and `with` all of it if there is no true value to bind.

## Main definitions

* `Node.ClosedAt`: where the block that opens at a position is closed.
* `Engine.RendersWhole`: what built-in helpers do with a body that divides nowhere.
-/

namespace Stencil

namespace Node

variable {nodes : List Node} {word : String} {i k c : Nat}

/-- Whether the block that opens at one position is closed at another: the close is the last one of
the nodes that an execution passes over together with the tag. -/
def ClosedAt (nodes : List Node) (k c : Nat) : Prop :=
  ∃ node rest, nodes.drop k = node :: rest ∧ (node.body rest).2 ≠ 0 ∧ c = k + (node.body rest).2

theorem closedAt_iff :
    ClosedAt nodes k c ↔ ∃ node inner close after,
      nodes.drop k = node :: (inner ++ close :: after) ∧ node.closedBy close ∧
        (∀ other ∈ inner, node.closedBy other = false) ∧ c = k + (inner.length + 1) := by
  constructor
  · rintro ⟨node, rest, hdrop, hcount, rfl⟩
    rcases closedBy_cases node rest with hnone | ⟨inner, close, after, rfl, hclose, hinner⟩
    · rw [body_eq_nil hnone] at hcount
      contradiction
    · rw [body_eq_of_closedBy hclose hinner]
      exact ⟨node, inner, close, after, hdrop, hclose, hinner, rfl⟩
  · rintro ⟨node, inner, close, after, hdrop, hclose, hinner, rfl⟩
    refine ⟨node, _, hdrop, ?_⟩
    simp [body_eq_of_closedBy hclose hinner]

/-- A position is nested if it lies between the tag that opens a block and its close. -/
theorem nested_iff_exists_closedAt :
    Nested nodes i ↔ ∃ k c, ClosedAt nodes k c ∧ k < i ∧ i < c := by
  simp only [nested_iff_exists_closedBy, closedAt_iff]
  constructor
  · rintro ⟨k, node, inner, close, after, hdrop, hclose, hinner, hk, hi⟩
    exact ⟨k, _, ⟨node, inner, close, after, hdrop, hclose, hinner, rfl⟩, hk, hi⟩
  · rintro ⟨k, _, ⟨node, inner, close, after, hdrop, hclose, hinner, rfl⟩, hk, hi⟩
    exact ⟨k, node, inner, close, after, hdrop, hclose, hinner, hk, hi⟩

/-- What closes a block is no marker. -/
theorem ClosedAt.not_markerAt (h : ClosedAt nodes k c) : ¬ MarkerAt word nodes c := by
  intro hmarker
  obtain ⟨node, inner, close, after, hdrop, hclose, -, rfl⟩ := closedAt_iff.1 h
  obtain ⟨marker, hget, hword⟩ := hmarker.exists_getElem?
  have hat : nodes[k + (inner.length + 1)]? = some close := by
    rw [← List.getElem?_drop, hdrop]
    simp
  obtain rfl : close = marker := Option.some.inj (hat.symm.trans hget)
  have htag : close.isBlockTag = true := by simp [isBlockTag, isClose_of_closedBy hclose]
  simp [isBlockTag_of_isMarker hword] at htag

/-- Every block that opens before the marker found is closed before it. -/
theorem closedAt_lt_of_markerIndex? (h : markerIndex? nodes word = some i)
    (hclosed : ClosedAt nodes k c) (hk : k < i) : c < i := by
  obtain ⟨⟨hmarker, hexposed⟩, -⟩ := markerIndex?_eq_some h
  -- A close behind the marker would make it a nested one, and those are not exposed.
  have hle : c ≤ i := by
    by_contra hlt
    exact hexposed.not_nested (nested_iff_exists_closedAt.2 ⟨k, c, hclosed, hk, by omega⟩)
  have hne : c ≠ i := by
    rintro rfl
    exact hclosed.not_markerAt hmarker
  omega

/-- Nested markers are not found. -/
theorem markerIndex?_eq_none_of_nested (h : ∀ i, MarkerAt word nodes i → Nested nodes i) :
    markerIndex? nodes word = none := by
  rw [Option.eq_none_iff_forall_ne_some]
  intro i hi
  obtain ⟨⟨hmarker, hexposed⟩, -⟩ := markerIndex?_eq_some hi
  exact hexposed.not_nested (h i hmarker)

end Node

open Node

namespace Helper

variable {body : List Node}

theorem branches_of_nested (h : ∀ i, MarkerAt elseMarker body i → Nested body i) :
    branches body = (body, none) := by
  rw [branches, splitAtMarker?, markerIndex?_eq_none_of_nested h]
  rfl

end Helper

namespace Engine

variable {σ : Type} [PartialStore σ]

/-- Whether the helpers that divide their bodies take a body as a whole. -/
structure RendersWhole (engine : Engine σ) (body : List Node) : Prop where
  /-- A condition renders all of the body on the context itself, or nothing. -/
  conditional : ∀ name source span depth arguments nodes limit context holds,
    Table.get? engine.helpers name = some Helper.conditional →
    Node.segments nodes = [⟨.helper name source span depth (some arguments), body⟩] →
    Condition.evaluate arguments.toList context = .ok holds →
      engine.execute (limit + 1) nodes context =
        if holds then engine.execute limit body context
        else some ⟨.ok "", context, engine.partials, []⟩
  /-- A loop renders nothing if the list is missing, is no list or has no entries. -/
  loop : ∀ name source span depth arguments nodes limit context header,
    Table.get? engine.helpers name = some Helper.loop →
    Node.segments nodes = [⟨.helper name source span depth (some arguments), body⟩] →
    LoopHeader.read arguments.toList = .ok header →
    (∀ list, Operand.lookup? header.list context = some list → list.entries = []) →
      engine.execute (limit + 1) nodes context = some ⟨.ok "", context, engine.partials, []⟩
  /-- Without a true value `with` renders all of the body on a copy of the context. -/
  inScope : ∀ name source span depth arguments nodes limit context,
    Table.get? engine.helpers name = some Helper.inScope →
    Node.segments nodes = [⟨.helper name source span depth (some arguments), body⟩] →
    (∀ v, Operand.lookup? arguments.toList context = some v → v.isTruthy = false) →
      engine.execute (limit + 1) nodes context =
        (engine.execute limit body context).map (Outcome.leaving context)

theorem rendersWhole_of_nested (engine : Engine σ) {body : List Node}
    (h : ∀ i, MarkerAt Helper.elseMarker body i → Nested body i) : engine.RendersWhole body where
  conditional name source span depth arguments nodes limit context holds hhelper hnodes hholds := by
    rw [execute_conditional hnodes hhelper hholds, Helper.branches_of_nested h]
    cases holds <;> rfl
  loop name source span depth arguments nodes limit context header hhelper hnodes hheader
      hlist := by
    rw [execute_loop_of_entries_eq_nil hnodes hhelper hheader hlist, Helper.branches_of_nested h]
    rfl
  inScope name source span depth arguments nodes limit context hhelper hnodes hfalsy := by
    rw [execute_inScope_of_falsy hnodes hhelper hfalsy, Helper.branches_of_nested h]
    rfl

/-- The marker found belongs to no block that opens before it, so that nested markers do not divide
a body. -/
theorem nested_markers_stay (engine : Engine σ) :
    (∀ nodes word i, markerIndex? nodes word = some i →
      MarkerAt word nodes i ∧ ∀ k c, ClosedAt nodes k c → k < i → c < i) ∧
    ∀ body, (∀ i, MarkerAt Helper.elseMarker body i → Nested body i) → engine.RendersWhole body :=
  ⟨fun _ _ _ h => ⟨(markerIndex?_eq_some h).1.1, fun _ _ => closedAt_lt_of_markerIndex? h⟩,
    fun _ h => rendersWhole_of_nested engine h⟩

/-- The marker of a nested condition does not divide the outer one, and a marker behind the nested
condition is found. -/
theorem nested_markers_stay_in_condition :
    let engine : Engine Sources := Engine.new { delimiters := ⟨"[", "]"⟩ }
    let marker (start : Nat) : Node := .interpolation "else" "[else]" ⟨start, start + 6⟩ none
    let body : List Node := [.helper "if" "[#if a]" ⟨7, 14⟩ 1 (some "a"), .text "x", marker 15,
      .text "y", .close "if" "[/if]" ⟨22, 27⟩ 1, .text "z"]
    let tag : Node := .helper "if" "[#if c]" ⟨0, 7⟩ 0 (some "c")
    let nodes := tag :: (body ++ [.close "if" "[/if]" ⟨28, 33⟩ 0])
    let context (holds : Bool) := Value.object [("c", .bool holds)]
    (∀ i, MarkerAt Helper.elseMarker body i → Nested body i) ∧
      Table.get? engine.helpers "if" = some Helper.conditional ∧
      Node.segments nodes = [⟨tag, body⟩] ∧
      (∀ holds, Condition.evaluate "c".toList (context holds) = .ok holds) ∧
      (engine.execute 4 nodes (context true)).map (·.result.toOption) = some (some "yz") ∧
      (engine.execute 4 nodes (context false)).map (·.result.toOption) = some (some "") ∧
      markerIndex? (body ++ [marker 28]) "else" = some 6 ∧ ClosedAt (body ++ [marker 28]) 0 4 ∧
      4 < 6 := by
  intro engine marker body tag nodes context
  have hnested : ∀ i, MarkerAt Helper.elseMarker body i → Nested body i := by
    intro i h
    have hi : i < body.length := by
      obtain ⟨node, hnode, -⟩ := h.exists_getElem?
      exact (List.getElem?_eq_some_iff.1 hnode).1
    have hall : ∀ i < 6, MarkerAt Helper.elseMarker body i → Nested body i := by decide
    exact hall i hi h
  have hhelper : Table.get? engine.helpers "if" = some Helper.conditional := rfl
  have hnodes : Node.segments nodes = [⟨tag, body⟩] := rfl
  have hholds (holds : Bool) : Condition.evaluate "c".toList (context holds) = .ok holds := by
    cases holds <;> rfl
  have hmarker : markerIndex? (body ++ [marker 28]) "else" = some 6 := rfl
  have hclosed : ClosedAt (body ++ [marker 28]) 0 4 := ⟨_, _, rfl, by decide, rfl⟩
  obtain ⟨hfound, hwhole⟩ := nested_markers_stay engine
  have hrun (holds : Bool) := (hwhole body hnested).conditional _ _ _ _ _ nodes 3 _ _ hhelper hnodes
    (hholds holds)
  refine ⟨hnested, hhelper, hnodes, hholds, ?_, ?_, hmarker, hclosed,
    (hfound _ _ _ hmarker).2 _ _ hclosed (by decide)⟩
  · rw [hrun true]
    decide
  · rw [hrun false]
    rfl

end Engine

end Stencil
