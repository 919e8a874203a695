import Stencil.Engine.Basic

/-!
# Lists of nodes one behind the other

Two lists of nodes that are put together execute as the one and then the other unless a block is
left open in the first and closed in the second. Only tags that stand outside the bodies of the
first list matter, since a body that is closed already stays as it is. For engines the condition is
stated tag by tag, see `Engine.execute_append_of_forall_opensBlock`.

## Main definitions

* `Node.bare`: the tags of a list that open a block which the list does not close.
* `Node.Apart`: a list does not close what another one leaves open.
* `Environment.executeInTurn`: execution of one list after the other.
-/

namespace Stencil

namespace Node

variable {node close : Node} {first second third inner after rest : List Node}

/-! ## Whole blocks -/

theorem closedBy_eq_false_of_closedBy (h : node.closedBy close) (other : Node) :
    close.closedBy other = false := by
  have := isClose_of_closedBy h
  cases close <;> simp_all [closedBy, isClose]

theorem segments_cons_of_not_closedBy (h : ∀ other ∈ rest, node.closedBy other = false) :
    segments (node :: rest) = ⟨node, []⟩ :: segments rest := by
  rw [segments_cons, body_eq_nil h, List.drop_zero]

theorem segments_cons_of_closedBy (hclose : node.closedBy close)
    (h : ∀ other ∈ inner, node.closedBy other = false) :
    segments (node :: (inner ++ close :: after)) = ⟨node, inner⟩ :: segments after := by
  rw [segments_cons, body_eq_of_closedBy hclose h]
  simp

/-- Induction over a list of nodes that takes a closed block in one step. -/
@[elab_as_elim]
theorem segmentInduction {motive : List Node → Prop} (nil : motive [])
    (bare : ∀ node rest, (∀ other ∈ rest, node.closedBy other = false) → motive rest →
      motive (node :: rest))
    (block : ∀ node inner close after, node.closedBy close →
      (∀ other ∈ inner, node.closedBy other = false) → motive after →
      motive (node :: (inner ++ close :: after)))
    (nodes : List Node) : motive nodes := by
  induction hlength : nodes.length using Nat.strongRecOn generalizing nodes with
  | ind length ih =>
    subst hlength
    cases nodes with
    | nil => exact nil
    | cons node rest =>
      rcases closedBy_cases node rest with h | ⟨inner, close, after, rfl, hclose, h⟩
      · exact bare node rest h (ih _ (by simp) rest rfl)
      · exact block node inner close after hclose h (ih _ (by simp; omega) after rfl)

/-- The node of a segment and its body stand in the list in this order. -/
theorem sublist_of_mem_segments {nodes : List Node} {segment : Segment}
    (h : segment ∈ segments nodes) : (segment.node :: segment.body).Sublist nodes := by
  induction nodes using segmentInduction with
  | nil => simp at h
  | bare node rest hnone ih =>
    rw [segments_cons_of_not_closedBy hnone] at h
    rcases List.mem_cons.1 h with rfl | h
    · exact (List.nil_sublist rest).cons_cons node
    · exact (ih h).cons node
  | block node inner close after hclose hinner ih =>
    rw [segments_cons_of_closedBy hclose hinner] at h
    rcases List.mem_cons.1 h with rfl | h
    · exact (List.sublist_append_left inner (close :: after)).cons_cons node
    · have hafter : after.Sublist (inner ++ close :: after) :=
        (List.sublist_cons_self close after).trans (List.sublist_append_right inner _)
      exact (ih h).trans (hafter.cons node)

/-- The nodes of a segment are nodes of the list. -/
theorem mem_of_mem_segments {nodes : List Node} {segment : Segment} (h : segment ∈ segments nodes) :
    segment.node ∈ nodes ∧ segment.body ⊆ nodes :=
  List.cons_subset.1 (sublist_of_mem_segments h).subset

/-! ## Bare tags -/

/-- The bare tags of a list of nodes after its first `skipped` nodes. -/
def bareAfter (skipped : Nat) : List Node → List Node
  | [] => []
  | node :: rest =>
    match skipped with
    | k + 1 => bareAfter k rest
    | 0 =>
      match node.body rest with
      | (_, 0) => if node.opensBlock then node :: bareAfter 0 rest else bareAfter 0 rest
      | (_, count) => bareAfter count rest

/-- The tags outside the bodies of blocks that open a block which nothing closes. -/
def bare (nodes : List Node) : List Node :=
  bareAfter 0 nodes

theorem bareAfter_eq (skipped : Nat) (nodes : List Node) :
    bareAfter skipped nodes = bare (nodes.drop skipped) := by
  induction nodes generalizing skipped with
  | nil => simp [bare, bareAfter]
  | cons node rest ih =>
    cases skipped with
    | zero => rfl
    | succ k => simpa [bareAfter] using ih k

@[simp] theorem bare_nil : bare [] = [] := rfl

theorem bare_cons_of_not_closedBy (h : ∀ other ∈ rest, node.closedBy other = false) :
    bare (node :: rest) = if node.opensBlock then node :: bare rest else bare rest := by
  rw [bare, bareAfter, body_eq_nil h]
  rfl

theorem bare_cons_of_closedBy (hclose : node.closedBy close)
    (h : ∀ other ∈ inner, node.closedBy other = false) :
    bare (node :: (inner ++ close :: after)) = bare after := by
  rw [bare, bareAfter, body_eq_of_closedBy hclose h]
  simp [bareAfter_eq]

theorem mem_bare (h : node ∈ bare first) : node ∈ first ∧ node.opensBlock := by
  induction first using segmentInduction with
  | nil => simp at h
  | bare head rest hnone ih =>
    rw [bare_cons_of_not_closedBy hnone] at h
    split at h
    · next hopens =>
      rcases List.mem_cons.1 h with rfl | h
      · exact ⟨List.mem_cons_self, hopens⟩
      · exact ⟨List.mem_cons_of_mem _ (ih h).1, (ih h).2⟩
    · exact ⟨List.mem_cons_of_mem _ (ih h).1, (ih h).2⟩
  | block head inner close after hclose hinner ih =>
    rw [bare_cons_of_closedBy hclose hinner] at h
    exact ⟨by simp [(ih h).1], (ih h).2⟩

/-- Nothing behind a bare tag closes it. -/
theorem exists_append_of_mem_bare (h : node ∈ bare first) :
    ∃ before after, first = before ++ node :: after ∧
      ∀ other ∈ after, node.closedBy other = false := by
  induction first using segmentInduction with
  | nil => simp at h
  | bare head rest hnone ih =>
    rw [bare_cons_of_not_closedBy hnone] at h
    have hmem : node = head ∨ node ∈ bare rest := by
      split at h
      · exact List.mem_cons.1 h
      · exact .inr h
    rcases hmem with rfl | hrest
    · exact ⟨[], rest, rfl, hnone⟩
    · obtain ⟨before, after, rfl, hafter⟩ := ih hrest
      exact ⟨head :: before, after, rfl, hafter⟩
  | block head inner close rest hclose hinner ih =>
    rw [bare_cons_of_closedBy hclose hinner] at h
    obtain ⟨before, after, rfl, hafter⟩ := ih h
    exact ⟨head :: (inner ++ close :: before), after, by simp, hafter⟩

/-- Whether the second list closes no block that the first one leaves open. -/
def Apart (first second : List Node) : Prop :=
  ∀ node ∈ bare first, ∀ other ∈ second, node.closedBy other = false

instance (first second : List Node) : Decidable (Apart first second) :=
  inferInstanceAs (Decidable (∀ node ∈ bare first, ∀ other ∈ second, node.closedBy other = false))

theorem apart_of_left (h : ∀ node ∈ first, node.isBlockTag = false) : Apart first second := by
  intro node hnode
  obtain ⟨hmem, hopens⟩ := mem_bare hnode
  have := h node hmem
  simp [isBlockTag, hopens] at this

theorem apart_of_right (h : ∀ node ∈ second, node.isBlockTag = false) : Apart first second := by
  intro node _ other hother
  cases hclose : node.closedBy other with
  | false => rfl
  | true =>
    have := h other hother
    simp [isBlockTag, isClose_of_closedBy hclose] at this

/-- Lists are apart if each tag of the first one that opens a block has a close behind it there, or
none in the second one. -/
theorem apart_of_forall_opensBlock
    (h : ∀ i, (hi : i < first.length) → first[i].opensBlock →
      (∃ close ∈ first.drop (i + 1), first[i].closedBy close) ∨
        ∀ other ∈ second, first[i].closedBy other = false) : Apart first second := by
  intro node hnode
  obtain ⟨before, after, rfl, hafter⟩ := exists_append_of_mem_bare hnode
  have hopens := (mem_bare hnode).2
  have hcases := h before.length (by simp) (by simpa using hopens)
  have hdrop : (before ++ node :: after).drop (before.length + 1) = after := by
    rw [List.append_cons]
    exact List.drop_left' (by simp)
  rw [hdrop] at hcases
  simp only [List.getElem_append_right, Nat.le_refl, Nat.sub_self, List.getElem_cons_zero] at hcases
  rcases hcases with ⟨close, hmem, hclose⟩ | hnone
  · simp [hafter close hmem] at hclose
  · exact hnone

theorem apart_cons_of_not_closedBy (h : ∀ other ∈ rest, node.closedBy other = false) :
    Apart (node :: rest) second ↔
      (∀ other ∈ second, node.closedBy other = false) ∧ Apart rest second := by
  rw [Apart, bare_cons_of_not_closedBy h]
  cases hopens : node.opensBlock with
  | true => simp [Apart]
  | false =>
    have hnone (other : Node) : node.closedBy other = false := by
      cases hclose : node.closedBy other with
      | false => rfl
      | true => simp [opensBlock_of_closedBy hclose] at hopens
    simp [Apart, hnone]

theorem apart_cons_of_closedBy (hclose : node.closedBy close)
    (h : ∀ other ∈ inner, node.closedBy other = false) :
    Apart (node :: (inner ++ close :: after)) second ↔ Apart after second := by
  rw [Apart, bare_cons_of_closedBy hclose h, Apart]

theorem apart_append_iff :
    Apart first (second ++ third) ↔ Apart first second ∧ Apart first third := by
  simp only [Apart, List.mem_append, or_imp, forall_and]

/-- Lists that are put together keep their segments if and only if they are apart. -/
theorem segments_append_iff :
    segments (first ++ second) = segments first ++ segments second ↔ Apart first second := by
  induction first using segmentInduction with
  | nil => simp [Apart]
  | bare node rest hnone ih =>
    rw [apart_cons_of_not_closedBy hnone, segments_cons_of_not_closedBy hnone, ← ih]
    rcases closedBy_cases node second with h | ⟨inner, close, after, rfl, hclose, hinner⟩
    · have hnone' : ∀ other ∈ rest ++ second, node.closedBy other = false := by
        simpa [or_imp, forall_and] using ⟨hnone, h⟩
      rw [List.cons_append, List.cons_append, segments_cons_of_not_closedBy hnone',
        List.cons_inj_right, and_iff_right h]
    · -- The close takes all that stands before it into the body of the bare tag.
      have hinner' : ∀ other ∈ rest ++ inner, node.closedBy other = false := by
        simpa [or_imp, forall_and] using ⟨hnone, hinner⟩
      refine iff_of_false (fun heq => ?_) fun hapart => ?_
      · rw [List.cons_append, ← List.append_assoc, segments_cons_of_closedBy hclose hinner',
          List.cons_append, List.cons.injEq] at heq
        obtain ⟨hbody, hrest⟩ := heq
        obtain ⟨rfl, rfl⟩ := List.append_eq_nil_iff.1 (Segment.mk.inj hbody).2
        rw [segments_nil, List.nil_append, List.nil_append,
          segments_cons_of_not_closedBy fun other _ => closedBy_eq_false_of_closedBy hclose other]
          at hrest
        exact List.cons_ne_self _ _ hrest.symm
      · simp [hapart.1 close (by simp)] at hclose
  | block node inner close after hclose hinner ih =>
    rw [apart_cons_of_closedBy hclose hinner, List.cons_append, List.append_assoc,
      List.cons_append, segments_cons_of_closedBy hclose hinner,
      segments_cons_of_closedBy hclose hinner, List.cons_append, List.cons_inj_right, ih]

end Node

namespace Outcome

variable {σ : Type}

theorem andThen_done (outcome : Outcome σ) :
    outcome.andThen (fun context store => some ⟨.ok "", context, store, []⟩) = some outcome := by
  obtain ⟨result, context, store, diagnostics⟩ := outcome
  cases result <;> simp [andThen, following, report, Except.map]

end Outcome

namespace Environment

variable {σ : Type}

/-- Executes lists of nodes one after the other up to the first error. -/
def executeInTurn (env : Environment σ) (limit : Nat) :
    List (List Node) → Value → σ → Option (Outcome σ)
  | [], context, store => some ⟨.ok "", context, store, []⟩
  | nodes :: rest, context, store =>
    (env.execute limit nodes context store).bind fun outcome =>
      outcome.andThen (env.executeInTurn limit rest)

theorem executeInTurn_singleton (env : Environment σ) (limit : Nat) (nodes : List Node) :
    env.executeInTurn limit [nodes] = env.execute limit nodes := by
  funext context store
  simp [executeInTurn, Outcome.andThen_done]

/-- Lists that are apart execute one after the other when they are put together. -/
theorem execute_append {first second : List Node} (h : Node.Apart first second)
    (env : Environment σ) (limit : Nat) (context : Value) (store : σ) :
    env.execute limit (first ++ second) context store =
      (env.execute limit first context store).bind fun outcome =>
        outcome.andThen (env.execute limit second) := by
  cases limit with
  | zero => rfl
  | succ limit =>
    rw [execute, Node.segments_append_iff.2 h, runSegments_append]
    rfl

/-! ## Single segments -/

variable {env : Environment σ} {store : σ}

/-- Nodes that are one segment are executed as this segment. -/
theorem execute_of_segments_eq {nodes : List Node} {segment : Segment}
    (h : Node.segments nodes = [segment]) (limit : Nat) (context : Value) :
    env.execute (limit + 1) nodes context store =
      env.runSegment (env.execute limit) segment context store := by
  rw [execute, h, runSegments]
  cases env.runSegment (env.execute limit) segment context store with
  | none => rfl
  | some outcome => exact Outcome.andThen_done outcome

/-- A tag of a helper is executed as the helper plans it. -/
theorem execute_helper {nodes body : List Node} {key source : String} {span : Span} {depth : Nat}
    {arguments : Option String} {helper : Helper}
    (h : Node.segments nodes = [⟨.helper key source span depth arguments, body⟩])
    (hhelper : env.helper? key = some helper) (limit : Nat) (context : Value) :
    env.execute (limit + 1) nodes context store =
      (helper context (.helper key source span depth arguments) body).run (env.execute limit)
        store := by
  rw [execute_of_segments_eq h]
  simp only [runSegment, hhelper]

end Environment

/-! ## Engines -/

namespace Engine

variable {σ : Type} [PartialStore σ]

/-- Two lists of nodes that are put together keep their blocks and execute as the one and then, if
it succeeds, as the other on the context that the first one leaves behind, as long as each tag of
the first list that opens a block has a close behind it there, or none in the second list. -/
theorem execute_append_of_forall_opensBlock (engine : Engine σ) {first second : List Node}
    (h : ∀ i, (hi : i < first.length) → first[i].opensBlock →
      (∃ close ∈ first.drop (i + 1), first[i].closedBy close) ∨
        ∀ other ∈ second, first[i].closedBy other = false) :
    Node.segments (first ++ second) = Node.segments first ++ Node.segments second ∧
      ∀ limit context, engine.execute limit (first ++ second) context =
        (engine.execute limit first context).bind fun outcome =>
          match outcome.result with
          | .error _ => some outcome
          | .ok text =>
            ((engine.after outcome).execute limit second outcome.context).map fun later =>
              ⟨later.result.map (text ++ ·), later.context, later.store,
                outcome.diagnostics ++ later.diagnostics⟩ := by
  have hapart := Node.apart_of_forall_opensBlock h
  refine ⟨Node.segments_append_iff.2 hapart, fun limit context => ?_⟩
  exact Environment.execute_append hapart engine.environment limit context engine.partials

/-- Bare tags in a block and behind it, before a block with the same key and another depth. -/
theorem execute_append_of_forall_opensBlock_bare :
    let engine : Engine Cells := Engine.new { delimiters := ⟨"[", "]"⟩ }
    let first : List Node := [.helper "if" "[#if x]" ⟨0, 7⟩ 0 (some "x"),
      .helper "g" "[#g]" ⟨7, 11⟩ 0 none, .text "a", .close "if" "[/if]" ⟨12, 17⟩ 0,
      .helper "set" "[#set x = 2]" ⟨17, 29⟩ 0 (some "x = 2")]
    let second : List Node := [.helper "set" "[#set x = 3]" ⟨29, 41⟩ 1 (some "x = 3"),
      .interpolation "x" "[x]" ⟨41, 44⟩ none, .close "set" "[/set]" ⟨44, 50⟩ 1,
      .helper "h" "[#h]" ⟨50, 54⟩ 0 none, .interpolation "x" "[x]" ⟨54, 57⟩ none]
    let context := Value.object [("x", .bool true)]
    (∀ i, (hi : i < first.length) → first[i].opensBlock →
      (∃ close ∈ first.drop (i + 1), first[i].closedBy close) ∨
        ∀ other ∈ second, first[i].closedBy other = false) ∧
      Node.segments (first ++ second) = Node.segments first ++ Node.segments second ∧
      (engine.execute 3 (first ++ second) context).map
        (fun outcome => (outcome.result.toOption, outcome.diagnostics)) =
        some (some "a32", [.helperNotFound "g" ⟨7, 11⟩, .helperNotFound "h" ⟨50, 54⟩]) := by
  intro engine first second context
  have h : ∀ i, (hi : i < first.length) → first[i].opensBlock →
      (∃ close ∈ first.drop (i + 1), first[i].closedBy close) ∨
        ∀ other ∈ second, first[i].closedBy other = false := by decide
  obtain ⟨hsegments, hexecute⟩ := execute_append_of_forall_opensBlock engine h
  have hfirst : engine.execute 3 first context = some ⟨.ok "a",
      .object [("x", .number (.int 2))], ⟨[]⟩, [.helperNotFound "g" ⟨7, 11⟩]⟩ := rfl
  refine ⟨h, hsegments, ?_⟩
  rw [hexecute, hfirst]
  rfl

end Engine

end Stencil
