import Mathlib.Tactic.Common
import Stencil.Proofs.Simulation
import Stencil.Proofs.Splice

/-!
# Templates without their comments

A comment renders nothing, divides no block and ends none, so that a template and all partials can
do without their comments. There is one exception: an assignment is made in the context if the tag
has no body, and a body of comments alone is a body. Such an assignment is made for the comments
only and lost behind them, but made in the context once they are removed.

## Main definitions

* `Node.withoutComments`: a list of nodes without its comments.
* `Engine.uncommented`: an engine without the comments of its partials.
* `Engine.Reaches`: the segments that an execution may come to.
* `Engine.Hollow`, `Engine.Harmless`: assignments around nothing but comments, and nodes whose
  execution comes to none.
-/

namespace Stencil

namespace Node

variable {nodes before after : List Node} {word : String}

/-! ## Lists without comments -/

def isComment : Node → Bool
  | comment .. => true
  | _ => false

/-- The nodes of a list that are no comments. -/
def withoutComments (nodes : List Node) : List Node :=
  nodes.filter (!·.isComment)

theorem isComment_of_isBlockTag {node : Node} (h : node.isBlockTag) : node.isComment = false := by
  cases node <;> simp_all [isComment, isBlockTag, opensBlock, isClose]

theorem isComment_of_isMarker {node : Node} (h : node.isMarker word) : node.isComment = false := by
  cases node <;> simp_all [isComment, isMarker]

theorem withoutComments_append (first second : List Node) :
    withoutComments (first ++ second) = withoutComments first ++ withoutComments second :=
  List.filter_append first second

theorem withoutComments_cons {node : Node} (h : node.isComment = false) (rest : List Node) :
    withoutComments (node :: rest) = node :: withoutComments rest :=
  List.filter_cons_of_pos (by simp [h])

/-! ## Markers -/

theorem takeWhile_withoutComments (nodes : List Node) :
    (withoutComments nodes).takeWhile (!·.isBlockTag) =
      withoutComments (nodes.takeWhile (!·.isBlockTag)) := by
  have hrun : (fun node => !!node.isComment || !node.isBlockTag) =
      fun node : Node => !node.isBlockTag := by
    funext node
    cases htag : node.isBlockTag with
    | true => simp [isComment_of_isBlockTag htag]
    | false => simp
  rw [withoutComments, List.takeWhile_filter, hrun]
  rfl

theorem leadingRun_withoutComments (nodes : List Node) :
    leadingRun (withoutComments nodes) = withoutComments (leadingRun nodes) :=
  takeWhile_withoutComments nodes

theorem trailingRun_withoutComments (nodes : List Node) :
    trailingRun (withoutComments nodes) = withoutComments (trailingRun nodes) := by
  have hreverse (nodes : List Node) :
      (withoutComments nodes).reverse = withoutComments nodes.reverse :=
    List.filter_reverse.symm
  rw [trailingRun, trailingRun, hreverse, takeWhile_withoutComments, hreverse]

theorem findIdx?_withoutComments (nodes : List Node) (word : String) :
    (withoutComments nodes).findIdx? (·.isMarker word) =
      (nodes.findIdx? (·.isMarker word)).map fun i => (withoutComments (nodes.take i)).length := by
  induction nodes with
  | nil => rfl
  | cons node rest ih =>
    cases hcomment : node.isComment with
    | true =>
      have hword : node.isMarker word = false :=
        Bool.eq_false_iff.2 fun h => by simp [isComment_of_isMarker h] at hcomment
      have hdrop (rest : List Node) : withoutComments (node :: rest) = withoutComments rest :=
        List.filter_cons_of_neg (by simp [hcomment])
      simp only [hdrop, ih, List.findIdx?_cons, hword, Bool.false_eq_true, if_false,
        Option.map_map, Function.comp_def, List.take_succ_cons]
    | false =>
      rw [withoutComments_cons hcomment, List.findIdx?_cons, List.findIdx?_cons, ih]
      split
      · rfl
      · simp only [Option.map_map, Function.comp_def, List.take_succ_cons,
          withoutComments_cons hcomment, List.length_cons]

theorem markerIndex?_withoutComments (nodes : List Node) (word : String) :
    markerIndex? (withoutComments nodes) word =
      (markerIndex? nodes word).map fun i => (withoutComments (nodes.take i)).length := by
  unfold markerIndex?
  rw [leadingRun_withoutComments, trailingRun_withoutComments, findIdx?_withoutComments]
  cases hlead : (leadingRun nodes).findIdx? (·.isMarker word) with
  | some i =>
    obtain ⟨hi, -⟩ := List.findIdx?_eq_some_iff_getElem.1 hlead
    have hrun : leadingRun nodes = nodes.take (leadingRun nodes).length :=
      List.prefix_iff_eq_take.1 (List.takeWhile_prefix _)
    have htake : (leadingRun nodes).take i = nodes.take i := by
      rw [hrun, List.take_take, Nat.min_eq_left (Nat.le_of_lt hi)]
    simp only [Option.map_some, htake]
  | none =>
    obtain ⟨front, hfront⟩ := trailingRun_suffix nodes
    generalize trailingRun nodes = run at hfront
    subst hfront
    have htake (i : Nat) : (withoutComments (run.take i)).length +
        ((withoutComments (front ++ run)).length - (withoutComments run).length) =
        (withoutComments ((front ++ run).take
          (i + ((front ++ run).length - run.length)))).length := by
      rw [List.length_append, Nat.add_sub_cancel, Nat.add_comm i, List.take_length_add_append,
        withoutComments_append, withoutComments_append, List.length_append, List.length_append,
        Nat.add_sub_cancel, Nat.add_comm]
    dsimp only [Option.map_none]
    simp only [findIdx?_withoutComments, Option.map_map, Function.comp_def, htake]

theorem splitAtMarker?_withoutComments (nodes : List Node) (word : String) :
    splitAtMarker? (withoutComments nodes) word =
      (splitAtMarker? nodes word).map fun (before, after) =>
        (withoutComments before, withoutComments after) := by
  cases h : splitAtMarker? nodes word with
  | none =>
    rw [splitAtMarker?, Option.map_eq_none_iff] at h
    rw [splitAtMarker?, markerIndex?_withoutComments, h]
    rfl
  | some parts =>
    obtain ⟨before, after⟩ := parts
    obtain ⟨marker, hmarker, hnodes⟩ := exists_marker_of_splitAtMarker h
    obtain ⟨i, hfound, hparts⟩ := Option.map_eq_some_iff.1 h
    obtain ⟨hbefore, -⟩ := Prod.mk.inj hparts
    have hwithout : withoutComments nodes =
        withoutComments before ++ marker :: withoutComments after := by
      rw [hnodes, withoutComments_append, withoutComments_cons (isComment_of_isMarker hmarker)]
    rw [splitAtMarker?, markerIndex?_withoutComments, hfound, hwithout]
    simp [hbefore]

/-- Blocks keep their tags, and bodies lose their comments. -/
theorem aligned_withoutComments {σ τ : Type} {s : Simulation σ τ} {nodes : List Node}
    (hblock : ∀ node body, ⟨node, body⟩ ∈ segments nodes →
      s.block node body (withoutComments body)) :
    s.Aligned (segments nodes) (segments (withoutComments nodes)) := by
  induction nodes using segmentInduction with
  | nil => exact .nil
  | bare node rest hnone ih =>
    rw [segments_cons_of_not_closedBy hnone] at hblock ⊢
    have hrest := ih fun node body h => hblock node body (List.mem_cons_of_mem _ h)
    cases hcomment : node.isComment with
    | true =>
      cases node with
      | comment => exact .comment hrest
      | _ => simp [isComment] at hcomment
    | false =>
      have hnone' : ∀ other ∈ withoutComments rest, node.closedBy other = false :=
        fun other h => hnone other (List.mem_filter.1 h).1
      rw [withoutComments_cons hcomment, segments_cons_of_not_closedBy hnone']
      exact .cons (hblock node [] List.mem_cons_self) hrest
  | block node inner close after hclose hinner ih =>
    rw [segments_cons_of_closedBy hclose hinner] at hblock ⊢
    have hrest := ih fun node body h => hblock node body (List.mem_cons_of_mem _ h)
    have hinner' : ∀ other ∈ withoutComments inner, node.closedBy other = false :=
      fun other h => hinner other (List.mem_filter.1 h).1
    have hopens : node.isComment = false :=
      isComment_of_isBlockTag (by simp [isBlockTag, opensBlock_of_closedBy hclose])
    have hcloses : close.isComment = false :=
      isComment_of_isBlockTag (by simp [isBlockTag, isClose_of_closedBy hclose])
    rw [withoutComments_cons hopens, withoutComments_append, withoutComments_cons hcloses,
      segments_cons_of_closedBy hclose hinner']
    exact .cons (hblock node inner List.mem_cons_self) hrest

end Node

open Node

theorem spliceContent_withoutComments (nodes content : List Node) :
    spliceContent (withoutComments nodes) (withoutComments content) =
      withoutComments (spliceContent nodes content) := by
  rw [spliceContent, spliceContent, splitAtMarker?_withoutComments]
  cases splitAtMarker? nodes contentMarker with
  | none => rfl
  | some parts => simp only [Option.map_some, withoutComments_append]

theorem Helper.branches_withoutComments (body : List Node) :
    branches (withoutComments body) =
      (withoutComments (branches body).1, (branches body).2.map withoutComments) := by
  rw [branches, branches, splitAtMarker?_withoutComments]
  cases splitAtMarker? body elseMarker <;> rfl

/-! ## Helpers -/

namespace Helper

variable {σ τ : Type} {s : Simulation σ τ} {body body' : List Node}

/-- Whether two bodies have related branches. -/
structure Divided (s : Simulation σ τ) (body body' : List Node) : Prop where
  first : s.nodes (branches body).1 (branches body').1
  second : Option.Rel s.nodes (branches body).2 (branches body').2

/-- Whether a helper answers alike to a tag with two bodies. -/
def Simulates (s : Simulation σ τ) (body body' : List Node) (helper : Helper) : Prop :=
  ∀ context node, Plan.Simulates s (helper context node body) (helper context node body')

variable (hsame : s.context = Eq)

include hsame

theorem context_refl (context : Value) : s.context context context := by
  rw [hsame]

theorem simulates_conditional (h : Divided s body body') : conditional.Simulates s body body' := by
  intro context node
  unfold conditional
  split
  · exact .done _ (context_refl hsame context)
  · split
    · exact .done _ (context_refl hsame context)
    · next holds _ =>
      refine simulates_renderBranch ?_ (context_refl hsame context)
      cases holds with
      | true => exact .some h.first
      | false => exact h.second

theorem simulates_loop (h : Divided s body body') : loop.Simulates s body body' := by
  intro context node
  unfold loop
  dsimp only
  split
  · exact .done _ (context_refl hsame context)
  · split
    · exact .done _ (context_refl hsame context)
    · split
      · exact simulates_renderBranch h.second (context_refl hsame context)
      · refine simulates_passes h.first (context_refl hsame context) ?_ _ 0
          (context_refl hsame context) ""
        rw [hsame]
        rintro scope _ pairs rfl
        rfl

theorem simulates_inScope (h : Divided s body body') : inScope.Simulates s body body' := by
  intro context node
  have hcontext := context_refl hsame context
  obtain ⟨hfirst, hsecond⟩ := h
  unfold inScope
  split
  · exact .done _ hcontext
  · next arguments _ =>
    dsimp only
    generalize (branches body).2 = second at hsecond
    generalize (branches body').2 = second' at hsecond
    cases (Operand.lookup? arguments.toList context).filter Value.isTruthy with
    | some v => exact Plan.simulates_renderApart hfirst (context_refl hsame _) hcontext
    | none =>
      cases hsecond with
      | some h => exact Plan.simulates_renderHere h hcontext
      | none => exact Plan.simulates_renderApart hfirst hcontext hcontext

/-- Assignments ask whether a body is empty. -/
theorem simulates_assignment (h : s.nodes body body') (hempty : body.isEmpty = body'.isEmpty)
    (bind : Value → List (String × Value) → Value) :
    (assignment bind).Simulates s body body' := by
  intro context node
  unfold assignment
  dsimp only
  split
  · exact .done _ (context_refl hsame context)
  · split
    · exact .done _ (context_refl hsame context)
    · rw [← hempty]
      split
      · exact .done _ (context_refl hsame _)
      · exact Plan.simulates_renderApart h (context_refl hsame _) (context_refl hsame context)

theorem simulates_ofFunction (h : s.nodes body body') (f : List Value → String) :
    (ofFunction f).Simulates s body body' := by
  intro context node
  refine .render h (context_refl hsame context) fun result left left' hleft => ?_
  cases result with
  | error e => exact .done _ hleft
  | ok content => exact .done _ hleft

/-- Built-in helpers and functions take no notice of what related bodies differ in, but assignments
ask whether a body is empty. -/
theorem simulates_of_ordinary {name : String} {helper : Helper}
    (h : (name, helper) ∈ builtins ∨ ∃ f, helper = ofFunction f) (hbody : s.nodes body body')
    (hdivided : Divided s body body')
    (hempty : ∀ bind, helper = assignment bind → body.isEmpty = body'.isEmpty) :
    helper.Simulates s body body' := by
  rcases h with h | ⟨f, rfl⟩
  · exact forall_mem_builtins
      (P := fun _ helper => (∀ bind, helper = assignment bind → body.isEmpty = body'.isEmpty) →
        helper.Simulates s body body')
      (fun _ => simulates_conditional hsame hdivided) (fun _ => simulates_loop hsame hdivided)
      (fun _ => simulates_loop hsame hdivided) (fun _ => simulates_inScope hsame hdivided)
      (fun hempty => simulates_assignment hsame hbody (hempty _ rfl) _)
      (fun hempty => simulates_assignment hsame hbody (hempty _ rfl) _) h hempty
  · exact simulates_ofFunction hsame hbody f

end Helper

/-! ## Comments in a body -/

namespace Environment

variable {σ : Type} {env : Environment σ}

/-- Comments render nothing. -/
theorem execute_comments {comments : List Node} (h : withoutComments comments = []) (limit : Nat)
    (context : Value) (store : σ) :
    env.execute (limit + 1) comments context store = some ⟨.ok "", context, store, []⟩ := by
  rw [execute]
  induction comments with
  | nil => rfl
  | cons node rest ih =>
    cases node with
    | comment key source span =>
      rw [segments_cons_of_not_closedBy fun _ _ => rfl, runSegments]
      simpa only [runSegment, Option.bind_some, Outcome.andThen_nothing] using ih h
    | _ => simp [withoutComments, isComment] at h

/-- Assignments are made in the context if there is nothing between a tag and its close, and are
lost if there are comments. -/
theorem execute_assignment {key source : String} {span : Span} {depth : Nat} {arguments : String}
    {bind : Value → List (String × Value) → Value} {close : Node} {comments : List Node}
    (hhelper : env.helper? key = some (Helper.assignment bind)) (hclose : close.closes key depth)
    (hcomments : withoutComments comments = []) {context : Value} {pairs : List (String × Value)}
    (hpairs : Assignment.read arguments.toList context = .ok pairs) (limit : Nat) (store : σ) :
    env.execute (limit + 2)
        (.helper key source span depth (some arguments) :: (comments ++ [close])) context store =
      some ⟨.ok "", if comments.isEmpty then bind context pairs else context, store, []⟩ := by
  let tag := Node.helper key source span depth (some arguments)
  have hclosed : tag.closedBy close := hclose
  have hopen : ∀ other ∈ comments, tag.closedBy other = false := by
    intro other hother
    have hcomment : other.isComment := by
      simpa using List.filter_eq_nil_iff.1 hcomments other hother
    cases other <;> first | rfl | contradiction
  have hsegments : segments (tag :: (comments ++ [close])) = [⟨tag, comments⟩] :=
    segments_cons_of_closedBy hclosed hopen
  rw [execute_helper hsegments hhelper]
  simp only [Helper.assignment, Node.arguments?, hpairs]
  split
  · rfl
  · simp only [Plan.renderApart, Plan.run, execute_comments hcomments]
    rfl

end Environment

/-! ## What an execution may come to -/

namespace Engine

variable {σ : Type} [PartialStore σ] {engine : Engine σ} {nodes inner : List Node}

/-- The segments that an execution of nodes may come to, whatever the context. -/
inductive Reaches (engine : Engine σ) (nodes : List Node) : Segment → Prop
  | own {segment : Segment} (hsegment : segment ∈ segments nodes) : Reaches engine nodes segment
  /-- In the block of a helper. -/
  | block {key source : String} {span : Span} {depth : Nat} {arguments : Option String}
      {body : List Node} {segment : Segment}
      (h : Reaches engine nodes ⟨.helper key source span depth arguments, body⟩)
      (hhelper : (Table.get? engine.helpers key).isSome) (hsegment : segment ∈ segments body) :
      Reaches engine nodes segment
  /-- In the content for an unknown partial. -/
  | content {key source : String} {span : Span} {depth : Nat} {arguments : Option String}
      {body : List Node} {segment : Segment}
      (h : Reaches engine nodes ⟨.inclusion key source span depth arguments, body⟩)
      (hpartial : engine.definition? key = none) (hsegment : segment ∈ segments body) :
      Reaches engine nodes segment
  /-- In a partial with its content. -/
  | inclusion {key source : String} {span : Span} {depth : Nat} {arguments : Option String}
      {body definition : List Node} {segment : Segment}
      (h : Reaches engine nodes ⟨.inclusion key source span depth arguments, body⟩)
      (hpartial : engine.definition? key = some (.ok definition))
      (hsegment : segment ∈ segments (spliceContent definition body)) :
      Reaches engine nodes segment

/-- Whether a segment makes assignments around nothing but comments, which its helper takes for a
body. -/
inductive Hollow (engine : Engine σ) : Segment → Prop
  | intro {key source : String} {span : Span} {depth : Nat} {arguments : Option String}
      {bind : Value → List (String × Value) → Value} {body : List Node}
      (hhelper : Table.get? engine.helpers key = some (Helper.assignment bind)) (hbody : body ≠ [])
      (hcomments : withoutComments body = []) :
      Hollow engine ⟨.helper key source span depth arguments, body⟩

/-- Whether an execution of nodes comes to no assignments around nothing but comments. -/
def Harmless (engine : Engine σ) (nodes : List Node) : Prop :=
  ∀ segment, engine.Reaches nodes segment → ¬ engine.Hollow segment

/-- What is reached from a list is reached from where its segments are reached. -/
theorem Reaches.trans {segment : Segment} (h : engine.Reaches inner segment)
    (hinner : ∀ segment ∈ segments inner, engine.Reaches nodes segment) :
    engine.Reaches nodes segment := by
  induction h with
  | own hsegment => exact hinner _ hsegment
  | block _ hhelper hsegment ih => exact .block ih hhelper hsegment
  | content _ hpartial hsegment ih => exact .content ih hpartial hsegment
  | inclusion _ hpartial hsegment ih => exact .inclusion ih hpartial hsegment

theorem Harmless.of_reaches (h : engine.Harmless nodes)
    (hinner : ∀ segment ∈ segments inner, engine.Reaches nodes segment) : engine.Harmless inner :=
  fun segment hsegment => h segment (hsegment.trans hinner)

/-- The branches of a body are no more than the body. -/
theorem Harmless.branches (h : engine.Harmless nodes) :
    engine.Harmless (Helper.branches nodes).1 ∧
      ∀ second ∈ (Helper.branches nodes).2, engine.Harmless second := by
  unfold Helper.branches
  split
  · next first second hsplit =>
    obtain ⟨marker, hsegments⟩ := segments_of_splitAtMarker hsplit
    have hreaches {part : List Node} (hpart : segments part ⊆ segments nodes) :
        engine.Harmless part := h.of_reaches fun segment hmem => .own (hpart hmem)
    refine ⟨hreaches (by simp [hsegments]), fun other hother => ?_⟩
    obtain rfl := Option.some.inj hother
    exact hreaches (by simp [hsegments])
  · exact ⟨h, by simp⟩

/-! ## Partials without comments -/

/-- Removes the comments from a partial unless it does not parse. -/
def removeComments (engine : Engine σ) (name : String) : Engine σ :=
  match engine.definition? name with
  | some (.ok definition) => engine.registerPartial name (.nodes (withoutComments definition))
  | _ => engine

/-- Removes the comments from some partials. -/
def removeAllComments (engine : Engine σ) (names : List String) : Engine σ :=
  names.foldl removeComments engine

/-- The engine with all comments removed from its partials. -/
def uncommented (engine : Engine σ) : Engine σ :=
  engine.removeAllComments (PartialStore.names engine.partials)

theorem environment_removeComments (engine : Engine σ) (name : String) :
    (engine.removeComments name).environment = engine.environment := by
  unfold removeComments
  split <;> rfl

theorem environment_removeAllComments (engine : Engine σ) (names : List String) :
    (engine.removeAllComments names).environment = engine.environment := by
  induction names generalizing engine with
  | nil => rfl
  | cons name rest ih => exact (ih _).trans (engine.environment_removeComments name)

/-- Nothing is removed but comments of partials. -/
theorem environment_uncommented (engine : Engine σ) :
    engine.uncommented.environment = engine.environment :=
  engine.environment_removeAllComments _

section

variable [ListedPartialStore σ]

theorem definition?_removeComments (engine : Engine σ) (used name : String) :
    (engine.removeComments used).definition? name =
      if name = used then (engine.definition? name).map (Except.map withoutComments)
      else engine.definition? name := by
  unfold removeComments
  split
  · next definition h =>
    rw [definition?_registerPartial]
    split
    · next heq =>
      rw [heq, h]
      rfl
    · rfl
  · next h =>
    split
    · next heq =>
      subst heq
      rcases hfound : engine.definition? name with _ | e | definition
      · rfl
      · rfl
      · exact absurd hfound (h definition)
    · rfl

/-- Removing comments twice is removing them once. -/
theorem map_withoutComments_map_withoutComments
    (found : Option (Except ParseError (List Node))) :
    (found.map (Except.map withoutComments)).map (Except.map withoutComments) =
      found.map (Except.map withoutComments) := by
  rcases found with _ | e | definition
  · rfl
  · rfl
  · simp [Except.map, withoutComments]

theorem definition?_removeAllComments (engine : Engine σ) (names : List String) (name : String) :
    (engine.removeAllComments names).definition? name =
      if name ∈ names then (engine.definition? name).map (Except.map withoutComments)
      else engine.definition? name := by
  induction names generalizing engine with
  | nil => rfl
  | cons used rest ih =>
    rw [removeAllComments, List.foldl_cons]
    refine (ih _).trans ?_
    rw [definition?_removeComments]
    by_cases hused : name = used
    · subst hused
      rw [if_pos rfl, if_pos List.mem_cons_self, map_withoutComments_map_withoutComments, ite_self]
    · rw [if_neg hused]
      simp only [List.mem_cons, hused, false_or]

/-- Every partial has lost its comments. -/
theorem definition?_uncommented (engine : Engine σ) (name : String) :
    engine.uncommented.definition? name =
      (engine.definition? name).map (Except.map withoutComments) := by
  rw [uncommented, definition?_removeAllComments]
  split
  · rfl
  · next h =>
    rw [ListedPartialStore.mem_names engine.dialect] at h
    have hnone : engine.definition? name = none := by simpa [definition?] using h
    rw [hnone]
    rfl

end

/-! ## Executions -/

/-- Whether stores offer the partials of an engine, the second one without their comments. -/
structure Offers (engine : Engine σ) (store store' : σ) : Prop where
  first (name : String) : (engine.environment.fetch name store).1 = engine.definition? name
  second (name : String) : (engine.environment.fetch name store').1 =
    (engine.definition? name).map (Except.map withoutComments)

/-- An execution and the one without comments. -/
def commentSimulation (engine : Engine σ) : Simulation σ σ where
  nodes list list' := list' = withoutComments list ∧ engine.Harmless list
  block node body body' := body' = withoutComments body ∧
    ∃ list, engine.Harmless list ∧ ⟨node, body⟩ ∈ segments list
  context := Eq
  store := engine.Offers
  lacks _ := false

/-- The branches of a harmless body are harmless and lose their comments. -/
theorem Harmless.divided {body : List Node} (h : engine.Harmless body) :
    Helper.Divided engine.commentSimulation body (withoutComments body) := by
  obtain ⟨hfirst, hsecond⟩ := h.branches
  constructor
  · rw [Helper.branches_withoutComments]
    exact ⟨rfl, hfirst⟩
  · rw [Helper.branches_withoutComments]
    generalize (Helper.branches body).2 = second at hsecond
    cases second with
    | none => exact .none
    | some second => exact .some ⟨rfl, hsecond second rfl⟩

/-- Assignments that are not hollow have a body with and without comments, or in neither case. -/
theorem Harmless.isEmpty_eq {key source : String} {span : Span} {depth : Nat}
    {arguments : Option String} {body list : List Node} (h : engine.Harmless list)
    (hsegment : ⟨.helper key source span depth arguments, body⟩ ∈ segments list)
    {bind : Value → List (String × Value) → Value}
    (hhelper : Table.get? engine.helpers key = some (Helper.assignment bind)) :
    body.isEmpty = (withoutComments body).isEmpty := by
  rw [Bool.eq_iff_iff, List.isEmpty_iff, List.isEmpty_iff]
  constructor
  · rintro rfl
    rfl
  · intro hcomments
    by_contra hne
    exact h _ (.own hsegment) (.intro hhelper hne hcomments)

section

variable [LawfulPartialStore σ]

theorem Offers.fetch {store store' : σ} (h : engine.Offers store store') (used : String) :
    engine.Offers (engine.environment.fetch used store).2
      (engine.environment.fetch used store').2 where
  first name :=
    (LawfulPartialStore.fetch_fetch engine.dialect used name store).trans (h.first name)
  second name :=
    (LawfulPartialStore.fetch_fetch engine.dialect used name store').trans (h.second name)

/-- Nodes without comments are executed as before if they come to no hollow assignments. -/
theorem simulates_withoutComments (hhelpers : engine.Ordinary) :
    engine.environment.Simulates engine.commentSimulation engine.environment where
  segments := by
    rintro list _ ⟨rfl, hlist⟩
    exact aligned_withoutComments fun node body hmem => ⟨rfl, list, hlist, hmem⟩
  interpolation _ hcontext := congrArg _ hcontext
  raw _ hcontext := congrArg _ hcontext
  scope _ hcontext := hcontext ▸ Simulation.Scoped.refl (fun _ => rfl) _
  helper := by
    rintro key source span depth arguments body _ context _ ⟨rfl, list, hlist, hsegment⟩ rfl
    cases hhelper : engine.environment.helper? key with
    | none => exact .unknown fun _ => rfl
    | some helper =>
      have hbody : engine.Harmless body := hlist.of_reaches fun segment hmem =>
        .block (.own hsegment) (Option.isSome_of_eq_some hhelper) hmem
      have hnodes : engine.commentSimulation.nodes body (withoutComments body) := ⟨rfl, hbody⟩
      refine .known (Helper.simulates_of_ordinary rfl (hhelpers key helper hhelper) hnodes
        hbody.divided ?_ context _)
      rintro bind rfl
      exact hlist.isEmpty_eq hsegment hhelper
  inclusion := by
    rintro key source span depth arguments content _ store store' ⟨rfl, list, hlist, hsegment⟩
      hstore
    rw [hstore.first key, hstore.second key]
    rcases hpartial : engine.definition? key with _ | e | definition
    · have hcontent : engine.Harmless content := hlist.of_reaches fun segment hmem =>
        .content (.own hsegment) hpartial hmem
      exact .unknown ⟨rfl, hcontent⟩ fun _ => rfl
    · exact .broken e
    · have hspliced : engine.Harmless (spliceContent definition content) :=
        hlist.of_reaches fun segment hmem => .inclusion (.own hsegment) hpartial hmem
      exact .known ⟨spliceContent_withoutComments definition content, hspliced⟩
  fetch name _ _ hstore := hstore.fetch name

end

variable [ListedPartialStore σ]

theorem offers_uncommented (engine : Engine σ) :
    engine.Offers engine.partials engine.uncommented.partials where
  first _ := rfl
  second name := by
    rw [← definition?_uncommented, ← environment_uncommented]
    rfl

/-- Comments make no difference to an execution that comes to no assignments around nothing but
comments: without them, in the nodes and in all partials, it has the same result, leaves the same
context behind and has the same diagnostics. Assignments around nothing but comments are lost, and
they are made in the context once the comments are removed. -/
theorem execute_uncommented (hhelpers : engine.Ordinary) :
    (∀ nodes, engine.Harmless nodes → ∀ limit context,
      Option.Rel (fun outcome outcome' => outcome.result = outcome'.result ∧
          outcome.context = outcome'.context ∧ outcome.diagnostics = outcome'.diagnostics)
        (engine.execute limit nodes context)
        (engine.uncommented.execute limit (withoutComments nodes) context)) ∧
    (∀ key source span depth arguments bind comments close,
      Table.get? engine.helpers key = some (Helper.assignment bind) → close.closes key depth →
      comments ≠ [] → withoutComments comments = [] →
      ∀ context pairs, Assignment.read arguments.toList context = .ok pairs → ∀ limit,
        let nodes := .helper key source span depth (some arguments) :: (comments ++ [close])
        (engine.execute (limit + 2) nodes context).map (fun outcome =>
            (outcome.result.toOption, outcome.context)) = some (some "", context) ∧
          (engine.uncommented.execute (limit + 2) (withoutComments nodes) context).map
            (fun outcome => (outcome.result.toOption, outcome.context)) =
              some (some "", bind context pairs)) := by
  constructor
  · intro nodes hnodes limit context
    have hbetween := (simulates_withoutComments hhelpers).between_execute limit nodes
      (withoutComments nodes) context context engine.partials engine.uncommented.partials
      ⟨rfl, hnodes⟩ rfl engine.offers_uncommented
    rw [execute, execute, environment_uncommented]
    exact Simulation.rel_mono hbetween fun outcome outcome' hagree =>
      ⟨hagree.result, hagree.context, hagree.diagnostics_eq fun _ => rfl⟩
  · intro key source span depth arguments bind comments close hhelper hclose hne hcomments context
      pairs hpairs limit nodes
    have hstripped : withoutComments nodes =
        .helper key source span depth (some arguments) :: ([] ++ [close]) := by
      have hclosed : close.isComment = false := by
        cases close <;> first | rfl | contradiction
      rw [withoutComments_cons rfl, withoutComments_append, hcomments, withoutComments_cons hclosed]
      rfl
    constructor
    · rw [execute, Environment.execute_assignment hhelper hclose hcomments hpairs]
      simp [hne, Except.toOption]
    · rw [hstripped, execute, environment_uncommented,
        Environment.execute_assignment hhelper hclose rfl hpairs]
      rfl

/-- Comments beside and in the blocks of helpers, in a partial, and in its content. -/
theorem execute_uncommented_nested :
    let comment (text : String) : Node := .comment "" text ⟨0, 0⟩
    let x : Node := .interpolation "x" "[x]" ⟨0, 3⟩ none
    let definition : List Node := [comment "[! a]", .helper "if" "[#if x]" ⟨5, 12⟩ 0 (some "x"),
      comment "[! b]", .text "c", .close "if" "[/if]" ⟨18, 23⟩ 0, .text "(",
      .interpolation "$block" "[$block]" ⟨24, 32⟩ none, .text ")"]
    let content : List Node := [comment "[! d]", x]
    let nodes : List Node := [.helper "set" "[#set x = 1]" ⟨0, 12⟩ 0 (some "x = 1"),
      comment "[! e]", x, .close "set" "[/set]" ⟨20, 26⟩ 0,
      .inclusion "p" "[> p x = 2]" ⟨26, 37⟩ 0 (some "x = 2")] ++
        content ++ [.close "p" "[/p]" ⟨45, 49⟩ 0]
    let engine : Engine Cells := (Engine.new { delimiters := ⟨"[", "]"⟩ }).registerPartial "p"
      (.nodes definition)
    engine.Ordinary ∧ engine.Harmless nodes ∧
      (engine.execute 3 nodes (.object [])).map (·.result.toOption) = some (some "1c(2)") ∧
      (engine.uncommented.execute 3 (withoutComments nodes) (.object [])).map
        (·.result.toOption) = some (some "1c(2)") := by
  intro comment x definition content nodes engine
  have hordinary : engine.Ordinary := ((onlyBuiltins_new _).registerPartial _ _).ordinary
  have hpartial (name : String) : engine.definition? name =
      if name = "p" then some (.ok definition) else none := by
    rw [definition?_registerPartial, definition?_new]
    rfl
  let own := segments nodes
  let included := segments (spliceContent definition content)
  let reached := own ++ own.flatMap (segments ·.body) ++ included ++
    included.flatMap (segments ·.body)
  have hbodies : ∀ segment ∈ reached, ∀ inner ∈ segments segment.body, inner ∈ reached := by
    decide
  have hincluded : ∀ segment ∈ reached, segment.node.key? = some "p" →
      ∀ inner ∈ segments (spliceContent definition segment.body), inner ∈ reached := by
    decide
  have hfilled : ∀ segment ∈ reached, segment.body ≠ [] → withoutComments segment.body ≠ [] := by
    decide
  have hharmless : engine.Harmless nodes := by
    intro segment hreaches
    have hmem : segment ∈ reached := by
      induction hreaches with
      | own h => simp [reached, own, h]
      | block _ _ h ih => exact hbodies _ ih _ h
      | content _ _ h ih => exact hbodies _ ih _ h
      | @inclusion key _ _ _ _ _ found _ _ hfound h ih =>
        rw [hpartial] at hfound
        split at hfound
        · next hkey =>
          obtain rfl : definition = found := by simpa using hfound
          exact hincluded _ ih (congrArg some hkey) _ h
        · contradiction
    rintro ⟨_, hne, hcomments⟩
    exact hfilled _ hmem hne hcomments
  have hresult : (engine.execute 3 nodes (.object [])).map (·.result.toOption) =
      some (some "1c(2)") := by decide
  refine ⟨hordinary, hharmless, hresult, ?_⟩
  have hrel := (execute_uncommented hordinary).1 nodes hharmless 3 (.object [])
  obtain ⟨outcome, houtcome, htext⟩ := Option.map_eq_some_iff.1 hresult
  rw [houtcome] at hrel
  generalize engine.uncommented.execute 3 (withoutComments nodes) (.object []) = other at hrel ⊢
  cases hrel with
  | some h => exact congrArg some ((congrArg Except.toOption h.1.symm).trans htext)

/-- An assignment around a comment is made in the context once the comment is removed. -/
theorem execute_uncommented_hollow :
    let nodes : List Node := [.helper "set" "[#set x = 1]" ⟨0, 12⟩ 0 (some "x = 1"),
      .comment "" "[! c]" ⟨12, 17⟩, .close "set" "[/set]" ⟨17, 23⟩ 0,
      .interpolation "x" "[x]" ⟨23, 26⟩ none]
    let engine : Engine Cells := Engine.new { delimiters := ⟨"[", "]"⟩ }
    engine.Ordinary ∧
      (engine.execute 2 nodes (.object [])).map (·.result.toOption) = some (some "") ∧
      (engine.uncommented.execute 2 (withoutComments nodes) (.object [])).map
        (·.result.toOption) = some (some "1") := by
  intro nodes engine
  exact ⟨(onlyBuiltins_new _).ordinary, by decide, by decide⟩

end Engine

end Stencil
