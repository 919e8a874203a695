import Mathlib.Tactic.Common
import Stencil.Engine.Basic
import Stencil.Proofs.Promise

/-!
# Levels of execution

An execution that has an outcome within some levels has the same outcome within more. If partials
can be ranked so that each includes only partials of smaller rank, apart from unknown ones, then
some number of levels suffices for given nodes in all contexts.

Content takes the place of a marker, so a partial may well occur in its own content, and what is
executed one level deeper may be longer. But it weighs less: a tag that includes a partial weighs
one more than all nodes of the partial together, and any other node weighs one. Helpers have parts
of their bodies rendered, and an inclusion gives up its tag for the nodes of the partial.

## Main definitions

* `Plan.AsksPartsOf`, `Helper.Confined`: helpers that have only parts of their bodies rendered.
* `Executor.Extends`, `Executor.Answers`: executions within more levels, and executions that have
  outcomes.
* `Node.weight`, `Node.totalWeight`: the levels that nodes need at most.
* `Engine.Ranked`: engines whose partials can be ranked.
-/

namespace Stencil

variable {σ : Type}

/-! ## What helpers ask for -/

/-- Whether a plan asks for nothing but parts of a body to be rendered. -/
def Plan.AsksPartsOf (body : List Node) : Plan → Prop
  | done _ _ => True
  | render nodes _ resume =>
    nodes.Sublist body ∧ ∀ result left, (resume result left).AsksPartsOf body

namespace Plan

variable {nodes body : List Node}

theorem asksPartsOf_renderHere (h : nodes.Sublist body) (context : Value) :
    (renderHere nodes context).AsksPartsOf body :=
  ⟨h, fun _ _ => trivial⟩

theorem asksPartsOf_renderApart (h : nodes.Sublist body) (scope context : Value) :
    (renderApart nodes scope context).AsksPartsOf body :=
  ⟨h, fun _ _ => trivial⟩

end Plan

namespace Helper

/-- Whether a helper has nothing but parts of its body rendered. -/
def Confined (helper : Helper) : Prop :=
  ∀ context node body, (helper context node body).AsksPartsOf body

theorem asksPartsOf_renderBranch {body : List Node} {branch : Option (List Node)}
    (h : ∀ nodes ∈ branch, nodes.Sublist body) (context : Value) :
    (renderBranch branch context).AsksPartsOf body := by
  cases branch with
  | none => trivial
  | some nodes => exact Plan.asksPartsOf_renderHere (h nodes rfl) context

theorem confined_conditional : conditional.Confined := by
  intro context node body
  obtain ⟨hfirst, hsecond⟩ := branches_sublist body
  unfold conditional
  split
  · trivial
  · split
    · trivial
    · next holds _ =>
      apply asksPartsOf_renderBranch
      intro nodes hnodes
      cases holds with
      | true => exact Option.some.inj hnodes ▸ hfirst
      | false => exact hsecond nodes hnodes

theorem asksPartsOf_passes {nodes body : List Node} (h : nodes.Sublist body) (header : LoopHeader)
    (context : Value) (rest : List (String × Value)) (index : Nat) (scope : Value)
    (output : String) :
    (passes header nodes context rest index scope output).AsksPartsOf body := by
  induction rest generalizing index scope output with
  | nil => trivial
  | cons entry rest ih =>
    refine ⟨h, fun result left => ?_⟩
    cases result with
    | error e => trivial
    | ok text => exact ih (index + 1) left (output ++ text)

theorem confined_loop : loop.Confined := by
  intro context node body
  obtain ⟨hfirst, hsecond⟩ := branches_sublist body
  unfold loop
  dsimp only
  split
  · trivial
  · split
    · trivial
    · split
      · exact asksPartsOf_renderBranch hsecond context
      · exact asksPartsOf_passes hfirst _ _ _ _ _ _

theorem confined_inScope : inScope.Confined := by
  intro context node body
  obtain ⟨hfirst, hsecond⟩ := branches_sublist body
  unfold inScope
  split
  · trivial
  · dsimp only
    split
    · exact Plan.asksPartsOf_renderApart hfirst _ context
    · next second _ heq => exact Plan.asksPartsOf_renderHere (hsecond second heq) _
    · exact Plan.asksPartsOf_renderApart hfirst _ context

theorem confined_assignment (bind : Value → List (String × Value) → Value) :
    (assignment bind).Confined := by
  intro context node body
  unfold assignment
  dsimp only
  split
  · trivial
  · split
    · trivial
    · split
      · trivial
      · exact Plan.asksPartsOf_renderApart (List.Sublist.refl body) _ _

theorem confined_ofFunction (f : List Value → String) : (ofFunction f).Confined := by
  intro context node body
  refine ⟨List.Sublist.refl body, fun result left => ?_⟩
  cases result <;> trivial

/-- Built-in helpers and functions have only parts of their bodies rendered. -/
theorem confined_of_ordinary {name : String} {helper : Helper}
    (h : (name, helper) ∈ builtins ∨ ∃ f, helper = ofFunction f) : helper.Confined := by
  rcases h with h | ⟨f, rfl⟩
  · exact forall_mem_builtins (P := fun _ helper => helper.Confined) confined_conditional
      confined_loop confined_loop confined_inScope (confined_assignment _) (confined_assignment _) h
  · exact confined_ofFunction f

end Helper

/-! ## More levels -/

namespace Executor

/-- Whether one way to execute nodes has the outcomes of another one, and perhaps more. -/
def Extends (more fewer : Executor σ) : Prop :=
  ∀ nodes context store outcome, fewer nodes context store = some outcome →
    more nodes context store = some outcome

theorem Extends.refl (executor : Executor σ) : executor.Extends executor :=
  fun _ _ _ _ h => h

theorem Extends.trans {first second third : Executor σ} (h : first.Extends second)
    (h' : second.Extends third) : first.Extends third :=
  fun _ _ _ _ hrun => h _ _ _ _ (h' _ _ _ _ hrun)

end Executor

theorem Plan.run_of_extends {more fewer : Executor σ} (h : more.Extends fewer) {plan : Plan}
    {store : σ} {outcome : Outcome σ} (hrun : plan.run fewer store = some outcome) :
    plan.run more store = some outcome := by
  induction plan generalizing store outcome with
  | done result context => exact hrun
  | render nodes context resume ih =>
    obtain ⟨inner, hinner, hrest⟩ := Option.bind_eq_some_iff.1 hrun
    obtain ⟨last, hlast, rfl⟩ := Option.map_eq_some_iff.1 hrest
    have hmore := ih inner.result inner.context hlast
    rw [run, h _ _ _ _ hinner, Option.bind_some, hmore, Option.map_some]

namespace Environment

variable {env : Environment σ} {more fewer : Executor σ}

theorem runInclusion_of_extends (h : more.Extends fewer) {node : Node} {name : String} {span : Span}
    {body : List Node} {context : Value} {store : σ} {outcome : Outcome σ}
    (hrun : env.runInclusion fewer node name span body context store = some outcome) :
    env.runInclusion more node name span body context store = some outcome := by
  unfold runInclusion at hrun ⊢
  split at hrun
  · exact hrun
  · split at hrun
    · obtain ⟨inner, hinner, rfl⟩ := Option.map_eq_some_iff.1 hrun
      simp only [h _ _ _ _ hinner, Option.map_some]
    · exact hrun
    · obtain ⟨inner, hinner, rfl⟩ := Option.map_eq_some_iff.1 hrun
      simp only [h _ _ _ _ hinner, Option.map_some]

theorem runSegment_of_extends (h : more.Extends fewer) {segment : Segment} {context : Value}
    {store : σ} {outcome : Outcome σ}
    (hrun : env.runSegment fewer segment context store = some outcome) :
    env.runSegment more segment context store = some outcome := by
  obtain ⟨node, body⟩ := segment
  cases node with
  | text | interpolation | raw | close | comment => exact hrun
  | inclusion key source span depth arguments => exact runInclusion_of_extends h hrun
  | helper key source span depth arguments =>
    simp only [runSegment] at hrun ⊢
    split at hrun
    · exact Plan.run_of_extends h hrun
    · exact hrun

theorem runSegments_of_extends (h : more.Extends fewer) {segments : List Segment} {context : Value}
    {store : σ} {outcome : Outcome σ}
    (hrun : env.runSegments fewer segments context store = some outcome) :
    env.runSegments more segments context store = some outcome := by
  induction segments generalizing context store outcome with
  | nil => exact hrun
  | cons segment rest ih =>
    obtain ⟨first, hfirst, hrest⟩ := Option.bind_eq_some_iff.1 hrun
    rw [runSegments, runSegment_of_extends h hfirst, Option.bind_some]
    unfold Outcome.andThen at hrest ⊢
    split at hrest
    · exact hrest
    · obtain ⟨later, hlater, rfl⟩ := Option.map_eq_some_iff.1 hrest
      simp only [ih hlater, Option.map_some]

/-- One more level changes no outcome. -/
theorem extends_execute_succ (env : Environment σ) (limit : Nat) :
    (env.execute (limit + 1)).Extends (env.execute limit) := by
  induction limit with
  | zero =>
    intro nodes context store outcome hrun
    contradiction
  | succ limit ih =>
    intro nodes context store outcome hrun
    exact runSegments_of_extends ih hrun

/-- More levels change no outcome. -/
theorem extends_execute (env : Environment σ) {limit more : Nat} (h : limit ≤ more) :
    (env.execute more).Extends (env.execute limit) := by
  induction h with
  | refl => exact .refl _
  | step _ ih => exact (env.extends_execute_succ _).trans ih

end Environment

/-! ## Weights -/

namespace Node

/-- The weight of a node, where partials have weights by their names. -/
def weight (ofPartial : String → Nat) : Node → Nat
  | inclusion key .. => ofPartial key + 1
  | text _ | interpolation .. | raw .. | helper .. | close .. | comment .. => 1

def totalWeight (ofPartial : String → Nat) : List Node → Nat
  | [] => 0
  | node :: rest => node.weight ofPartial + totalWeight ofPartial rest

variable {ofPartial : String → Nat} {nodes : List Node}

@[simp] theorem totalWeight_nil : totalWeight ofPartial [] = 0 := rfl

@[simp] theorem totalWeight_cons (node : Node) (rest : List Node) :
    totalWeight ofPartial (node :: rest) = node.weight ofPartial + totalWeight ofPartial rest :=
  rfl

@[simp] theorem totalWeight_append (first second : List Node) :
    totalWeight ofPartial (first ++ second) =
      totalWeight ofPartial first + totalWeight ofPartial second := by
  induction first with
  | nil => simp
  | cons node first ih =>
    rw [List.cons_append, totalWeight_cons, totalWeight_cons, ih]
    omega

/-- Partials that are not included do not matter. -/
theorem totalWeight_congr {ofPartial' : String → Nat}
    (h : ∀ key source span depth arguments, .inclusion key source span depth arguments ∈ nodes →
      ofPartial key = ofPartial' key) :
    totalWeight ofPartial nodes = totalWeight ofPartial' nodes := by
  induction nodes with
  | nil => rfl
  | cons node rest ih =>
    have hrest := ih fun key source span depth arguments hmem =>
      h key source span depth arguments (List.mem_cons_of_mem node hmem)
    have hnode : node.weight ofPartial = node.weight ofPartial' := by
      cases node with
      | inclusion key source span depth arguments =>
        exact congrArg (· + 1) (h key source span depth arguments List.mem_cons_self)
      | text | interpolation | raw | helper | close | comment => rfl
    rw [totalWeight_cons, totalWeight_cons, hnode, hrest]

theorem totalWeight_le_of_sublist (ofPartial : String → Nat) {part : List Node}
    (h : part.Sublist nodes) : totalWeight ofPartial part ≤ totalWeight ofPartial nodes := by
  induction h with
  | slnil => exact Nat.le_refl _
  | cons node _ ih => simp only [totalWeight_cons]; omega
  | cons_cons node _ ih => simp only [totalWeight_cons]; omega

/-- A partial with content weighs no more than the two. -/
theorem totalWeight_spliceContent_le (ofPartial : String → Nat) (nodes content : List Node) :
    totalWeight ofPartial (spliceContent nodes content) ≤
      totalWeight ofPartial nodes + totalWeight ofPartial content := by
  unfold spliceContent
  split
  · next before after hsplit =>
    obtain ⟨i, -, hparts⟩ := Option.map_eq_some_iff.1 hsplit
    obtain ⟨rfl, rfl⟩ := Prod.mk.inj hparts
    have hparts : (nodes.take i ++ nodes.drop (i + 1)).Sublist nodes := by
      conv_rhs => rw [← List.take_append_drop i nodes]
      exact (List.drop_sublist_drop_left nodes (Nat.le_succ i)).append_left _
    have := totalWeight_le_of_sublist ofPartial hparts
    simp only [totalWeight_append] at this ⊢
    omega
  · omega

end Node

/-! ## Executions with an outcome -/

/-- Whether nodes have an outcome in every context and for every store with a property, which is
left to the store after it. -/
def Executor.Answers (executor : Executor σ) (known : σ → Prop) (nodes : List Node) : Prop :=
  ∀ context store, known store →
    ∃ outcome, executor nodes context store = some outcome ∧ known outcome.store

/-- A plan has an outcome if all that it asks for has one. -/
theorem Plan.AsksPartsOf.exists_run {body : List Node} {plan : Plan}
    (h : plan.AsksPartsOf body) {executor : Executor σ} {known : σ → Prop}
    (hexecutor : ∀ nodes, nodes.Sublist body → executor.Answers known nodes) {store : σ}
    (hstore : known store) :
    ∃ outcome, plan.run executor store = some outcome ∧ known outcome.store := by
  induction plan generalizing store with
  | done result context => exact ⟨_, rfl, hstore⟩
  | render nodes context resume ih =>
    obtain ⟨hnodes, hresume⟩ := h
    obtain ⟨inner, hinner, hleft⟩ := hexecutor nodes hnodes context store hstore
    obtain ⟨last, hlast, hknown⟩ := ih _ _ (hresume inner.result inner.context) hleft
    rw [run, hinner, Option.bind_some, hlast]
    exact ⟨_, rfl, hknown⟩

namespace Environment

variable {env : Environment σ} {known : σ → Prop} {ofPartial : String → Nat}
  {executor : Executor σ}

/-- Whether helpers keep to their bodies, and no partial weighs more than its name is said to. -/
structure Weighed (env : Environment σ) (known : σ → Prop) (ofPartial : String → Nat) : Prop where
  confined : ∀ name helper, env.helper? name = some helper → helper.Confined
  fetch : ∀ name store, known store → known (env.fetch name store).2
  totalWeight_le : ∀ name store nodes, known store → (env.fetch name store).1 = some (.ok nodes) →
    Node.totalWeight ofPartial nodes ≤ ofPartial name

theorem Weighed.exists_runInclusion (h : env.Weighed known ofPartial) {name : String}
    {body : List Node}
    (hexecutor : ∀ nodes, Node.totalWeight ofPartial nodes ≤
      ofPartial name + Node.totalWeight ofPartial body → executor.Answers known nodes)
    (node : Node) (span : Span) (context : Value) {store : σ} (hstore : known store) :
    ∃ outcome, env.runInclusion executor node name span body context store = some outcome ∧
      known outcome.store := by
  have hafter := h.fetch name store hstore
  unfold runInclusion
  split
  · exact ⟨_, rfl, hstore⟩
  · next scope _ =>
    split
    · next fetched heq =>
      rw [heq] at hafter
      obtain ⟨inner, hinner, hleft⟩ := hexecutor body (by omega) scope fetched hafter
      rw [hinner]
      exact ⟨_, rfl, hleft⟩
    · next e fetched heq =>
      rw [heq] at hafter
      exact ⟨_, rfl, hafter⟩
    · next nodes fetched heq =>
      have hnodes := h.totalWeight_le name store nodes hstore (by rw [heq])
      have hspliced := Node.totalWeight_spliceContent_le ofPartial nodes body
      rw [heq] at hafter
      obtain ⟨inner, hinner, hleft⟩ := hexecutor (spliceContent nodes body) (by omega) scope fetched
        hafter
      rw [hinner]
      exact ⟨_, rfl, hleft⟩

/-- A segment has an outcome if everything has that weighs less. -/
theorem Weighed.exists_runSegment (h : env.Weighed known ofPartial) {segment : Segment}
    (hexecutor : ∀ nodes, Node.totalWeight ofPartial nodes <
      Node.totalWeight ofPartial (segment.node :: segment.body) → executor.Answers known nodes)
    (context : Value) {store : σ} (hstore : known store) :
    ∃ outcome, env.runSegment executor segment context store = some outcome ∧
      known outcome.store := by
  obtain ⟨node, body⟩ := segment
  rw [Node.totalWeight_cons] at hexecutor
  cases node with
  | text | interpolation | raw | close | comment => exact ⟨_, rfl, hstore⟩
  | inclusion key source span depth arguments =>
    refine h.exists_runInclusion (fun nodes hle => hexecutor nodes ?_) _ span context hstore
    dsimp only [Node.weight] at hle ⊢
    omega
  | helper key source span depth arguments =>
    simp only [runSegment]
    split
    · next helper hhelper =>
      have hasks := h.confined key helper hhelper context
        (.helper key source span depth arguments) body
      refine hasks.exists_run (fun nodes hpart => hexecutor nodes ?_) hstore
      have hle := Node.totalWeight_le_of_sublist ofPartial hpart
      simp only [Node.weight]
      omega
    · exact ⟨_, rfl, hstore⟩

theorem exists_runSegments {segments : List Segment}
    (h : ∀ segment ∈ segments, ∀ context store, known store →
      ∃ outcome, env.runSegment executor segment context store = some outcome ∧
        known outcome.store)
    (context : Value) {store : σ} (hstore : known store) :
    ∃ outcome, env.runSegments executor segments context store = some outcome ∧
      known outcome.store := by
  induction segments generalizing context store with
  | nil => exact ⟨_, rfl, hstore⟩
  | cons segment rest ih =>
    obtain ⟨first, hfirst, hleft⟩ := h segment List.mem_cons_self context store hstore
    rw [runSegments, hfirst, Option.bind_some, Outcome.andThen]
    split
    · exact ⟨_, rfl, hleft⟩
    · obtain ⟨later, hlater, hlast⟩ :=
        ih (fun s hs => h s (List.mem_cons_of_mem _ hs)) first.context hleft
      rw [hlater]
      exact ⟨_, rfl, hlast⟩

/-- Nodes have an outcome within more levels than they weigh. -/
theorem Weighed.answers_execute (h : env.Weighed known ofPartial) {limit : Nat} {nodes : List Node}
    (hlimit : Node.totalWeight ofPartial nodes < limit) :
    Executor.Answers (env.execute limit) known nodes := by
  induction limit generalizing nodes with
  | zero => omega
  | succ limit ih =>
    intro context store hstore
    refine exists_runSegments (fun segment hmem context store hst => ?_) context hstore
    have hpart := Node.totalWeight_le_of_sublist ofPartial
      (Node.sublist_of_mem_segments hmem)
    exact h.exists_runSegment (fun part hlt => ih (by omega)) context hst

end Environment

/-! ## Ranked partials -/

namespace Engine

variable [PartialStore σ] {engine : Engine σ} {rank : String → Nat}

/-- Whether every partial includes only partials of smaller rank, apart from unknown ones. -/
def Ranked (engine : Engine σ) (rank : String → Nat) : Prop :=
  ∀ name nodes, engine.definition? name = some (.ok nodes) →
    ∀ key source span depth arguments, Node.inclusion key source span depth arguments ∈ nodes →
      engine.definition? key = none ∨ rank key < rank name

/-- The weight of the nodes of a partial if no chain of partials that include each other is longer
than `bound`. -/
def weightWithin (engine : Engine σ) : Nat → String → Nat
  | 0, _ => 0
  | bound + 1, name =>
    match engine.definition? name with
    | some (.ok nodes) => Node.totalWeight (engine.weightWithin bound) nodes
    | some (.error _) | none => 0

/-- The weight of the nodes of a ranked partial. -/
def weightOf (engine : Engine σ) (rank : String → Nat) (name : String) : Nat :=
  engine.weightWithin (rank name + 1) name

theorem weightWithin_of_definition?_eq_none {name : String} (h : engine.definition? name = none)
    (bound : Nat) : engine.weightWithin bound name = 0 := by
  cases bound with
  | zero => rfl
  | succ bound => simp only [weightWithin, h]

theorem Ranked.weightWithin_succ (h : engine.Ranked rank) {bound : Nat} {name : String}
    (hrank : rank name < bound) :
    engine.weightWithin (bound + 1) name = engine.weightWithin bound name := by
  induction bound generalizing name with
  | zero => omega
  | succ bound ih =>
    unfold weightWithin
    split
    · next nodes hnodes =>
      refine Node.totalWeight_congr fun key source span depth arguments hmem => ?_
      rcases h name nodes hnodes key source span depth arguments hmem with hnone | hlt
      · rw [weightWithin_of_definition?_eq_none hnone, weightWithin_of_definition?_eq_none hnone]
      · exact ih (by omega)
    · rfl
    · rfl

theorem Ranked.weightWithin_eq (h : engine.Ranked rank) {bound : Nat} {name : String}
    (hrank : rank name < bound) : engine.weightWithin bound name = engine.weightOf rank name := by
  induction hrank with
  | refl => rfl
  | step hle ih => rw [h.weightWithin_succ hle, ih]

/-- A ranked partial weighs what its name is said to. -/
theorem Ranked.totalWeight_eq (h : engine.Ranked rank) {name : String} {nodes : List Node}
    (hnodes : engine.definition? name = some (.ok nodes)) :
    Node.totalWeight (engine.weightOf rank) nodes = engine.weightOf rank name := by
  rw [weightOf, weightWithin, hnodes]
  refine Node.totalWeight_congr fun key source span depth arguments hmem => ?_
  rcases h name nodes hnodes key source span depth arguments hmem with hnone | hlt
  · rw [weightOf, weightWithin_of_definition?_eq_none hnone,
      weightWithin_of_definition?_eq_none hnone]
  · exact (h.weightWithin_eq hlt).symm

variable [LawfulPartialStore σ]

theorem Ranked.weighed (h : engine.Ranked rank) {other : Engine σ}
    (hdialect : other.dialect = engine.dialect) (hhelpers : other.Ordinary) :
    other.environment.Weighed
      (fun partials => ∀ name,
        (PartialStore.fetch engine.dialect name partials).1 = engine.definition? name)
      (engine.weightOf rank) where
  confined name helper hname := Helper.confined_of_ordinary (hhelpers name helper hname)
  fetch used store hknown name := by
    rw [environment, hdialect, LawfulPartialStore.fetch_fetch]
    exact hknown name
  totalWeight_le name store nodes hknown hnodes := by
    rw [environment, hdialect] at hnodes
    exact Nat.le_of_eq (h.totalWeight_eq ((hknown name).symm.trans hnodes))

/-- If partials include only partials of smaller rank, apart from unknown ones, then there is a
number of levels for all nodes, given by them and by the partials, within which they have an
outcome in every context and whatever functions are registered. More levels do not change it. -/
theorem exists_limit_of_ranked (h : engine.Ranked rank) (nodes : List Node) :
    ∃ limit, ∀ other : Engine σ, other.dialect = engine.dialect →
      other.partials = engine.partials → other.Ordinary → ∀ context, ∃ outcome,
        ∀ more, limit ≤ more → other.execute more nodes context = some outcome := by
  refine ⟨Node.totalWeight (engine.weightOf rank) nodes + 1, ?_⟩
  intro other hdialect hpartials hhelpers context
  have hanswers := (h.weighed hdialect hhelpers).answers_execute
    (Nat.lt_succ_self (Node.totalWeight (engine.weightOf rank) nodes))
  obtain ⟨outcome, houtcome, -⟩ := hanswers context engine.partials fun _ => rfl
  refine ⟨outcome, fun more hmore => ?_⟩
  rw [execute, hpartials]
  exact Environment.extends_execute _ hmore nodes context engine.partials outcome houtcome

/-- A partial that includes another one behind its content, and occurs in its own content. -/
theorem exists_limit_of_ranked_nested :
    let engine : Engine Cells := ((Engine.new { delimiters := ⟨"[", "]"⟩ }).registerPartial "p"
      (.text "([$block][> q])")).registerPartial "q" (.text "q")
    let template := "[> p][> p][x][/p][/p]"
    let nodes := (engine.parse template).toOption.getD []
    let rank (name : String) : Nat := if name = "p" then 1 else 0
    engine.Ranked rank ∧ engine.Ordinary ∧
      (∃ limit, ∀ context, ∃ outcome, ∀ more, limit ≤ more →
        engine.execute more nodes context = some outcome) ∧
      (engine.execute 4 nodes (.object [("x", .string "a")])).map (·.result.toOption) =
        some (some "((aq)q)") := by
  intro engine template nodes rank
  have hp : (PartialSource.text "([$block][> q])").parse engine.dialect =
      .ok [.text "(", .interpolation "$block" "[$block]" ⟨1, 9⟩ none,
        .inclusion "q" "[> q]" ⟨9, 14⟩ 0 none, .text ")"] := by decide +kernel
  have hq : (PartialSource.text "q").parse engine.dialect = .ok [.text "q"] := by decide +kernel
  have hranked : engine.Ranked rank := by
    intro name nodes hnodes key source span depth arguments hmem
    rw [definition?_registerPartial, definition?_registerPartial, definition?_new] at hnodes
    split at hnodes
    · obtain rfl := Except.ok.inj (hq.symm.trans (Option.some.inj hnodes))
      simp at hmem
    · split at hnodes
      · next hname =>
        obtain rfl := Except.ok.inj (hp.symm.trans (Option.some.inj hnodes))
        obtain rfl : key = "q" := by simp_all
        exact .inr (by simp [rank, hname])
      · contradiction
  have hhelpers : engine.Ordinary :=
    (((onlyBuiltins_new _).registerPartial _ _).registerPartial _ _).ordinary
  obtain ⟨limit, hlimit⟩ := exists_limit_of_ranked hranked nodes
  exact ⟨hranked, hhelpers, ⟨limit, hlimit engine rfl rfl hhelpers⟩, by decide +kernel⟩

end Engine

end Stencil
