import Stencil.Proofs.Composition
import Stencil.Render.Builtin

/-!
# Promises about executions

A promise relates the context before an execution of permitted nodes to its result and to the
context that it leaves behind. A promise that holds of doing nothing, of sequences and of rendering
on a copy is kept by every execution once each single segment keeps it, as far as the executions one
level deeper do.

## Main definitions

* `Promise`, `Promise.Closed`: a promise, and one that holds of the ways to put executions together.
* `Promise.KeptBy`: whether a way to execute nodes keeps a promise.
* `Plan.Keeps`, `Helper.Keeps`: whether helpers keep a promise as far as nested executions do.
* `Environment.Upholds`: what is left to be shown of a promise.
-/

namespace Stencil

/-- What the execution of permitted nodes leaves behind. -/
structure Promise (σ : Type) where
  permits : Node → Prop
  /-- What is asked of the store before and promised of the store after. -/
  store : σ → Prop
  /-- What is promised of the context before, the result, and the context after. -/
  relates : Value → Except RenderError String → Value → Prop

namespace Promise

variable {σ : Type}

def PermitsAll (p : Promise σ) (nodes : List Node) : Prop :=
  ∀ node ∈ nodes, p.permits node

/-- Whether the promise holds of an outcome of what started in a context. -/
def HoldsOf (p : Promise σ) (context : Value) (outcome : Outcome σ) : Prop :=
  p.relates context outcome.result outcome.context ∧ p.store outcome.store

/-- Whether a way to execute nodes keeps the promise. -/
def KeptBy (p : Promise σ) (executor : Executor σ) : Prop :=
  ∀ nodes context store outcome, p.PermitsAll nodes → p.store store →
    executor nodes context store = some outcome → p.HoldsOf context outcome

/-- Whether a promise holds of the ways in which executions are put together. -/
structure Closed (p : Promise σ) : Prop where
  /-- Nothing is rendered. -/
  nothing (context : Value) : p.relates context (.ok "") context
  /-- A tag is refused. -/
  fail (error : RenderError) (context : Value) : p.relates context (.error error) context
  /-- One thing is executed after another. -/
  andThen {before between after : Value} {text : String} {result : Except RenderError String}
    (first : p.relates before (.ok text) between) (second : p.relates between result after) :
    p.relates before (result.map (text ++ ·)) after
  /-- Something is rendered on a scope of its own. -/
  apart {scope left : Value} {result : Except RenderError String} (context : Value)
    (nested : p.relates scope result left) : p.relates context result context

theorem PermitsAll.mono {p : Promise σ} {nodes part : List Node} (h : p.PermitsAll nodes)
    (hpart : part ⊆ nodes) : p.PermitsAll part :=
  fun node hnode => h node (hpart hnode)

end Promise

/-! ## Plans -/

namespace Plan

variable {σ : Type} {p : Promise σ}

/-- Whether a plan that starts in a context keeps a promise as far as the executions do that it asks
for. -/
def Keeps (p : Promise σ) (context : Value) : Plan → Prop
  | done result after => p.relates context result after
  | render nodes scope resume =>
    p.PermitsAll nodes ∧
      ∀ result after, p.relates scope result after → (resume result after).Keeps p context

theorem Keeps.holdsOf {context : Value} {plan : Plan} (h : plan.Keeps p context)
    {executor : Executor σ} (hexecutor : p.KeptBy executor) {store : σ} {outcome : Outcome σ}
    (hstore : p.store store) (hrun : plan.run executor store = some outcome) :
    p.HoldsOf context outcome := by
  induction plan generalizing store outcome with
  | done result after =>
    obtain rfl := Option.some.inj hrun
    exact ⟨h, hstore⟩
  | render nodes scope resume ih =>
    obtain ⟨hnodes, hresume⟩ := h
    obtain ⟨inner, hinner, hrest⟩ := Option.bind_eq_some_iff.1 hrun
    obtain ⟨last, hlast, rfl⟩ := Option.map_eq_some_iff.1 hrest
    obtain ⟨hrelates, hst⟩ := hexecutor nodes scope store inner hnodes hstore hinner
    have hkept : p.HoldsOf context last := ih _ _ (hresume _ _ hrelates) hst hlast
    exact hkept

theorem keeps_fail (hp : p.Closed) (error : RenderError) (context : Value) :
    (fail error context).Keeps p context :=
  hp.fail error context

theorem keeps_renderHere {nodes : List Node} (hnodes : p.PermitsAll nodes) (context : Value) :
    (renderHere nodes context).Keeps p context :=
  ⟨hnodes, fun _ _ h => h⟩

theorem keeps_renderApart (hp : p.Closed) {nodes : List Node} (hnodes : p.PermitsAll nodes)
    (scope context : Value) : (renderApart nodes scope context).Keeps p context :=
  ⟨hnodes, fun _ _ h => hp.apart context h⟩

end Plan

/-- Whether a helper keeps a promise on the permitted tags with its name and permitted bodies, as
far as the executions do that it asks for. -/
def Helper.Keeps {σ : Type} (p : Promise σ) (name : String) (helper : Helper) : Prop :=
  ∀ context source span depth arguments body,
    p.permits (.helper name source span depth arguments) → p.PermitsAll body →
      (helper context (.helper name source span depth arguments) body).Keeps p context

/-! ## Executions -/

theorem mem_of_mem_spliceContent {nodes content : List Node} {node : Node}
    (h : node ∈ spliceContent nodes content) : node ∈ nodes ∨ node ∈ content := by
  unfold spliceContent at h
  split at h
  · next before after hsplit =>
    obtain ⟨i, -, hparts⟩ := Option.map_eq_some_iff.1 hsplit
    obtain ⟨rfl, rfl⟩ := Prod.mk.inj hparts
    rcases List.mem_append.1 h with h | h
    · exact (List.mem_append.1 h).imp List.mem_of_mem_take id
    · exact .inl (List.mem_of_mem_drop h)
  · exact .inl h

namespace Environment

variable {σ : Type} {env : Environment σ} {p : Promise σ} {executor : Executor σ}

/-- Whether every kind of segment keeps a promise as far as the executions one level deeper do. -/
structure Upholds (env : Environment σ) (p : Promise σ) : Prop extends p.Closed where
  text {s : String} (context : Value) (h : p.permits (.text s)) : p.relates context (.ok s) context
  interpolation {key source : String} {span : Span} {arguments : Option String} (context : Value)
    (h : p.permits (.interpolation key source span arguments)) :
    p.relates context ((env.interpolate key context).map Text.escapeHtml) context
  raw {key source : String} {span : Span} (context : Value) (h : p.permits (.raw key source span)) :
    p.relates context (env.interpolate key context) context
  helper {name : String} {helper : Helper} (h : env.helper? name = some helper) :
    helper.Keeps p name
  inclusion {executor : Executor σ} (hexecutor : p.KeptBy executor) {node : Node} {name : String}
    {span : Span} {body : List Node} (hbody : p.PermitsAll body) {context : Value} {store : σ}
    {outcome : Outcome σ} (hstore : p.store store)
    (h : env.runInclusion executor node name span body context store = some outcome) :
    p.HoldsOf context outcome

theorem Upholds.holdsOf_of_runSegment (hp : env.Upholds p) (hexecutor : p.KeptBy executor)
    {segment : Segment} {context : Value} {store : σ} {outcome : Outcome σ}
    (hnode : p.permits segment.node) (hbody : p.PermitsAll segment.body) (hstore : p.store store)
    (h : env.runSegment executor segment context store = some outcome) :
    p.HoldsOf context outcome := by
  obtain ⟨node, body⟩ := segment
  cases node with
  | text s =>
    obtain rfl := Option.some.inj h
    exact ⟨hp.text context hnode, hstore⟩
  | interpolation key source span arguments =>
    obtain rfl := Option.some.inj h
    exact ⟨hp.interpolation context hnode, hstore⟩
  | raw key source span =>
    obtain rfl := Option.some.inj h
    exact ⟨hp.raw context hnode, hstore⟩
  | inclusion key source span depth arguments => exact hp.inclusion hexecutor hbody hstore h
  | helper key source span depth arguments =>
    simp only [runSegment] at h
    cases hhelper : env.helper? key with
    | none =>
      rw [hhelper] at h
      obtain rfl := Option.some.inj h
      exact ⟨hp.nothing context, hstore⟩
    | some helper =>
      rw [hhelper] at h
      exact (hp.helper hhelper context _ _ _ _ body hnode hbody).holdsOf hexecutor hstore h
  | close key source span depth =>
    obtain rfl := Option.some.inj h
    exact ⟨hp.nothing context, hstore⟩
  | comment key source span =>
    obtain rfl := Option.some.inj h
    exact ⟨hp.nothing context, hstore⟩

/-- A promise that each segment keeps is kept by a list of segments. -/
theorem holdsOf_of_runSegments (hp : p.Closed) {segments : List Segment}
    (hsegment : ∀ segment ∈ segments, ∀ context store outcome, p.store store →
      env.runSegment executor segment context store = some outcome → p.HoldsOf context outcome)
    {context : Value} {store : σ} {outcome : Outcome σ} (hstore : p.store store)
    (h : env.runSegments executor segments context store = some outcome) :
    p.HoldsOf context outcome := by
  induction segments generalizing context store outcome with
  | nil =>
    obtain rfl := Option.some.inj h
    exact ⟨hp.nothing context, hstore⟩
  | cons segment rest ih =>
    obtain ⟨first, hfirst, hrest⟩ := Option.bind_eq_some_iff.1 h
    have hkept := hsegment segment List.mem_cons_self _ _ _ hstore hfirst
    cases hresult : first.result with
    | error e =>
      simp only [Outcome.andThen, hresult] at hrest
      obtain rfl := Option.some.inj hrest
      exact hkept
    | ok text =>
      simp only [Outcome.andThen, hresult] at hrest
      obtain ⟨later, hlater, rfl⟩ := Option.map_eq_some_iff.1 hrest
      have hlast := ih (fun s hs => hsegment s (List.mem_cons_of_mem _ hs)) hkept.2 hlater
      exact ⟨hp.andThen (hresult ▸ hkept.1) hlast.1, hlast.2⟩

/-- A promise that every kind of segment keeps is kept by all executions. -/
theorem Upholds.keptBy_execute (hp : env.Upholds p) (limit : Nat) :
    p.KeptBy (env.execute limit) := by
  induction limit with
  | zero =>
    intro nodes context store outcome _ _ h
    contradiction
  | succ limit ih =>
    intro nodes context store outcome hnodes hstore h
    refine holdsOf_of_runSegments hp.toClosed (fun segment hmem c st o hst hrun => ?_) hstore h
    obtain ⟨hnode, hbody⟩ := Node.mem_of_mem_segments hmem
    exact hp.holdsOf_of_runSegment ih (hnodes _ hnode) (hnodes.mono hbody) hst hrun

/-- An inclusion keeps a promise if the store offers only permitted nodes. -/
theorem holdsOf_of_runInclusion (hp : p.Closed) (hexecutor : p.KeptBy executor)
    (hfetch : ∀ name store, p.store store → p.store (env.fetch name store).2)
    (hpartials : ∀ name store nodes, p.store store → (env.fetch name store).1 = some (.ok nodes) →
      p.PermitsAll nodes)
    {node : Node} {name : String} {span : Span} {body : List Node} (hbody : p.PermitsAll body)
    {context : Value} {store : σ} {outcome : Outcome σ} (hstore : p.store store)
    (h : env.runInclusion executor node name span body context store = some outcome) :
    p.HoldsOf context outcome := by
  have hafter := hfetch name store hstore
  unfold runInclusion at h
  split at h
  · obtain rfl := Option.some.inj h
    exact ⟨hp.fail _ context, hstore⟩
  · next scope _ =>
    split at h
    · next fetched heq =>
      rw [heq] at hafter
      obtain ⟨inner, hinner, rfl⟩ := Option.map_eq_some_iff.1 h
      obtain ⟨hrelates, hst⟩ := hexecutor body scope _ inner hbody hafter hinner
      exact ⟨hp.apart context hrelates, hst⟩
    · next e fetched heq =>
      rw [heq] at hafter
      obtain rfl := Option.some.inj h
      exact ⟨hp.fail _ context, hafter⟩
    · next nodes fetched heq =>
      have hnodes := hpartials name store nodes hstore (by rw [heq])
      rw [heq] at hafter
      obtain ⟨inner, hinner, rfl⟩ := Option.map_eq_some_iff.1 h
      have hspliced : p.PermitsAll (spliceContent nodes body) := fun n hn =>
        (mem_of_mem_spliceContent hn).elim (hnodes n) (hbody n)
      obtain ⟨hrelates, hst⟩ := hexecutor _ scope _ inner hspliced hafter hinner
      exact ⟨hp.apart context hrelates, hst⟩

end Environment

/-! ## Built-in helpers -/

namespace Helper

variable {σ : Type} {p : Promise σ}

/-- The branches of a body are parts of it. -/
theorem branches_sublist (body : List Node) :
    (branches body).1.Sublist body ∧ ∀ second ∈ (branches body).2, second.Sublist body := by
  unfold branches
  split
  · next first second hsplit =>
    obtain ⟨i, -, hparts⟩ := Option.map_eq_some_iff.1 hsplit
    obtain ⟨rfl, rfl⟩ := Prod.mk.inj hparts
    simpa using ⟨List.take_sublist i body, List.drop_sublist (i + 1) body⟩
  · simp

theorem branches_subset (body : List Node) :
    (branches body).1 ⊆ body ∧ ∀ second ∈ (branches body).2, second ⊆ body :=
  ⟨(branches_sublist body).1.subset, fun second h => ((branches_sublist body).2 second h).subset⟩

theorem keeps_renderBranch (hp : p.Closed) {branch : Option (List Node)}
    (hbranch : ∀ nodes ∈ branch, p.PermitsAll nodes) (context : Value) :
    (renderBranch branch context).Keeps p context := by
  cases branch with
  | none => exact hp.nothing context
  | some nodes => exact Plan.keeps_renderHere (hbranch nodes rfl) context

theorem keeps_conditional (hp : p.Closed) (name : String) : Keeps p name conditional := by
  intro context source span depth arguments body _ hbody
  obtain ⟨hfirst, hsecond⟩ := branches_subset body
  unfold conditional
  split
  · exact Plan.keeps_fail hp _ _
  · split
    · exact Plan.keeps_fail hp _ _
    · next holds _ =>
      refine keeps_renderBranch hp (fun nodes hnodes => ?_) context
      cases holds with
      | true => exact hbody.mono (Option.some.inj hnodes ▸ hfirst)
      | false => exact hbody.mono (hsecond nodes hnodes)

theorem keeps_passes (hp : p.Closed) {header : LoopHeader} {body : List Node}
    (hbody : p.PermitsAll body) {context : Value} (rest : List (String × Value)) {index : Nat}
    {scope : Value} {output : String} (houtput : p.relates context (.ok output) context) :
    (passes header body context rest index scope output).Keeps p context := by
  induction rest generalizing index scope output with
  | nil => exact houtput
  | cons entry rest ih =>
    refine ⟨hbody, fun result after h => ?_⟩
    cases result with
    | error e => exact hp.fail e context
    | ok text => exact ih (hp.andThen houtput (hp.apart context h))

theorem keeps_loop (hp : p.Closed) (name : String) : Keeps p name loop := by
  intro context source span depth arguments body _ hbody
  obtain ⟨hfirst, hsecond⟩ := branches_subset body
  unfold loop
  dsimp only
  split
  · exact Plan.keeps_fail hp _ _
  · split
    · exact Plan.keeps_fail hp _ _
    · split
      · exact keeps_renderBranch hp (fun nodes hnodes => hbody.mono (hsecond nodes hnodes)) context
      · exact keeps_passes hp (hbody.mono hfirst) _ (hp.nothing context)

theorem keeps_inScope (hp : p.Closed) (name : String) : Keeps p name inScope := by
  intro context source span depth arguments body _ hbody
  obtain ⟨hfirst, hsecond⟩ := branches_subset body
  unfold inScope
  split
  · exact Plan.keeps_fail hp _ _
  · dsimp only
    split
    · exact Plan.keeps_renderApart hp (hbody.mono hfirst) _ _
    · next second _ heq => exact Plan.keeps_renderHere (hbody.mono (hsecond second heq)) _
    · exact Plan.keeps_renderApart hp (hbody.mono hfirst) _ _

/-- Assignments keep a promise that holds of assignments in the context itself. -/
theorem keeps_assignment (hp : p.Closed) {name : String}
    {bind : Value → List (String × Value) → Value}
    (hbare : ∀ context source span depth arguments pairs,
      p.permits (.helper name source span depth (some arguments)) →
      Assignment.read arguments.toList context = .ok pairs →
      p.relates context (.ok "") (bind context pairs)) :
    Keeps p name (assignment bind) := by
  intro context source span depth arguments body hnode hbody
  unfold assignment
  cases arguments with
  | none => exact Plan.keeps_fail hp _ _
  | some arguments =>
    dsimp only [Node.arguments?]
    split
    · exact Plan.keeps_fail hp _ _
    · next pairs hpairs =>
      split
      · exact hbare context source span depth arguments pairs hnode hpairs
      · exact Plan.keeps_renderApart hp hbody _ _

/-- A function keeps a promise that says nothing about the text of a result. -/
theorem keeps_ofFunction (hp : ∀ {before after : Value} {text : String} (other : String),
      p.relates before (.ok text) after → p.relates before (.ok other) after)
    (f : List Value → String) (name : String) : Keeps p name (ofFunction f) := by
  intro context source span depth arguments body _ hbody
  refine ⟨hbody, fun result after h => ?_⟩
  cases result with
  | error e => exact h
  | ok content => exact hp _ h

/-- The built-in helpers keep a promise that assignments keep. -/
theorem keeps_of_mem_builtins (hp : p.Closed) (hset : Keeps p "set" (assignment Value.bindAll))
    (hdefault : Keeps p "default" (assignment Value.bindMissing)) {name : String} {helper : Helper}
    (h : (name, helper) ∈ builtins) : Keeps p name helper :=
  forall_mem_builtins (keeps_conditional hp _) (keeps_loop hp _) (keeps_loop hp _)
    (keeps_inScope hp _) hset hdefault h

end Helper

end Stencil
