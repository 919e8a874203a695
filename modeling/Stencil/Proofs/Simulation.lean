import Mathlib.Tactic.Common
import Stencil.Render.Builtin
import Stencil.Render.Execute

/-!
# One execution as another

Two executions end alike if they come to the same tags, comments apart, and if their environments
answer alike to whatever a tag asks. The nodes, the contexts and the stores of the two need not be
the same: it is enough that they are related and that each step keeps them so. Alike are also the
answers for an unknown helper and for one that does nothing, and for an unknown partial and for one
that renders the content of its tag. In these cases the first execution reports what the second one
does not.

## Main definitions

* `Simulation`: how two executions are related, and which diagnostics the second one lacks.
* `Simulation.Agree`, `Outcome.SameWithout`: how the outcomes are related.
* `Simulation.Between`: whether one way to execute nodes simulates another.
* `Plan.Simulates`, `Simulation.Invoked`, `Simulation.Included`: answers of helpers and partials
  that are alike.
* `Environment.Simulates`: what is left to be shown of two environments.
* `Simulation.same`: two executions of the same nodes on the same context.
-/

namespace Stencil

variable {σ τ : Type}

/-- How two executions are related. -/
structure Simulation (σ τ : Type) where
  /-- The lists of nodes that are executed. -/
  nodes : List Node → List Node → Prop
  /-- The bodies of the block that a tag opens. -/
  block : Node → List Node → List Node → Prop
  context : Value → Value → Prop
  store : σ → τ → Prop
  /-- Whether a diagnostic of the first execution is not one of the second. -/
  lacks : Diagnostic → Bool

namespace Simulation

/-! ## What may be there -/

section Options

variable {α α' β β' : Type} {R : α → β → Prop} {S : α' → β' → Prop} {o : Option α} {o' : Option β}

theorem rel_map (h : Option.Rel R o o') {f : α → α'} {f' : β → β'}
    (hf : ∀ a b, R a b → S (f a) (f' b)) : Option.Rel S (o.map f) (o'.map f') := by
  cases h with
  | none => exact .none
  | some h => exact .some (hf _ _ h)

theorem rel_bind (h : Option.Rel R o o') {f : α → Option α'} {f' : β → Option β'}
    (hf : ∀ a b, R a b → Option.Rel S (f a) (f' b)) : Option.Rel S (o.bind f) (o'.bind f') := by
  cases h with
  | none => exact .none
  | some h => exact hf _ _ h

theorem rel_mono {S : α → β → Prop} (h : Option.Rel R o o') (hRS : ∀ a b, R a b → S a b) :
    Option.Rel S o o' := by
  cases h with
  | none => exact .none
  | some h => exact .some (hRS _ _ h)

end Options

/-! ## Outcomes -/

/-- Whether two outcomes are the same but for related contexts and stores and for the diagnostics
that the second one lacks. -/
structure Agree (s : Simulation σ τ) (outcome : Outcome σ) (outcome' : Outcome τ) : Prop where
  result : outcome.result = outcome'.result
  context : s.context outcome.context outcome'.context
  store : s.store outcome.store outcome'.store
  diagnostics : outcome.diagnostics.filter (!s.lacks ·) = outcome'.diagnostics

/-- Whether one way to execute nodes simulates another. -/
def Between (s : Simulation σ τ) (executor : Executor σ) (executor' : Executor τ) : Prop :=
  ∀ nodes nodes' context context' store store', s.nodes nodes nodes' →
    s.context context context' → s.store store store' →
      Option.Rel s.Agree (executor nodes context store) (executor' nodes' context' store')

variable {s : Simulation σ τ}

/-- Outcomes without diagnostics. -/
theorem Agree.silent (result : Except RenderError String) {context context' : Value}
    (hcontext : s.context context context') {store : σ} {store' : τ}
    (hstore : s.store store store') :
    s.Agree ⟨result, context, store, []⟩ ⟨result, context', store', []⟩ :=
  ⟨rfl, hcontext, hstore, rfl⟩

theorem Agree.report {outcome : Outcome σ} {outcome' : Outcome τ} (h : s.Agree outcome outcome')
    {earlier earlier' : List Diagnostic} (hearlier : earlier.filter (!s.lacks ·) = earlier') :
    s.Agree (outcome.report earlier) (outcome'.report earlier') := by
  refine ⟨h.result, h.context, h.store, ?_⟩
  rw [Outcome.report, Outcome.report, List.filter_append, hearlier, h.diagnostics]

theorem Agree.leaving {outcome : Outcome σ} {outcome' : Outcome τ} (h : s.Agree outcome outcome')
    {context context' : Value} (hcontext : s.context context context') :
    s.Agree (outcome.leaving context) (outcome'.leaving context') :=
  ⟨h.result, hcontext, h.store, h.diagnostics⟩

theorem Agree.following {outcome : Outcome σ} {outcome' : Outcome τ} (h : s.Agree outcome outcome')
    (text : String) : s.Agree (outcome.following text) (outcome'.following text) :=
  ⟨congrArg (Except.map (text ++ ·)) h.result, h.context, h.store, h.diagnostics⟩

/-- The diagnostics are the same if the second execution lacks none. -/
theorem Agree.diagnostics_eq {outcome : Outcome σ} {outcome' : Outcome τ}
    (h : s.Agree outcome outcome') (hlacks : ∀ diagnostic, s.lacks diagnostic = false) :
    outcome.diagnostics = outcome'.diagnostics := by
  rw [← h.diagnostics, List.filter_eq_self.2 fun diagnostic _ => by simp [hlacks]]

theorem rel_andThen {f : Value → σ → Option (Outcome σ)} {f' : Value → τ → Option (Outcome τ)}
    (hf : ∀ context context' store store', s.context context context' → s.store store store' →
      Option.Rel s.Agree (f context store) (f' context' store'))
    {outcome : Outcome σ} {outcome' : Outcome τ} (h : s.Agree outcome outcome') :
    Option.Rel s.Agree (outcome.andThen f) (outcome'.andThen f') := by
  unfold Outcome.andThen
  rw [← h.result]
  split
  · exact .some h
  · next text _ =>
    exact rel_map (hf _ _ _ _ h.context h.store) fun _ _ hlater =>
      (hlater.following text).report h.diagnostics

end Simulation

/-! ## Answers to names -/

/-- Whether two plans end alike as long as what they have rendered does. -/
inductive Plan.Simulates (s : Simulation σ τ) : Plan → Plan → Prop
  | done (result : Except RenderError String) {context context' : Value}
      (hcontext : s.context context context') :
      Simulates s (.done result context) (.done result context')
  | render {nodes nodes' : List Node} {context context' : Value}
      {resume resume' : Except RenderError String → Value → Plan} (hnodes : s.nodes nodes nodes')
      (hcontext : s.context context context')
      (hresume : ∀ result left left', s.context left left' →
        Simulates s (resume result left) (resume' result left')) :
      Simulates s (.render nodes context resume) (.render nodes' context' resume')

namespace Plan

variable {s : Simulation σ τ} {nodes nodes' : List Node} {context context' : Value}

theorem simulates_renderHere (hnodes : s.nodes nodes nodes')
    (hcontext : s.context context context') :
    Simulates s (renderHere nodes context) (renderHere nodes' context') :=
  .render hnodes hcontext fun result _ _ hleft => .done result hleft

theorem simulates_renderApart (hnodes : s.nodes nodes nodes') {scope scope' : Value}
    (hscope : s.context scope scope') (hcontext : s.context context context') :
    Simulates s (renderApart nodes scope context) (renderApart nodes' scope' context') :=
  .render hnodes hscope fun result _ _ _ => .done result hcontext

/-- Plans that simulate each other run to outcomes that agree. -/
theorem Simulates.rel_run {plan plan' : Plan} (h : Simulates s plan plan') {executor : Executor σ}
    {executor' : Executor τ} (hexecutor : s.Between executor executor') {store : σ} {store' : τ}
    (hstore : s.store store store') :
    Option.Rel s.Agree (plan.run executor store) (plan'.run executor' store') := by
  induction h generalizing store store' with
  | done result hcontext => exact .some (.silent result hcontext hstore)
  | render hnodes hcontext _ ih =>
    refine Simulation.rel_bind (hexecutor _ _ _ _ _ _ hnodes hcontext hstore) fun o o' ho => ?_
    rw [← ho.result]
    exact Simulation.rel_map (ih o.result _ _ ho.context ho.store) fun _ _ hlast =>
      hlast.report ho.diagnostics

end Plan

namespace Helper

variable {s : Simulation σ τ} {context context' : Value}

theorem simulates_renderBranch {branch branch' : Option (List Node)}
    (hbranch : Option.Rel s.nodes branch branch') (hcontext : s.context context context') :
    Plan.Simulates s (renderBranch branch context) (renderBranch branch' context') := by
  cases hbranch with
  | none => exact .done _ hcontext
  | some hnodes => exact Plan.simulates_renderHere hnodes hcontext

/-- The passes of a loop end alike if related scopes stay related when names are bound. -/
theorem simulates_passes {header : LoopHeader} {body body' : List Node} (hbody : s.nodes body body')
    (hcontext : s.context context context')
    (hbind : ∀ scope scope' pairs, s.context scope scope' →
      s.context (scope.bindAll pairs) (scope'.bindAll pairs))
    (rest : List (String × Value)) (index : Nat) {scope scope' : Value}
    (hscope : s.context scope scope') (output : String) :
    Plan.Simulates s (passes header body context rest index scope output)
      (passes header body' context' rest index scope' output) := by
  induction rest generalizing index scope scope' output with
  | nil => exact .done _ hcontext
  | cons entry rest ih =>
    refine .render hbody (hbind _ _ _ hscope) fun result left left' hleft => ?_
    cases result with
    | error e => exact .done _ hcontext
    | ok text => exact ih (index + 1) hleft (output ++ text)

end Helper

namespace Simulation

variable {s : Simulation σ τ}

/-- Whether the answers to the name of a helper are alike for a tag with two bodies in two
contexts. -/
inductive Invoked (s : Simulation σ τ) (name : String) (node : Node) (body body' : List Node)
    (context context' : Value) : Option Helper → Option Helper → Prop
  | unknown (h : ∀ span, s.lacks (.helperNotFound name span) = false) :
      Invoked s name node body body' context context' none none
  | known {helper helper' : Helper}
      (h : Plan.Simulates s (helper context node body) (helper' context' node body')) :
      Invoked s name node body body' context context' (some helper) (some helper')
  /-- The second helper does nothing. -/
  | silenced {helper' : Helper} (hdone : helper' context' node body' = .done (.ok "") context')
      (h : ∀ span, s.lacks (.helperNotFound name span)) :
      Invoked s name node body body' context context' none (some helper')

/-- Whether the answers to the name of a partial are alike for a tag with two bodies. -/
inductive Included (s : Simulation σ τ) (name : String) (body body' : List Node) :
    Option (Except ParseError (List Node)) → Option (Except ParseError (List Node)) → Prop
  | unknown (hbody : s.nodes body body')
      (h : ∀ span, s.lacks (.partialNotFound name span) = false) :
      Included s name body body' none none
  | broken (e : ParseError) : Included s name body body' (some (.error e)) (some (.error e))
  | known {nodes nodes' : List Node}
      (h : s.nodes (spliceContent nodes body) (spliceContent nodes' body')) :
      Included s name body body' (some (.ok nodes)) (some (.ok nodes'))
  /-- The second partial renders the content. -/
  | supplied {nodes' : List Node} (hbody : s.nodes body (spliceContent nodes' body'))
      (h : ∀ span, s.lacks (.partialNotFound name span)) :
      Included s name body body' none (some (.ok nodes'))

/-- Whether the scopes of an included partial are related, or the tag is refused in both contexts
for the same reason. -/
inductive Scoped (s : Simulation σ τ) :
    Except ArgumentFault Value → Except ArgumentFault Value → Prop
  | refused (fault : ArgumentFault) : Scoped s (.error fault) (.error fault)
  | scope {scope scope' : Value} (h : s.context scope scope') : Scoped s (.ok scope) (.ok scope')

theorem Scoped.refl (h : ∀ context, s.context context context)
    (scope : Except ArgumentFault Value) : s.Scoped scope scope := by
  cases scope with
  | error fault => exact .refused fault
  | ok scope => exact .scope (h scope)

/-- Whether two lists of segments have the same tags with related bodies, apart from comments that
the second one may lack. -/
inductive Aligned (s : Simulation σ τ) : List Segment → List Segment → Prop
  | nil : Aligned s [] []
  | cons {node : Node} {body body' : List Node} {rest rest' : List Segment}
      (hbody : s.block node body body') (hrest : Aligned s rest rest') :
      Aligned s (⟨node, body⟩ :: rest) (⟨node, body'⟩ :: rest')
  | comment {key source : String} {span : Span} {body : List Node} {rest rest' : List Segment}
      (hrest : Aligned s rest rest') : Aligned s (⟨.comment key source span, body⟩ :: rest) rest'

theorem aligned_refl {segments : List Segment}
    (hblock : ∀ segment ∈ segments, s.block segment.node segment.body segment.body) :
    Aligned s segments segments := by
  induction segments with
  | nil => exact .nil
  | cons segment rest ih =>
    have hrest := ih fun other h => hblock other (List.mem_cons_of_mem _ h)
    exact .cons (hblock segment List.mem_cons_self) hrest

end Simulation

/-! ## Executions -/

namespace Environment

open Simulation

variable {s : Simulation σ τ} {env : Environment σ} {env' : Environment τ}
  {executor : Executor σ} {executor' : Executor τ}

/-- Whether two environments answer alike to all that related nodes ask in related contexts. -/
structure Simulates (s : Simulation σ τ) (env : Environment σ) (env' : Environment τ) : Prop where
  segments {nodes nodes' : List Node} (h : s.nodes nodes nodes') :
    s.Aligned (Node.segments nodes) (Node.segments nodes')
  interpolation {key source : String} {span : Span} {arguments : Option String}
    {body body' : List Node} {context context' : Value}
    (h : s.block (.interpolation key source span arguments) body body')
    (hcontext : s.context context context') :
    env.interpolate key context = env'.interpolate key context'
  raw {key source : String} {span : Span} {body body' : List Node} {context context' : Value}
    (h : s.block (.raw key source span) body body') (hcontext : s.context context context') :
    env.interpolate key context = env'.interpolate key context'
  helper {key source : String} {span : Span} {depth : Nat} {arguments : Option String}
    {body body' : List Node} {context context' : Value}
    (h : s.block (.helper key source span depth arguments) body body')
    (hcontext : s.context context context') :
    s.Invoked key (.helper key source span depth arguments) body body' context context'
      (env.helper? key) (env'.helper? key)
  scope {key source : String} {span : Span} {depth : Nat} {arguments : Option String}
    {body body' : List Node} {context context' : Value}
    (h : s.block (.inclusion key source span depth arguments) body body')
    (hcontext : s.context context context') :
    s.Scoped (inclusionScope context arguments) (inclusionScope context' arguments)
  inclusion {key source : String} {span : Span} {depth : Nat} {arguments : Option String}
    {body body' : List Node} {store : σ} {store' : τ}
    (h : s.block (.inclusion key source span depth arguments) body body')
    (hstore : s.store store store') :
    s.Included key body body' (env.fetch key store).1 (env'.fetch key store').1
  fetch (name : String) {store : σ} {store' : τ} (h : s.store store store') :
    s.store (env.fetch name store).2 (env'.fetch name store').2

theorem Simulates.rel_runInclusion (h : env.Simulates s env')
    (hexecutor : s.Between executor executor') {key source : String} {span : Span} {depth : Nat}
    {arguments : Option String} {body body' : List Node}
    (hbody : s.block (.inclusion key source span depth arguments) body body')
    {context context' : Value} (hcontext : s.context context context') {store : σ} {store' : τ}
    (hstore : s.store store store') :
    Option.Rel s.Agree
      (env.runInclusion executor (.inclusion key source span depth arguments) key span body context
        store)
      (env'.runInclusion executor' (.inclusion key source span depth arguments) key span body'
        context' store') := by
  have hscope := h.scope hbody hcontext
  have hanswer := h.inclusion hbody hstore
  have hafter := h.fetch key hstore
  unfold runInclusion
  dsimp only [Node.arguments?]
  generalize inclusionScope context arguments = read at hscope
  generalize inclusionScope context' arguments = read' at hscope
  cases hscope with
  | refused fault => exact .some (.silent _ hcontext hstore)
  | scope hscope =>
    dsimp only
    generalize env.fetch key store = fetched at hanswer hafter
    generalize env'.fetch key store' = fetched' at hanswer hafter
    obtain ⟨found, after⟩ := fetched
    obtain ⟨found', after'⟩ := fetched'
    cases hanswer with
    | unknown hnodes hlacks =>
      exact rel_map (hexecutor _ _ _ _ _ _ hnodes hscope hafter) fun _ _ ho =>
        (ho.leaving hcontext).report (by simp [hlacks])
    | broken e => exact .some (.silent _ hcontext hafter)
    | known hnodes =>
      exact rel_map (hexecutor _ _ _ _ _ _ hnodes hscope hafter) fun _ _ ho => ho.leaving hcontext
    | supplied hnodes hlacks =>
      exact rel_map (hexecutor _ _ _ _ _ _ hnodes hscope hafter) fun _ o' ho =>
        show s.Agree _ ((o'.leaving context').report []) from
          (ho.leaving hcontext).report (by simp [hlacks])

theorem Simulates.rel_runSegment (h : env.Simulates s env')
    (hexecutor : s.Between executor executor') {node : Node} {body body' : List Node}
    (hbody : s.block node body body') {context context' : Value}
    (hcontext : s.context context context') {store : σ} {store' : τ}
    (hstore : s.store store store') :
    Option.Rel s.Agree (env.runSegment executor ⟨node, body⟩ context store)
      (env'.runSegment executor' ⟨node, body'⟩ context' store') := by
  cases node with
  | text | close | comment => exact .some (.silent _ hcontext hstore)
  | interpolation key =>
    simp only [runSegment, h.interpolation hbody hcontext]
    exact .some (.silent _ hcontext hstore)
  | raw key =>
    simp only [runSegment, h.raw hbody hcontext]
    exact .some (.silent _ hcontext hstore)
  | inclusion key source span depth arguments =>
    exact h.rel_runInclusion hexecutor hbody hcontext hstore
  | helper key source span depth arguments =>
    have hanswer := h.helper hbody hcontext
    simp only [runSegment]
    generalize env.helper? key = found at hanswer
    generalize env'.helper? key = found' at hanswer
    cases hanswer with
    | unknown hlacks => exact .some ⟨rfl, hcontext, hstore, by simp [hlacks]⟩
    | known hplan => exact hplan.rel_run hexecutor hstore
    | silenced hdone hlacks =>
      dsimp only
      rw [hdone]
      exact .some ⟨rfl, hcontext, hstore, by simp [hlacks]⟩

/-- Aligned segments are executed in step; a comment leaves no trace. -/
theorem Simulates.rel_runSegments (h : env.Simulates s env')
    (hexecutor : s.Between executor executor') {segments segments' : List Segment}
    (haligned : s.Aligned segments segments') {context context' : Value}
    (hcontext : s.context context context') {store : σ} {store' : τ}
    (hstore : s.store store store') :
    Option.Rel s.Agree (env.runSegments executor segments context store)
      (env'.runSegments executor' segments' context' store') := by
  induction haligned generalizing context context' store store' with
  | nil => exact .some (.silent _ hcontext hstore)
  | cons hbody _ ih =>
    exact rel_bind (h.rel_runSegment hexecutor hbody hcontext hstore) fun _ _ ho =>
      rel_andThen (fun _ _ _ _ hleft hst => ih hleft hst) ho
  | @comment key source span body rest _ _ ih =>
    have hskip : env.runSegments executor (⟨.comment key source span, body⟩ :: rest) context store =
        env.runSegments executor rest context store := by
      simp only [runSegments, runSegment, Option.bind_some, Outcome.andThen_nothing]
    rw [hskip]
    exact ih hcontext hstore

/-- Executions in two environments that answer alike end alike. -/
theorem Simulates.between_execute (h : env.Simulates s env') (limit : Nat) :
    s.Between (env.execute limit) (env'.execute limit) := by
  induction limit with
  | zero => exact fun _ _ _ _ _ _ _ _ _ => .none
  | succ limit ih =>
    intro nodes nodes' context context' store store' hnodes hcontext hstore
    exact h.rel_runSegments ih (h.segments hnodes) hcontext hstore

end Environment

/-! ## The same nodes and the same context -/

/-- Whether two outcomes are the same but for their stores and for diagnostics that the second one
lacks. -/
structure Outcome.SameWithout (lacks : Diagnostic → Bool) (outcome : Outcome σ)
    (outcome' : Outcome τ) : Prop where
  result : outcome.result = outcome'.result
  context : outcome.context = outcome'.context
  diagnostics : outcome.diagnostics.filter (!lacks ·) = outcome'.diagnostics

namespace Simulation

/-- Two executions of the same nodes on the same context. -/
def same (store : σ → τ → Prop) (lacks : Diagnostic → Bool) : Simulation σ τ where
  nodes := Eq
  block _ := Eq
  context := Eq
  store := store
  lacks := lacks

variable {R : σ → τ → Prop} {lacks : Diagnostic → Bool} {name : String}

theorem simulates_refl (plan : Plan) : Plan.Simulates (same R lacks) plan plan := by
  induction plan with
  | done result context => exact .done result rfl
  | render nodes context resume ih =>
    refine .render rfl rfl ?_
    rintro result left _ rfl
    exact ih result left

/-- The same answer to the name of a helper is alike. -/
theorem invoked_refl (h : ∀ span, lacks (.helperNotFound name span) = false) (node : Node)
    (body : List Node) (context : Value) (answer : Option Helper) :
    (same R lacks).Invoked name node body body context context answer answer := by
  cases answer with
  | none => exact .unknown h
  | some helper => exact .known (simulates_refl _)

/-- The same answer to the name of a partial is alike. -/
theorem included_refl (h : ∀ span, lacks (.partialNotFound name span) = false) (body : List Node)
    (answer : Option (Except ParseError (List Node))) :
    (same R lacks).Included name body body answer answer := by
  rcases answer with _ | e | nodes
  · exact .unknown rfl h
  · exact .broken e
  · exact .known rfl

end Simulation

namespace Environment

variable {R : σ → τ → Prop} {lacks : Diagnostic → Bool} {env : Environment σ}
  {env' : Environment τ}

/-- An interpolation depends on nothing but the strictness of an environment. -/
theorem interpolate_congr (h : env.strict = env'.strict) (key : String) (context : Value) :
    env.interpolate key context = env'.interpolate key context := by
  rw [interpolate, interpolate, h]

/-- Two environments answer alike to all that the same nodes ask if they answer alike to names. -/
theorem simulates_same (hstrict : env.strict = env'.strict)
    (hhelper : ∀ name node body context, (Simulation.same R lacks).Invoked name node body body
      context context (env.helper? name) (env'.helper? name))
    (hpartial : ∀ name body store store', R store store' →
      (Simulation.same R lacks).Included name body body (env.fetch name store).1
        (env'.fetch name store').1)
    (hfetch : ∀ name store store', R store store' →
      R (env.fetch name store).2 (env'.fetch name store').2) :
    env.Simulates (Simulation.same R lacks) env' where
  segments h := h ▸ Simulation.aligned_refl fun _ _ => rfl
  interpolation _ hcontext := hcontext ▸ interpolate_congr hstrict _ _
  raw _ hcontext := hcontext ▸ interpolate_congr hstrict _ _
  helper h hcontext := h ▸ hcontext ▸ hhelper _ _ _ _
  scope _ hcontext := hcontext ▸ Simulation.Scoped.refl (fun _ => rfl) _
  inclusion h hstore := h ▸ hpartial _ _ _ _ hstore
  fetch name _ _ h := hfetch name _ _ h

/-- Executions of the same nodes in two environments that answer alike have the same outcome but for
what the second one lacks. -/
theorem Simulates.rel_execute (h : env.Simulates (.same R lacks) env') (limit : Nat)
    (nodes : List Node) (context : Value) {store : σ} {store' : τ} (hstore : R store store') :
    Option.Rel (Outcome.SameWithout lacks) (env.execute limit nodes context store)
      (env'.execute limit nodes context store') :=
  Simulation.rel_mono
    (h.between_execute limit nodes nodes context context store store' rfl rfl hstore)
    fun _ _ hagree => ⟨hagree.result, hagree.context, hagree.diagnostics⟩

end Environment

end Stencil
