import Stencil.Proofs.Promise
import Stencil.Proofs.Simulation

/-!
# Two executions in step

Two executions of the same nodes that start in related contexts and from related stores stay in step
if every single segment keeps them in step: they have an outcome within the same limits, with the
same result and the same diagnostics, and leave related contexts and stores behind.

## Main definitions

* `Correspondence`, `Correspondence.Agree`: how two executions are related, before and after.
* `Correspondence.Between`: whether two ways to execute nodes stay in step.
* `Plan.Corresponds`, `Helper.Corresponds`: whether a helper stays in step as far as nested
  executions do.
* `Environment.Corresponds`: what is left to be shown of two environments.
-/

namespace Stencil

variable {σ τ : Type}

/-- How two executions of the same permitted nodes are related. -/
structure Correspondence (σ τ : Type) where
  permits : Node → Prop
  context : Value → Value → Prop
  store : σ → τ → Prop

namespace Correspondence

/-- Whether two outcomes are the same but for related contexts and stores. -/
structure Agree (c : Correspondence σ τ) (outcome : Outcome σ) (outcome' : Outcome τ) : Prop where
  result : outcome.result = outcome'.result
  context : c.context outcome.context outcome'.context
  store : c.store outcome.store outcome'.store
  diagnostics : outcome.diagnostics = outcome'.diagnostics

/-- Whether two ways to execute permitted nodes stay in step. -/
def Between (c : Correspondence σ τ) (executor : Executor σ) (executor' : Executor τ) : Prop :=
  ∀ nodes context context' store store', (∀ node ∈ nodes, c.permits node) →
    c.context context context' → c.store store store' →
      Option.Rel c.Agree (executor nodes context store) (executor' nodes context' store')

variable {c : Correspondence σ τ}

/-- Two executions in step simulate each other. -/
def simulation (c : Correspondence σ τ) : Simulation σ τ where
  nodes nodes nodes' := nodes' = nodes ∧ ∀ node ∈ nodes, c.permits node
  block node body body' := body' = body ∧ c.permits node ∧ ∀ other ∈ body, c.permits other
  context := c.context
  store := c.store
  lacks _ := false

theorem Agree.of_simulation {outcome : Outcome σ} {outcome' : Outcome τ}
    (h : c.simulation.Agree outcome outcome') : c.Agree outcome outcome' where
  result := h.result
  context := h.context
  store := h.store
  diagnostics := h.diagnostics_eq fun _ => rfl

end Correspondence

/-! ## Helpers -/

/-- Whether two plans end alike as long as what they have rendered does. -/
inductive Plan.Corresponds (c : Correspondence σ τ) : Plan → Plan → Prop
  | done (result : Except RenderError String) {context context' : Value}
      (hcontext : c.context context context') :
      Corresponds c (.done result context) (.done result context')
  | render {nodes : List Node} {context context' : Value}
      {resume resume' : Except RenderError String → Value → Plan}
      (hnodes : ∀ node ∈ nodes, c.permits node) (hcontext : c.context context context')
      (hresume : ∀ result left left', c.context left left' →
        Corresponds c (resume result left) (resume' result left')) :
      Corresponds c (.render nodes context resume) (.render nodes context' resume')

namespace Plan

variable {c : Correspondence σ τ} {nodes : List Node} {context context' : Value}

/-- Plans stay in step if they simulate each other. -/
theorem corresponds_iff {plan plan' : Plan} :
    Corresponds c plan plan' ↔ Simulates c.simulation plan plan' := by
  constructor
  · intro h
    induction h with
    | done result hcontext => exact .done result hcontext
    | render hnodes hcontext _ ih => exact .render ⟨rfl, hnodes⟩ hcontext ih
  · intro h
    induction h with
    | done result hcontext => exact .done result hcontext
    | render hnodes hcontext _ ih =>
      obtain ⟨rfl, hpermits⟩ := hnodes
      exact .render hpermits hcontext ih

theorem corresponds_renderHere (hnodes : ∀ node ∈ nodes, c.permits node)
    (hcontext : c.context context context') :
    Corresponds c (renderHere nodes context) (renderHere nodes context') := by
  rw [corresponds_iff]
  exact simulates_renderHere (s := c.simulation) ⟨rfl, hnodes⟩ hcontext

theorem corresponds_renderApart (hnodes : ∀ node ∈ nodes, c.permits node) {scope scope' : Value}
    (hscope : c.context scope scope') (hcontext : c.context context context') :
    Corresponds c (renderApart nodes scope context) (renderApart nodes scope' context') := by
  rw [corresponds_iff]
  exact simulates_renderApart (s := c.simulation) ⟨rfl, hnodes⟩ hscope hcontext

end Plan

namespace Helper

variable {c : Correspondence σ τ} {context context' : Value}

/-- Whether a helper stays in step on the permitted tags with its name and permitted bodies. -/
def Corresponds (c : Correspondence σ τ) (name : String) (helper : Helper) : Prop :=
  ∀ context context' source span depth arguments body, c.context context context' →
    c.permits (.helper name source span depth arguments) → (∀ node ∈ body, c.permits node) →
      Plan.Corresponds c (helper context (.helper name source span depth arguments) body)
        (helper context' (.helper name source span depth arguments) body)

theorem corresponds_renderBranch {branch : Option (List Node)}
    (hbranch : ∀ nodes ∈ branch, ∀ node ∈ nodes, c.permits node)
    (hcontext : c.context context context') :
    Plan.Corresponds c (renderBranch branch context) (renderBranch branch context') := by
  rw [Plan.corresponds_iff]
  refine simulates_renderBranch ?_ hcontext
  cases branch with
  | none => exact .none
  | some nodes => exact .some ⟨rfl, hbranch nodes rfl⟩

/-- The passes of a loop stay in step if related scopes stay related when names are bound. -/
theorem corresponds_passes {header : LoopHeader} {body : List Node}
    (hbody : ∀ node ∈ body, c.permits node) (hcontext : c.context context context')
    (hbind : ∀ scope scope' pairs, c.context scope scope' →
      c.context (scope.bindAll pairs) (scope'.bindAll pairs))
    (rest : List (String × Value)) (index : Nat) {scope scope' : Value}
    (hscope : c.context scope scope') (output : String) :
    Plan.Corresponds c (passes header body context rest index scope output)
      (passes header body context' rest index scope' output) := by
  rw [Plan.corresponds_iff]
  exact simulates_passes (s := c.simulation) ⟨rfl, hbody⟩ hcontext hbind rest index hscope output

end Helper

/-! ## Executions -/

namespace Environment

variable {c : Correspondence σ τ} {env : Environment σ} {env' : Environment τ}

/-- Whether two environments answer alike to all that permitted nodes ask in related contexts. -/
structure Corresponds (c : Correspondence σ τ) (env : Environment σ) (env' : Environment τ) :
    Prop where
  interpolation {key source : String} {span : Span} {arguments : Option String}
    {context context' : Value} (h : c.permits (.interpolation key source span arguments))
    (hcontext : c.context context context') :
    env.interpolate key context = env'.interpolate key context'
  raw {key source : String} {span : Span} {context context' : Value}
    (h : c.permits (.raw key source span)) (hcontext : c.context context context') :
    env.interpolate key context = env'.interpolate key context'
  helper?_eq (name : String) : env.helper? name = env'.helper? name
  helper {name : String} {helper : Helper} (h : env.helper? name = some helper) :
    helper.Corresponds c name
  scope {key source : String} {span : Span} {depth : Nat} {arguments : Option String}
    {context context' : Value} (h : c.permits (.inclusion key source span depth arguments))
    (hcontext : c.context context context') :
    (∃ fault, inclusionScope context arguments = .error fault ∧
      inclusionScope context' arguments = .error fault) ∨
    ∃ scope scope', inclusionScope context arguments = .ok scope ∧
      inclusionScope context' arguments = .ok scope' ∧ c.context scope scope'
  fst_fetch (name : String) {store : σ} {store' : τ} (h : c.store store store') :
    (env.fetch name store).1 = (env'.fetch name store').1
  fetch (name : String) {store : σ} {store' : τ} (h : c.store store store') :
    c.store (env.fetch name store).2 (env'.fetch name store').2
  partials {name : String} {nodes : List Node} {store : σ} {store' : τ} (h : c.store store store')
    (hnodes : (env.fetch name store).1 = some (.ok nodes)) : ∀ node ∈ nodes, c.permits node

theorem Corresponds.simulates (h : env.Corresponds c env') : env.Simulates c.simulation env' where
  segments := by
    rintro nodes _ ⟨rfl, hnodes⟩
    refine Simulation.aligned_refl fun segment hmem => ?_
    obtain ⟨hnode, hbody⟩ := Node.mem_of_mem_segments hmem
    exact ⟨rfl, hnodes _ hnode, fun node hmem => hnodes node (hbody hmem)⟩
  interpolation hblock hcontext := h.interpolation hblock.2.1 hcontext
  raw hblock hcontext := h.raw hblock.2.1 hcontext
  helper := by
    rintro key source span depth arguments body _ context context' ⟨rfl, hnode, hbody⟩ hcontext
    rw [← h.helper?_eq key]
    cases hhelper : env.helper? key with
    | none => exact .unknown fun _ => rfl
    | some helper =>
      exact .known
        (Plan.corresponds_iff.1 (h.helper hhelper _ _ _ _ _ _ _ hcontext hnode hbody))
  scope hblock hcontext := by
    rcases h.scope hblock.2.1 hcontext with ⟨fault, heq, heq'⟩ | ⟨scope, scope', heq, heq', hscope⟩
    · rw [heq, heq']
      exact .refused fault
    · rw [heq, heq']
      exact .scope hscope
  inclusion := by
    rintro key source span depth arguments body _ store store' ⟨rfl, -, hbody⟩ hstore
    rw [← h.fst_fetch key hstore]
    rcases hfound : (env.fetch key store).1 with _ | e | nodes
    · exact .unknown ⟨rfl, hbody⟩ fun _ => rfl
    · exact .broken e
    · refine .known ⟨rfl, fun node hmem => ?_⟩
      exact (mem_of_mem_spliceContent hmem).elim (h.partials hstore hfound node) (hbody node)
  fetch name _ _ hstore := h.fetch name hstore

/-- Executions in two environments that answer alike stay in step. -/
theorem Corresponds.between_execute (h : env.Corresponds c env') (limit : Nat) :
    c.Between (env.execute limit) (env'.execute limit) := by
  intro nodes context context' store store' hnodes hcontext hstore
  exact Simulation.rel_mono
    (h.simulates.between_execute limit nodes nodes _ _ _ _ ⟨rfl, hnodes⟩ hcontext hstore)
    fun _ _ hagree => .of_simulation hagree

end Environment

end Stencil
