import Mathlib.Tactic.Common
import Stencil.Engine.Basic

/-!
# Strictness

In a strict dialect an interpolation that addresses nothing ends the rendering. Nothing else depends
on strictness: an execution in a strict dialect either ends for a missing variable or leaves behind
just what it leaves behind in a lenient one. The arguments of helpers may address nothing in both.

## Main definitions

* `Dialect.withStrictness`, `Engine.withStrictness`: the strict and the lenient variant.
* `Outcome.Missing`: whether an execution ended for a missing variable.
* `Refines`: an execution that is another one unless it ends for a missing variable.
* `Plan.Transparent`: whether a helper passes errors on and leaves missing variables to others.
-/

namespace Stencil

/-! ## Reading in a strict dialect -/

def Dialect.withStrictness (strict : Bool) (dialect : Dialect) : Dialect :=
  { dialect with strict }

theorem Token.ofTextAfter_withStrictness (strict : Bool) (dialect : Dialect)
    (previous : Option Char) (s : List Char) :
    ofTextAfter (dialect.withStrictness strict) previous s = ofTextAfter dialect previous s := by
  fun_induction ofTextAfter dialect previous s with
  | case1 previous s h => exact ofTextAfter_of_findUnescaped?_eq_none h
  | case2 previous s before rest h hr => exact ofTextAfter_of_read?_eq_none h hr
  | case3 previous s before rest h t hr ih =>
    have hcut : ofTextAfter (dialect.withStrictness strict) previous s = _ :=
      ofTextAfter_of_read?_eq_some h hr
    rw [hcut, ih]

/-- A template is read alike in a strict dialect and in a lenient one. -/
theorem Template.parse_withStrictness (strict : Bool) (dialect : Dialect) :
    parse (dialect.withStrictness strict) = parse dialect := by
  funext template
  rw [parse, parse, Token.ofText, Token.ofText, Token.ofTextAfter_withStrictness]

/-! ## Outcomes -/

variable {σ : Type}

/-- Whether the execution ended for a missing variable. -/
def Outcome.Missing (outcome : Outcome σ) : Prop :=
  ∃ path, outcome.result = .error (.missingVariable path)

/-- Whether an execution is another one unless it ends for a missing variable. -/
def Refines (strict lenient : Option (Outcome σ)) : Prop :=
  (∃ outcome, strict = some outcome ∧ outcome.Missing) ∨ strict = lenient

namespace Refines

variable {strict lenient : Option (Outcome σ)}

theorem refl (executed : Option (Outcome σ)) : Refines executed executed :=
  .inr rfl

theorem map {f : Outcome σ → Outcome σ} (h : Refines strict lenient)
    (hf : ∀ outcome, outcome.Missing → (f outcome).Missing) :
    Refines (strict.map f) (lenient.map f) := by
  rcases h with ⟨outcome, rfl, hmissing⟩ | rfl
  · exact .inl ⟨f outcome, rfl, hf outcome hmissing⟩
  · exact refl _

/-- Going on after an execution, where nothing is done any more after a missing variable. -/
theorem bind {f g : Outcome σ → Option (Outcome σ)} (h : Refines strict lenient)
    (hmissing : ∀ outcome, outcome.Missing → ∃ last, f outcome = some last ∧ last.Missing)
    (hnext : ∀ outcome, Refines (f outcome) (g outcome)) :
    Refines (strict.bind f) (lenient.bind g) := by
  rcases h with ⟨outcome, rfl, hended⟩ | rfl
  · exact .inl (hmissing outcome hended)
  · cases strict with
    | none => exact refl none
    | some outcome => exact hnext outcome

theorem andThen {f g : Value → σ → Option (Outcome σ)} (outcome : Outcome σ)
    (h : ∀ context store, Refines (f context store) (g context store)) :
    Refines (outcome.andThen f) (outcome.andThen g) := by
  unfold Outcome.andThen
  split
  · exact refl _
  · refine (h _ _).map ?_
    rintro later ⟨path, hpath⟩
    exact ⟨path, by simp [Outcome.following, Outcome.report, hpath, Except.map]⟩

end Refines

/-! ## Helpers -/

namespace Plan

/-- Whether a plan ends with any error of what it asks to have rendered, and raises no missing
variable of its own. -/
def Transparent : Plan → Prop
  | done result _ => ∀ path, result ≠ .error (.missingVariable path)
  | render _ _ resume =>
    (∀ error context, ∃ left, resume (.error error) context = done (.error error) left) ∧
      ∀ text context, (resume (.ok text) context).Transparent

theorem transparent_renderHere (nodes : List Node) (context : Value) :
    (renderHere nodes context).Transparent :=
  ⟨fun _ context => ⟨context, rfl⟩, fun _ _ _ => nofun⟩

theorem transparent_renderApart (nodes : List Node) (scope context : Value) :
    (renderApart nodes scope context).Transparent :=
  ⟨fun _ _ => ⟨context, rfl⟩, fun _ _ _ => nofun⟩

/-- A plan that runs strictly refines the same plan that runs leniently. -/
theorem Transparent.refines {plan : Plan} (h : plan.Transparent) {strict lenient : Executor σ}
    (hexecutor : ∀ nodes context store,
      Refines (strict nodes context store) (lenient nodes context store)) (store : σ) :
    Refines (plan.run strict store) (plan.run lenient store) := by
  induction plan generalizing store with
  | done result context => exact .refl _
  | render nodes context resume ih =>
    obtain ⟨herror, hok⟩ := h
    refine (hexecutor nodes context store).bind ?_ fun outcome => ?_
    · rintro outcome ⟨path, hpath⟩
      obtain ⟨left, hleft⟩ := herror (.missingVariable path) outcome.context
      exact ⟨_, by rw [hpath, hleft]; rfl, path, rfl⟩
    · cases hresult : outcome.result with
      | error error =>
        obtain ⟨left, hleft⟩ := herror error outcome.context
        rw [hleft]
        exact .refl _
      | ok text => exact (ih _ _ (hok text outcome.context) outcome.store).map fun _ h => h

/-- A plan does not end for a missing variable unless one is missing in what it asks for. -/
theorem Transparent.not_missing {plan : Plan} (h : plan.Transparent) {executor : Executor σ}
    (hexecutor : ∀ nodes context store outcome,
      executor nodes context store = some outcome → ¬ outcome.Missing)
    {store : σ} {outcome : Outcome σ} (hrun : plan.run executor store = some outcome) :
    ¬ outcome.Missing := by
  induction plan generalizing store outcome with
  | done result context =>
    obtain rfl := Option.some.inj hrun
    rintro ⟨path, hpath⟩
    exact h path hpath
  | render nodes context resume ih =>
    obtain ⟨herror, hok⟩ := h
    obtain ⟨inner, hinner, hrest⟩ := Option.bind_eq_some_iff.1 hrun
    obtain ⟨last, hlast, rfl⟩ := Option.map_eq_some_iff.1 hrest
    cases hresult : inner.result with
    | error error =>
      obtain ⟨left, hleft⟩ := herror error inner.context
      rw [hresult, hleft] at hlast
      obtain rfl := Option.some.inj hlast
      rintro ⟨path, hpath⟩
      exact hexecutor _ _ _ _ hinner ⟨path, hresult.trans hpath⟩
    | ok text =>
      rw [hresult] at hlast
      have hkept : ¬ last.Missing := ih _ _ (hok text inner.context) hlast
      exact hkept

end Plan

namespace Helper

def Transparent (helper : Helper) : Prop :=
  ∀ context node body, (helper context node body).Transparent

theorem transparent_refuse (name : String) (fault : ArgumentFault) (context : Value) (node : Node) :
    (refuse name fault context node).Transparent :=
  fun _ => nofun

theorem transparent_renderBranch (branch : Option (List Node)) (context : Value) :
    (renderBranch branch context).Transparent := by
  cases branch with
  | none => exact fun _ => nofun
  | some nodes => exact Plan.transparent_renderHere nodes context

theorem transparent_conditional : conditional.Transparent := by
  intro context node body
  unfold conditional
  split
  · exact transparent_refuse _ _ _ _
  · split
    · exact transparent_refuse _ _ _ _
    · exact transparent_renderBranch _ _

theorem transparent_passes (header : LoopHeader) (body : List Node) (context : Value)
    (rest : List (String × Value)) (index : Nat) (scope : Value) (output : String) :
    (passes header body context rest index scope output).Transparent := by
  induction rest generalizing index scope output with
  | nil => exact fun _ => nofun
  | cons entry rest ih => exact ⟨fun _ _ => ⟨context, rfl⟩, fun _ _ => ih _ _ _⟩

theorem transparent_loop : loop.Transparent := by
  intro context node body
  unfold loop
  dsimp only
  split
  · exact transparent_refuse _ _ _ _
  · split
    · exact transparent_refuse _ _ _ _
    · split
      · exact transparent_renderBranch _ _
      · exact transparent_passes _ _ _ _ _ _ _

theorem transparent_inScope : inScope.Transparent := by
  intro context node body
  unfold inScope
  split
  · exact transparent_refuse _ _ _ _
  · dsimp only
    split
    · exact Plan.transparent_renderApart _ _ _
    · exact Plan.transparent_renderHere _ _
    · exact Plan.transparent_renderApart _ _ _

theorem transparent_assignment (bind : Value → List (String × Value) → Value) :
    (assignment bind).Transparent := by
  intro context node body
  unfold assignment
  dsimp only
  split
  · exact transparent_refuse _ _ _ _
  · split
    · exact transparent_refuse _ _ _ _
    · split
      · exact fun _ => nofun
      · exact Plan.transparent_renderApart _ _ _

theorem transparent_ofFunction (f : List Value → String) : (ofFunction f).Transparent :=
  fun _ _ _ => ⟨fun _ context => ⟨context, rfl⟩, fun _ _ _ => nofun⟩

/-- Built-in helpers and functions pass errors on and raise no missing variable. -/
theorem transparent_of_ordinary {name : String} {helper : Helper}
    (h : (name, helper) ∈ builtins ∨ ∃ f, helper = ofFunction f) : helper.Transparent := by
  rcases h with h | ⟨f, rfl⟩
  · exact forall_mem_builtins (P := fun _ helper => helper.Transparent) transparent_conditional
      transparent_loop transparent_loop transparent_inScope (transparent_assignment _)
      (transparent_assignment _) h
  · exact transparent_ofFunction f

end Helper

/-! ## Executions -/

namespace Environment

variable {env : Environment σ}

def withStrictness (strict : Bool) (env : Environment σ) : Environment σ :=
  { env with strict }

theorem refines_runInclusion {strict lenient : Executor σ}
    (hexecutor : ∀ nodes context store,
      Refines (strict nodes context store) (lenient nodes context store))
    (node : Node) (name : String) (span : Span) (body : List Node) (context : Value) (store : σ) :
    Refines ((env.withStrictness true).runInclusion strict node name span body context store)
      ((env.withStrictness false).runInclusion lenient node name span body context store) := by
  simp only [runInclusion, withStrictness]
  split
  · exact .refl _
  · split
    · exact (hexecutor _ _ _).map fun _ h => h
    · exact .refl _
    · exact (hexecutor _ _ _).map fun _ h => h

/-- Only an interpolation makes a difference between a strict step and a lenient one. -/
theorem refines_runSegment {strict lenient : Executor σ}
    (hhelpers : ∀ name helper, env.helper? name = some helper → helper.Transparent)
    (hexecutor : ∀ nodes context store,
      Refines (strict nodes context store) (lenient nodes context store))
    (segment : Segment) (context : Value) (store : σ) :
    Refines ((env.withStrictness true).runSegment strict segment context store)
      ((env.withStrictness false).runSegment lenient segment context store) := by
  obtain ⟨node, body⟩ := segment
  cases node with
  | text | close | comment => exact .refl _
  | interpolation key source span arguments =>
    simp only [runSegment, interpolate]
    cases Operand.lookup? key.toList context with
    | some value => exact .refl _
    | none => exact .inl ⟨_, rfl, key, rfl⟩
  | raw key source span =>
    simp only [runSegment, interpolate]
    cases Operand.lookup? key.toList context with
    | some value => exact .refl _
    | none => exact .inl ⟨_, rfl, key, rfl⟩
  | helper key source span depth arguments =>
    simp only [runSegment, withStrictness]
    cases hhelper : env.helper? key with
    | none => exact .refl _
    | some helper => exact (hhelpers key helper hhelper context _ body).refines hexecutor store
  | inclusion key source span depth arguments =>
    exact refines_runInclusion hexecutor _ key span body context store

theorem refines_runSegments {strict lenient : Executor σ}
    (hhelpers : ∀ name helper, env.helper? name = some helper → helper.Transparent)
    (hexecutor : ∀ nodes context store,
      Refines (strict nodes context store) (lenient nodes context store))
    (segments : List Segment) (context : Value) (store : σ) :
    Refines ((env.withStrictness true).runSegments strict segments context store)
      ((env.withStrictness false).runSegments lenient segments context store) := by
  induction segments generalizing context store with
  | nil => exact .refl _
  | cons segment rest ih =>
    refine (refines_runSegment hhelpers hexecutor segment context store).bind ?_ fun outcome => ?_
    · rintro outcome ⟨path, hpath⟩
      exact ⟨outcome, by simp [Outcome.andThen, hpath], path, hpath⟩
    · exact .andThen outcome ih

theorem refines_execute
    (hhelpers : ∀ name helper, env.helper? name = some helper → helper.Transparent) (limit : Nat)
    (nodes : List Node) (context : Value) (store : σ) :
    Refines ((env.withStrictness true).execute limit nodes context store)
      ((env.withStrictness false).execute limit nodes context store) := by
  induction limit generalizing nodes context store with
  | zero => exact .refl _
  | succ limit ih => exact refines_runSegments hhelpers ih (Node.segments nodes) context store

end Environment

namespace Engine

def withStrictness (strict : Bool) (engine : Engine σ) : Engine σ :=
  { engine with dialect := engine.dialect.withStrictness strict }

variable [PartialStore σ] [LawfulPartialStore σ]

/-- Partials are read alike, so that an engine consults the same but for its strictness. -/
theorem environment_withStrictness (strict : Bool) (engine : Engine σ) :
    (engine.withStrictness strict).environment = engine.environment.withStrictness strict := by
  have hfetch : (engine.withStrictness strict).environment.fetch = engine.environment.fetch := by
    funext name store
    exact LawfulPartialStore.fetch_congr (Template.parse_withStrictness strict _) name store
  rw [Environment.withStrictness, ← hfetch]
  rfl

/-- A strict execution ends for a missing variable or is the lenient one, with the same result,
context and diagnostics. In particular a text that is rendered strictly is rendered leniently too.
Helpers are never to blame for a missing variable. -/
theorem strict_refines_lenient {engine : Engine σ} (hhelpers : engine.Ordinary) :
    (∀ limit nodes context,
      (∃ outcome, (engine.withStrictness true).execute limit nodes context = some outcome ∧
        outcome.Missing) ∨
      (engine.withStrictness true).execute limit nodes context =
        (engine.withStrictness false).execute limit nodes context) ∧
    (∀ limit nodes context outcome text,
      (engine.withStrictness true).execute limit nodes context = some outcome →
      outcome.result = .ok text →
        (engine.withStrictness false).execute limit nodes context = some outcome) ∧
    (∀ name helper, Table.get? engine.helpers name = some helper → ∀ executor : Executor σ,
      (∀ nodes context store outcome, executor nodes context store = some outcome →
        ¬ outcome.Missing) →
      ∀ context node body store outcome,
        (helper context node body).run executor store = some outcome → ¬ outcome.Missing) := by
  have htransparent (name : String) (helper : Helper)
      (h : Table.get? engine.helpers name = some helper) : helper.Transparent :=
    Helper.transparent_of_ordinary (hhelpers name helper h)
  have hrefines (limit : Nat) (nodes : List Node) (context : Value) :
      Refines ((engine.withStrictness true).execute limit nodes context)
        ((engine.withStrictness false).execute limit nodes context) := by
    rw [execute, execute, environment_withStrictness, environment_withStrictness]
    exact Environment.refines_execute htransparent limit nodes context engine.partials
  refine ⟨hrefines, ?_, ?_⟩
  · intro limit nodes context outcome text hstrict htext
    rcases hrefines limit nodes context with ⟨missed, hmissed, path, hpath⟩ | heq
    · obtain rfl := Option.some.inj (hmissed.symm.trans hstrict)
      rw [htext] at hpath
      contradiction
    · exact heq.symm.trans hstrict
  · intro name helper h executor hexecutor context node body store outcome hrun
    exact (htransparent name helper h context node body).not_missing hexecutor hrun

/-- Nothing that the arguments of helpers address is there, and a strict execution still
succeeds. -/
theorem strict_refines_lenient_arguments :
    let engine : Engine Cells := (Engine.new { delimiters := ⟨"[", "]"⟩ }).registerFunction "join"
      fun arguments => "-".intercalate (arguments.map Value.text)
    let template := "[#set x = a][#if b < c][else][x][/if][#each d][this][/each]" ++
      "[#join e, 1][/join][#with f]g[/with][#nope][y][/nope]"
    let nodes := (engine.parse template).toOption.getD []
    engine.Ordinary ∧
      ((engine.withStrictness true).execute 3 nodes .null).map (·.result) =
        some (.ok "a-1g") ∧
      (engine.withStrictness false).execute 3 nodes .null =
        (engine.withStrictness true).execute 3 nodes .null := by
  intro engine template nodes
  have hhelpers : engine.Ordinary := (onlyBuiltins_new _).ordinary.registerFunction _ _
  have hresult : ((engine.withStrictness true).execute 3 nodes .null).map (·.result) =
      some (.ok "a-1g") := by decide +kernel
  obtain ⟨outcome, houtcome, htext⟩ := Option.map_eq_some_iff.1 hresult
  have hlenient := (strict_refines_lenient hhelpers).2.1 3 nodes .null outcome _ houtcome htext
  exact ⟨hhelpers, hresult, hlenient.trans houtcome.symm⟩

end Engine

end Stencil
