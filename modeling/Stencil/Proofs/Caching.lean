import Mathlib.Data.List.Forall2
import Stencil.Proofs.Simulation
import Stencil.Session

/-!
# Stores that cannot be told apart

A store that parses a text on first use and keeps what came of it cannot be told from one that
parses it afresh at every use: two stores that list the same names and offer under each the same
nodes or the same error stay alike. Sessions on alike stores give the same replies to the same
operations, also if one registers a text and the other one the nodes that the text is parsed to.

## Main definitions

* `PartialStore.Alike`: stores that offer the same.
* `Engine.Alike`, `Session.Alike`: engines and sessions that are the same but for alike stores.
* `Operation.Alike`: operations that are the same but for sources with the same nodes.
-/

namespace Stencil

open Simulation (rel_map rel_bind rel_mono)

variable {σ τ : Type} [PartialStore σ] [PartialStore τ]

/-- Whether two stores list the same names and offer the same under each. -/
structure PartialStore.Alike (dialect : Dialect) (store : σ) (store' : τ) : Prop where
  names : names store = names store'
  fetch (name : String) : (fetch dialect name store).1 = (fetch dialect name store').1

/-- Two executions of the same nodes on the same context with alike stores. -/
def Simulation.alike (σ τ : Type) [PartialStore σ] [PartialStore τ] (dialect : Dialect) :
    Simulation σ τ :=
  .same (PartialStore.Alike dialect) fun _ => false

/-- Whether two engines of a dialect are the same but for alike stores. -/
inductive Engine.Alike (dialect : Dialect) : Engine σ → Engine τ → Prop
  | intro (helpers : Table Helper) (receiver : Option String) {partials : σ} {partials' : τ}
      (hpartials : PartialStore.Alike dialect partials partials') :
      Alike dialect ⟨dialect, helpers, partials, receiver⟩ ⟨dialect, helpers, partials', receiver⟩

/-- Whether two sessions of a dialect are the same but for alike stores. -/
structure Session.Alike (dialect : Dialect) (session : Session σ) (session' : Session τ) : Prop
    where
  engine : session.engine.Alike dialect session'.engine
  context : session.context = session'.context

/-- Whether two operations are the same but for sources of partials with the same nodes. -/
inductive Operation.Alike (dialect : Dialect) : Operation → Operation → Prop
  | refl (operation : Operation) : Alike dialect operation operation
  | registerPartials {entries entries' : List (String × PartialSource)}
      (h : List.Forall₂ (fun entry entry' => entry.1 = entry'.1 ∧
        entry.2.parse dialect = entry'.2.parse dialect) entries entries') :
      Alike dialect (.registerPartials entries) (.registerPartials entries')

variable [ListedPartialStore σ] [ListedPartialStore τ]

/-! ## Stores -/

namespace PartialStore.Alike

variable {dialect : Dialect} {store : σ} {store' : τ}

theorem empty : Alike dialect (PartialStore.empty : σ) (PartialStore.empty : τ) where
  names := by rw [ListedPartialStore.names_empty, ListedPartialStore.names_empty]
  fetch name := by rw [LawfulPartialStore.fetch_empty, LawfulPartialStore.fetch_empty]

theorem register (h : Alike dialect store store') (name : String) {source source' : PartialSource}
    (hsource : source.parse dialect = source'.parse dialect) :
    Alike dialect (PartialStore.register store name source)
      (PartialStore.register store' name source') where
  names := by
    rw [ListedPartialStore.names_register, ListedPartialStore.names_register, h.names]
  fetch other := by
    rw [LawfulPartialStore.fetch_register, LawfulPartialStore.fetch_register, hsource,
      h.fetch other]

/-- Stores stay alike when the same partial is used. -/
theorem use (h : Alike dialect store store') (used : String) :
    Alike dialect (PartialStore.fetch dialect used store).2
      (PartialStore.fetch dialect used store').2 where
  names := by rw [ListedPartialStore.names_fetch, ListedPartialStore.names_fetch, h.names]
  fetch name := by
    rw [LawfulPartialStore.fetch_fetch, LawfulPartialStore.fetch_fetch, h.fetch name]

end PartialStore.Alike

/-! ## Engines -/

namespace Engine.Alike

variable {dialect : Dialect} {engine : Engine σ} {engine' : Engine τ}

theorem new (dialect : Dialect) : Engine.Alike dialect (Engine.new dialect : Engine σ)
    (Engine.new dialect : Engine τ) :=
  .intro _ _ .empty

theorem registerPartial (h : engine.Alike dialect engine') (name : String)
    {source source' : PartialSource} (hsource : source.parse dialect = source'.parse dialect) :
    (engine.registerPartial name source).Alike dialect (engine'.registerPartial name source') := by
  cases h with
  | intro helpers receiver hpartials =>
    exact .intro helpers receiver (hpartials.register name hsource)

theorem registerPartials (h : engine.Alike dialect engine')
    {entries entries' : List (String × PartialSource)}
    (hentries : List.Forall₂ (fun entry entry' => entry.1 = entry'.1 ∧
      entry.2.parse dialect = entry'.2.parse dialect) entries entries') :
    (engine.registerPartials entries).Alike dialect (engine'.registerPartials entries') := by
  induction hentries generalizing engine engine' with
  | nil => exact h
  | @cons entry entry' _ _ hentry _ ih =>
    obtain ⟨name, source⟩ := entry
    obtain ⟨name', source'⟩ := entry'
    obtain ⟨rfl, hsource⟩ := hentry
    exact ih (h.registerPartial name hsource)

/-- Environments of alike engines answer alike. -/
theorem simulates (h : engine.Alike dialect engine') :
    engine.environment.Simulates (.alike σ τ dialect) engine'.environment := by
  cases h
  refine Environment.simulates_same rfl ?_ (fun name body store store' hstore => ?_)
    fun name _ _ hstore => hstore.use name
  · exact fun name node body context => Simulation.invoked_refl (fun _ => rfl) node body context _
  · have hfetch : (PartialStore.fetch dialect name store).1 = _ := hstore.fetch name
    rw [Engine.environment, Engine.environment, hfetch]
    exact Simulation.included_refl (fun _ => rfl) body _

/-- Alike engines execute nodes in step. -/
theorem rel_execute (h : engine.Alike dialect engine') (limit : Nat) (nodes : List Node)
    (context : Value) :
    Option.Rel (Simulation.alike σ τ dialect).Agree
      (engine.execute limit nodes context) (engine'.execute limit nodes context) := by
  have hbetween := h.simulates.between_execute limit nodes nodes context context
  cases h with
  | intro _ _ hpartials => exact hbetween _ _ rfl rfl hpartials

theorem rel_renderNodes (h : engine.Alike dialect engine') (limit : Nat) (nodes : List Node)
    (data : Value) :
    Option.Rel (Simulation.alike σ τ dialect).Agree
      (engine.renderNodes limit nodes data) (engine'.renderNodes limit nodes data) :=
  rel_map (h.rel_execute limit nodes data) fun _ _ hagree => hagree.leaving rfl

omit [ListedPartialStore σ] [ListedPartialStore τ] in
theorem parse_eq (h : engine.Alike dialect engine') : engine.parse = engine'.parse := by
  cases h
  rfl

theorem rel_render (h : engine.Alike dialect engine') (limit : Nat) (template : String)
    (data : Value) :
    Option.Rel (Simulation.alike σ τ dialect).Agree
      (engine.render limit template data) (engine'.render limit template data) := by
  unfold render
  rw [← h.parse_eq]
  split
  · cases h with
    | intro _ _ hpartials => exact .some ⟨rfl, rfl, hpartials, rfl⟩
  · exact h.rel_renderNodes limit _ data

/-- A partial that is rendered by itself is used before it is executed. -/
theorem rel_renderPartial (h : engine.Alike dialect engine') (limit : Nat) (name : String)
    (data : Value) :
    Option.Rel (Simulation.alike σ τ dialect).Agree
      (engine.renderPartial limit name data) (engine'.renderPartial limit name data) := by
  cases h with
  | @intro helpers receiver partials partials' hpartials =>
    have hfound := hpartials.fetch name
    have hafter := hpartials.use name
    unfold renderPartial
    dsimp only
    generalize PartialStore.fetch dialect name partials = fetched at hfound hafter
    generalize PartialStore.fetch dialect name partials' = fetched' at hfound hafter
    obtain ⟨found, after⟩ := fetched
    obtain ⟨found', after'⟩ := fetched'
    obtain rfl : found = found' := hfound
    rcases found with _ | e | nodes
    · exact .some ⟨rfl, rfl, hpartials, rfl⟩
    · exact .some ⟨rfl, rfl, hafter, rfl⟩
    · exact rel_renderNodes (.intro helpers receiver hafter) limit _ data

omit [ListedPartialStore σ] [ListedPartialStore τ]

/-- Engines stay alike after executions that agree. -/
theorem after (h : engine.Alike dialect engine') {outcome : Outcome σ} {outcome' : Outcome τ}
    (hagree : (Simulation.alike σ τ dialect).Agree outcome outcome') :
    (engine.after outcome).Alike dialect (engine'.after outcome') := by
  cases h
  exact .intro _ _ hagree.store

theorem registerHelper (h : engine.Alike dialect engine') (name : String) (helper : Helper) :
    (engine.registerHelper name helper).Alike dialect (engine'.registerHelper name helper) := by
  cases h with
  | intro helpers receiver hpartials => exact .intro _ receiver hpartials

theorem setReceiver (h : engine.Alike dialect engine') (label : String) :
    (engine.setReceiver label).Alike dialect (engine'.setReceiver label) := by
  cases h with
  | intro helpers receiver hpartials => exact .intro helpers _ hpartials

theorem delivered_eq (h : engine.Alike dialect engine') :
    engine.delivered = engine'.delivered := by
  cases h
  rfl

theorem dialect_eq (h : engine.Alike dialect engine') : engine.dialect = engine'.dialect := by
  cases h
  rfl

theorem description_eq (h : engine.Alike dialect engine') :
    engine.description = engine'.description := by
  cases h with
  | intro _ _ hpartials => rw [description, description, hpartials.names]

end Engine.Alike

/-! ## Sessions -/

namespace Session

variable {dialect : Dialect} {session : Session σ} {session' : Session τ}

/-- Whether two replies are the same and the sessions after them alike. -/
def Answered (dialect : Dialect) (answered : Reply × Session σ) (answered' : Reply × Session τ) :
    Prop :=
  answered.1 = answered'.1 ∧ answered.2.Alike dialect answered'.2

theorem rel_renderEach {engine : Engine σ} {engine' : Engine τ} (h : engine.Alike dialect engine')
    (limit : Nat) (nodes : List Node) (datas : List Value) :
    Option.Rel (fun rendered rendered' => rendered.1 = rendered'.1 ∧
        rendered.2.1 = rendered'.2.1 ∧ rendered.2.2.Alike dialect rendered'.2.2)
      (renderEach limit nodes datas engine) (renderEach limit nodes datas engine') := by
  induction datas generalizing engine engine' with
  | nil => exact .some ⟨rfl, rfl, h⟩
  | cons data rest ih =>
    refine rel_bind (h.rel_renderNodes limit nodes data) fun outcome outcome' hagree => ?_
    refine rel_bind (ih (h.after hagree)) ?_
    rintro ⟨results, diagnostics, engine⟩ ⟨_, _, engine'⟩ ⟨rfl, rfl, halike⟩
    exact .some ⟨by rw [hagree.result], by rw [hagree.diagnostics_eq fun _ => rfl], halike⟩

namespace Alike

omit [ListedPartialStore σ] [ListedPartialStore τ] in
theorem answerRendering (h : session.Alike dialect session') {outcome : Outcome σ}
    {outcome' : Outcome τ} (hagree : (Simulation.alike σ τ dialect).Agree outcome outcome') :
    Answered dialect (session.answerRendering outcome) (session'.answerRendering outcome') := by
  refine ⟨?_, h.engine.after hagree, h.context⟩
  simp only [Session.answerRendering, hagree.result, hagree.diagnostics_eq fun _ => rfl,
    h.engine.delivered_eq]

omit [ListedPartialStore σ] [ListedPartialStore τ] in
theorem answerExecution (h : session.Alike dialect session') (keepsContext : Bool)
    {outcome : Outcome σ} {outcome' : Outcome τ}
    (hagree : (Simulation.alike σ τ dialect).Agree outcome outcome') :
    Answered dialect (session.answerExecution keepsContext outcome)
      (session'.answerExecution keepsContext outcome') := by
  have hleft : outcome.context = outcome'.context := hagree.context
  refine ⟨?_, h.engine.after hagree, ?_⟩
  · simp only [Session.answerExecution, hagree.result, hagree.diagnostics_eq fun _ => rfl, hleft,
      h.engine.delivered_eq]
  · simp only [Session.answerExecution, hleft, h.context]

/-- Alike sessions answer alike operations in the same way and stay alike. -/
theorem rel_perform (h : session.Alike dialect session') {operation operation' : Operation}
    (hoperation : operation.Alike dialect operation') (limit : Nat) :
    Option.Rel (Answered dialect) (session.perform limit operation)
      (session'.perform limit operation') := by
  cases hoperation with
  | registerPartials hentries =>
    exact .some ⟨rfl, h.engine.registerPartials hentries, h.context⟩
  | refl =>
    cases operation with
    | parse template =>
      refine .some ⟨?_, h⟩
      rw [h.engine.parse_eq]
    | render template data =>
      simp only [perform, h.context]
      exact rel_map (h.engine.rel_render limit template _) fun _ _ => h.answerRendering
    | renderPartial name data =>
      simp only [perform, h.context]
      exact rel_map (h.engine.rel_renderPartial limit name _) fun _ _ => h.answerRendering
    | compile template datas =>
      simp only [perform, h.engine.parse_eq]
      split
      · exact .some ⟨rfl, h⟩
      · refine rel_map (rel_renderEach h.engine limit _ datas) ?_
        rintro ⟨results, diagnostics, engine⟩ ⟨_, _, engine'⟩ ⟨rfl, rfl, halike⟩
        exact ⟨by rw [halike.delivered_eq], halike, h.context⟩
    | execute template data =>
      simp only [perform, h.engine.dialect_eq, h.context]
      split
      · exact .some ⟨rfl, h⟩
      · exact rel_map (h.engine.rel_execute limit _ _) fun _ _ => h.answerExecution _
    | setContext data => exact .some ⟨rfl, h.engine, rfl⟩
    | registerPartials entries =>
      exact .some ⟨rfl, h.engine.registerPartials (List.forall₂_same.2 fun _ _ => ⟨rfl, rfl⟩),
        h.context⟩
    | registerHelper name helper =>
      exact .some ⟨rfl, h.engine.registerHelper name helper, h.context⟩
    | setReceiver label => exact .some ⟨rfl, h.engine.setReceiver label, h.context⟩
    | dialect => exact .some ⟨by rw [h.engine.dialect_eq], h⟩
    | describe => exact .some ⟨by rw [h.engine.description_eq], h⟩

/-- Alike sessions give the same replies to alike operations and stay alike. -/
theorem rel_run (h : session.Alike dialect session') {operations operations' : List Operation}
    (hoperations : List.Forall₂ (Operation.Alike dialect) operations operations') (limit : Nat) :
    Option.Rel (fun ran ran' => ran.1 = ran'.1 ∧ ran.2.Alike dialect ran'.2)
      (run limit operations session) (run limit operations' session') := by
  induction hoperations generalizing session session' with
  | nil => exact .some ⟨rfl, h⟩
  | cons hoperation _ ih =>
    refine rel_bind (h.rel_perform hoperation limit) ?_
    rintro ⟨reply, session⟩ ⟨_, session'⟩ ⟨rfl, halike⟩
    refine rel_bind (ih halike) ?_
    rintro ⟨replies, session⟩ ⟨_, session'⟩ ⟨rfl, hlast⟩
    exact .some ⟨rfl, hlast⟩

end Alike

/-- Sessions with a store that keeps parsed texts give the same replies as sessions with a store
that parses every text afresh, and leave the same context behind, whatever is asked of them. It
makes no difference either whether partials are registered as texts or as the nodes of these
texts. -/
theorem run_of_alike (dialect : Dialect) (limit : Nat) (data : Value)
    {operations operations' : List Operation}
    (hoperations : List.Forall₂ (Operation.Alike dialect) operations operations') :
    Option.Rel (fun ran ran' => ran.1 = ran'.1 ∧ ran.2.context = ran'.2.context)
        (run limit operations (⟨Engine.new dialect, data⟩ : Session Cells))
        (run limit operations' (⟨Engine.new dialect, data⟩ : Session Sources)) ∧
      Option.Rel (fun ran ran' => ran.1 = ran'.1 ∧ ran.2.context = ran'.2.context)
        (run limit operations (⟨Engine.new dialect, data⟩ : Session Cells))
        (run limit operations' (⟨Engine.new dialect, data⟩ : Session Cells)) := by
  have hnew (ρ : Type) [PartialStore ρ] [ListedPartialStore ρ] :
      Alike dialect (⟨Engine.new dialect, data⟩ : Session Cells)
        (⟨Engine.new dialect, data⟩ : Session ρ) := ⟨.new dialect, rfl⟩
  exact ⟨rel_mono ((hnew Sources).rel_run hoperations limit) fun _ _ h => ⟨h.1, h.2.context⟩,
    rel_mono ((hnew Cells).rel_run hoperations limit) fun _ _ h => ⟨h.1, h.2.context⟩⟩

/-- Partials that are registered anew after they were used, one of which does not parse at first. -/
theorem run_of_alike_replaced :
    let dialect : Dialect := { delimiters := ⟨"[", "]"⟩ }
    let operations (p : PartialSource) : List Operation :=
      [.registerPartials [("p", p), ("q", .text "[/q]")], .render "[> p]" none,
        .renderPartial "q" none, .render "[> q]" none,
        .registerPartials [("q", .text "b[x]"), ("p", .text "c[> q]")],
        .execute (.text "[#set x = 2][> p]") none, .renderPartial "p" none]
    let text := PartialSource.text "a[x][$block]"
    let parsed := PartialSource.nodes [.text "a", .interpolation "x" "[x]" ⟨1, 4⟩ none,
      .interpolation "$block" "[$block]" ⟨4, 12⟩ none]
    let texts (replies : List Reply) : List (Option String) := replies.map fun reply =>
      match reply.result with
      | .ok (.text s) => some s
      | _ => none
    let replies := [none, some "a1", none, none, none, some "cb2", some "cb2"]
    let data := Value.object [("x", .number (.int 1))]
    List.Forall₂ (Operation.Alike dialect) (operations text) (operations parsed) ∧
      (run 4 (operations text) (⟨Engine.new dialect, data⟩ : Session Cells)).map
        (texts ·.1) = some replies ∧
      (run 4 (operations parsed) (⟨Engine.new dialect, data⟩ : Session Sources)).map
        (texts ·.1) = some replies ∧
      (run 4 (operations parsed) (⟨Engine.new dialect, data⟩ : Session Cells)).map
        (texts ·.1) = some replies := by
  intro dialect operations text parsed texts replies data
  have hparse : text.parse dialect = parsed.parse dialect := by decide +kernel
  have hoperations :
      List.Forall₂ (Operation.Alike dialect) (operations text) (operations parsed) :=
    .cons (.registerPartials (.cons ⟨rfl, hparse⟩ (.cons ⟨rfl, rfl⟩ .nil)))
      (List.forall₂_same.2 fun _ _ => .refl _)
  have hrun : (run 4 (operations text) (⟨Engine.new dialect, data⟩ : Session Cells)).map
      (texts ·.1) = some replies := by decide +kernel
  obtain ⟨ran, hran, htexts⟩ := Option.map_eq_some_iff.1 hrun
  have hsame {σ : Type} {other : Option (List Reply × Session σ)}
      (h : Option.Rel (fun ran ran' => ran.1 = ran'.1 ∧ ran.2.context = ran'.2.context)
        (run 4 (operations text) (⟨Engine.new dialect, data⟩ : Session Cells)) other) :
      other.map (texts ·.1) = some replies := by
    rw [hran] at h
    cases h with
    | some h => rw [Option.map_some, ← h.1, htexts]
  obtain ⟨hsources, hcells⟩ := run_of_alike dialect 4 data hoperations
  exact ⟨hoperations, hrun, hsame hsources, hsame hcells⟩

end Session

end Stencil
