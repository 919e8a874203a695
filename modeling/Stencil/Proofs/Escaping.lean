import Mathlib.Tactic.Common
import Stencil.Engine.Basic
import Stencil.Proofs.Promise

/-!
# Escaping

Four characters can open or close a tag or an attribute value in HTML. If no raw interpolation and
no text with one of them occurs in a template or in a partial, then none of them occurs in what is
rendered, whatever the data are: every value that reaches the output passes through an escaped
interpolation.

## Main definitions

* `Text.FreeOfMarkup`: texts without these characters.
* `Node.Guarded`, `Engine.Guarded`: nodes and partials that bring none of them along.
-/

namespace Stencil

/-! ## Texts without markup -/

namespace Text

/-- The characters that open or close a tag or an attribute value. -/
def markup : List Char := ['<', '>', '"', '\'']

def FreeOfMarkup (s : String) : Prop :=
  ∀ c ∈ s.toList, c ∉ markup

instance (s : String) : Decidable (FreeOfMarkup s) :=
  inferInstanceAs (Decidable (∀ c ∈ s.toList, c ∉ markup))

theorem freeOfMarkup_empty : FreeOfMarkup "" := by
  simp [FreeOfMarkup]

theorem FreeOfMarkup.append {s t : String} (hs : FreeOfMarkup s) (ht : FreeOfMarkup t) :
    FreeOfMarkup (s ++ t) := by
  intro c hc
  rw [String.toList_append, List.mem_append] at hc
  exact hc.elim (hs c) (ht c)

theorem not_mem_markup_of_mem_escapeHtmlChar {c d : Char} (h : d ∈ escapeHtmlChar c) :
    d ∉ markup := by
  unfold escapeHtmlChar at h
  split at h
  case h_6 =>
    obtain rfl := List.mem_singleton.1 h
    simp_all [markup]
  all_goals
    revert d
    decide

theorem freeOfMarkup_escapeHtml (s : String) : FreeOfMarkup (escapeHtml s) := by
  intro c hc
  rw [escapeHtml, String.toList_ofList, List.mem_flatMap] at hc
  obtain ⟨d, -, hd⟩ := hc
  exact not_mem_markup_of_mem_escapeHtmlChar hd

end Text

/-! ## Guarded nodes -/

open Text (FreeOfMarkup)

/-- Whether a node can bring markup into the output only through data, and escapes these. -/
def Node.Guarded : Node → Prop
  | text s => FreeOfMarkup s
  | raw .. => False
  | interpolation .. | inclusion .. | helper .. | close .. | comment .. => True

instance : DecidablePred Node.Guarded
  | .text s => inferInstanceAs (Decidable (FreeOfMarkup s))
  | .raw .. => inferInstanceAs (Decidable False)
  | .interpolation .. | .inclusion .. | .helper .. | .close .. | .comment .. =>
    inferInstanceAs (Decidable True)

variable {σ : Type} [PartialStore σ]

/-- Whether all nodes of the partials of an engine are guarded. -/
def Engine.Guarded (engine : Engine σ) : Prop :=
  engine.AllPartials Node.Guarded

/-- Guarded nodes render no markup as long as the partials are guarded. -/
def Promise.escaping (engine : Engine σ) : Promise σ where
  permits := Node.Guarded
  store partials := { engine with partials }.Guarded
  relates _ result _ := ∀ text, result = .ok text → FreeOfMarkup text

namespace Engine

variable {engine : Engine σ}

theorem closed_escaping : (Promise.escaping engine).Closed where
  nothing _ := by
    rintro _ ⟨⟩
    exact Text.freeOfMarkup_empty
  fail _ _ := by
    rintro _ ⟨⟩
  andThen {_ _ _ text result} first second := by
    cases result with
    | error e => rintro _ ⟨⟩
    | ok later =>
      rintro _ ⟨⟩
      exact (first text rfl).append (second later rfl)
  apart _ nested := nested

theorem keeps_escaping {name : String} {helper : Helper} (h : (name, helper) ∈ Helper.builtins) :
    helper.Keeps (Promise.escaping engine) name := by
  have hclosed : (Promise.escaping engine).Closed := closed_escaping
  have hassign (bind : Value → List (String × Value) → Value) (name : String) :
      (Helper.assignment bind).Keeps (Promise.escaping engine) name :=
    Helper.keeps_assignment hclosed fun context _ _ _ _ _ _ _ => hclosed.nothing context
  exact Helper.keeps_of_mem_builtins hclosed (hassign _ _) (hassign _ _) h

variable [LawfulPartialStore σ]

/-- Using a partial leaves the partials guarded. -/
theorem Guarded.of_fetch {store : σ} (h : { engine with partials := store }.Guarded)
    (name : String) :
    { engine with partials := (PartialStore.fetch engine.dialect name store).2 }.Guarded :=
  AllPartials.fetch h name

theorem upholds_escaping (hhelpers : engine.OnlyBuiltins) :
    engine.environment.Upholds (Promise.escaping engine) where
  toClosed := closed_escaping
  text _ hguarded := by
    rintro _ ⟨⟩
    exact hguarded
  interpolation {key _ _ _} context _ := by
    intro text htext
    cases hvalue : engine.environment.interpolate key context with
    | error e => simp [hvalue, Except.map] at htext
    | ok value =>
      rw [hvalue] at htext
      obtain rfl := Except.ok.inj htext
      exact Text.freeOfMarkup_escapeHtml value
  raw _ hguarded := hguarded.elim
  helper {name helper} h := keeps_escaping (hhelpers name helper h)
  inclusion hexecutor _ _ _ _ hbody _ _ _ hstore h := by
    refine Environment.holdsOf_of_runInclusion closed_escaping hexecutor ?_ ?_ hbody hstore h
    · exact fun name _ hpartials => hpartials.of_fetch name
    · exact fun name _ nodes hpartials hnodes => hpartials name nodes hnodes

/-- What guarded nodes render is free of markup, if the partials are guarded and all helpers are
built in. -/
theorem freeOfMarkup_of_execute (hhelpers : engine.OnlyBuiltins) (hpartials : engine.Guarded)
    {nodes : List Node} (hnodes : ∀ node ∈ nodes, node.Guarded) {limit : Nat} {context : Value}
    {outcome : Outcome σ} (h : engine.execute limit nodes context = some outcome) {text : String}
    (htext : outcome.result = .ok text) : FreeOfMarkup text :=
  ((upholds_escaping hhelpers).keptBy_execute limit nodes context engine.partials outcome hnodes
    hpartials h).1 text htext

theorem guarded_new (dialect : Dialect) : (new dialect : Engine σ).Guarded :=
  AllPartials.new dialect

theorem Guarded.registerPartial (h : engine.Guarded) {name : String} {source : PartialSource}
    (hsource : ∀ nodes, source.parse engine.dialect = .ok nodes → ∀ node ∈ nodes, node.Guarded) :
    (engine.registerPartial name source).Guarded :=
  AllPartials.registerPartial h hsource

/-- An engine with built-in helpers and guarded partials renders guarded templates without markup,
whatever the data are. -/
theorem rendering_freeOfMarkup (hhelpers : engine.OnlyBuiltins) (hpartials : engine.Guarded)
    {limit : Nat} {outcome : Outcome σ} {text : String} (htext : outcome.result = .ok text) :
    (∀ nodes context, (∀ node ∈ nodes, node.Guarded) →
      engine.execute limit nodes context = some outcome → FreeOfMarkup text) ∧
    (∀ template data,
      (∀ nodes, engine.parse template = .ok nodes → ∀ node ∈ nodes, node.Guarded) →
      engine.render limit template data = some outcome → FreeOfMarkup text) ∧
    (∀ name data, engine.renderPartial limit name data = some outcome → FreeOfMarkup text) := by
  refine ⟨?_, ?_, ?_⟩
  · intro nodes context hguarded h
    exact freeOfMarkup_of_execute hhelpers hpartials hguarded h htext
  · intro template data hguarded h
    unfold render at h
    split at h
    · obtain rfl := Option.some.inj h
      contradiction
    · next nodes hparse =>
      obtain ⟨executed, hexecuted, rfl⟩ := Option.map_eq_some_iff.1 h
      exact freeOfMarkup_of_execute hhelpers hpartials (hguarded nodes hparse) hexecuted htext
  · intro name data h
    have hfetched := hpartials.of_fetch name
    unfold renderPartial at h
    split at h
    · obtain rfl := Option.some.inj h
      contradiction
    · obtain rfl := Option.some.inj h
      contradiction
    · next nodes partials heq =>
      have hdefinition : engine.definition? name = some (.ok nodes) := by rw [definition?, heq]
      have hguarded : ∀ node ∈ spliceContent nodes [], node.Guarded := fun node hmem =>
        (mem_of_mem_spliceContent hmem).elim (hpartials name nodes hdefinition node) (by simp)
      rw [heq] at hfetched
      have hhelpers' : { engine with partials }.OnlyBuiltins := hhelpers
      obtain ⟨executed, hexecuted, rfl⟩ := Option.map_eq_some_iff.1 h
      exact freeOfMarkup_of_execute hhelpers' hfetched hguarded hexecuted htext

/-- Markup in a key, in a value and in an argument of a partial is escaped on its way out. -/
theorem rendering_freeOfMarkup_loop :
    let dialect : Dialect := { delimiters := ⟨"[", "]"⟩ }
    let engine : Engine Cells := (Engine.new dialect).registerPartial "p" (.text "[k]: [v][quote]")
    let template := "[#each xs as v, k][> p quote = '\"'][/p][else]none[/each]"
    let data := Value.object [("xs", .object [("<k>", .string "it's")])]
    let output := "&lt;k&gt;: it&#39;s&quot;"
    (engine.render 4 template data).map (·.result) = some (.ok output) ∧ FreeOfMarkup output := by
  intro dialect engine template data output
  have hhelpers : engine.OnlyBuiltins := (onlyBuiltins_new _).registerPartial _ _
  have hparsed : Template.parse dialect "[k]: [v][quote]" =
      .ok [.interpolation "k" "[k]" ⟨0, 3⟩ none, .text ": ", .interpolation "v" "[v]" ⟨5, 8⟩ none,
        .interpolation "quote" "[quote]" ⟨8, 15⟩ none] := by decide +kernel
  have hpartials : engine.Guarded := by
    refine (guarded_new _).registerPartial fun nodes hnodes => ?_
    obtain rfl := Except.ok.inj (hparsed.symm.trans hnodes)
    decide
  have hresult : (engine.render 4 template data).map (·.result) = some (.ok output) := by
    decide +kernel
  obtain ⟨outcome, houtcome, htext⟩ := Option.map_eq_some_iff.1 hresult
  refine ⟨hresult, (rendering_freeOfMarkup hhelpers hpartials htext).2.1 template data ?_ houtcome⟩
  intro nodes hnodes
  have htemplate : engine.parse template =
      .ok [.helper "each" "[#each xs as v, k]" ⟨0, 18⟩ 0 (some "xs as v, k"),
        .inclusion "p" "[> p quote = '\"']" ⟨18, 35⟩ 0 (some "quote = '\"'"),
        .close "p" "[/p]" ⟨35, 39⟩ 0, .interpolation "else" "[else]" ⟨39, 45⟩ none, .text "none",
        .close "each" "[/each]" ⟨49, 56⟩ 0] := by decide +kernel
  obtain rfl := Except.ok.inj (htemplate.symm.trans hnodes)
  decide

end Engine

end Stencil
