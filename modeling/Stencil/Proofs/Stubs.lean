import Stencil.Engine.Basic
import Stencil.Proofs.Simulation

/-!
# Unknown names as stubs

A tag with a name that nobody registered is executed as if a stub were registered under the name:
for a helper one that does nothing, for a partial one that consists of the marker for its content.
Only the report of the unknown name goes missing when the stub is registered.

## Main definitions

* `Helper.silent`: the helper that does nothing.
* `Diagnostic.reportsHelper`, `Diagnostic.reportsPartial`: the reports of an unknown name.
-/

namespace Stencil

/-- The helper that renders nothing and leaves body and context alone. -/
def Helper.silent : Helper :=
  fun context _ _ => .done (.ok "") context

namespace Diagnostic

/-- Whether it is reported that a helper is unknown. -/
def reportsHelper (name : String) : Diagnostic → Bool
  | helperNotFound key _ => key == name
  | partialNotFound .. => false

/-- Whether it is reported that a partial is unknown. -/
def reportsPartial (name : String) : Diagnostic → Bool
  | helperNotFound .. => false
  | partialNotFound key _ => key == name

end Diagnostic

/-- A partial that is just its marker becomes its content. -/
theorem spliceContent_marker (source : String) (span : Span) (content : List Node) :
    spliceContent [.interpolation contentMarker source span none] content = content := by
  simp [spliceContent, Node.splitAtMarker?, Node.markerIndex?, Node.leadingRun, Node.isBlockTag,
    Node.opensBlock, Node.isClose, Node.isMarker]

namespace Engine

variable {σ : Type} [PartialStore σ] {engine : Engine σ} {name : String}

/-- Whether one store offers what another one does, but for a name that is unknown in the first
store and names a stub in the second. -/
structure Supplied (dialect : Dialect) (name : String) (stub : List Node) (store store' : σ) :
    Prop where
  unknown : (PartialStore.fetch dialect name store).1 = none
  stub : (PartialStore.fetch dialect name store').1 = some (.ok stub)
  others (other : String) (h : other ≠ name) :
    (PartialStore.fetch dialect other store').1 = (PartialStore.fetch dialect other store).1

/-- An engine without a helper answers like the engine with a helper that does nothing. -/
theorem simulates_registerHelper (h : Table.get? engine.helpers name = none) :
    engine.environment.Simulates (.same Eq (Diagnostic.reportsHelper name))
      (engine.registerHelper name .silent).environment := by
  refine Environment.simulates_same rfl (fun key node body context => ?_) ?_ ?_
  · have hanswer : (engine.registerHelper name .silent).environment.helper? key =
        if key = name then some Helper.silent else engine.environment.helper? key :=
      Table.get?_insert engine.helpers name key .silent
    rw [hanswer]
    split
    · next heq =>
      obtain rfl := heq
      have hunknown : engine.environment.helper? key = none := h
      rw [hunknown]
      exact .silenced rfl fun _ => beq_self_eq_true key
    · next hne =>
      have hother (span : Span) :
          Diagnostic.reportsHelper name (.helperNotFound key span) = false := beq_false_of_ne hne
      exact Simulation.invoked_refl hother _ _ _ _
  · rintro key body store _ rfl
    exact Simulation.included_refl (fun _ => rfl) _ _
  · rintro key store _ rfl
    rfl

variable [LawfulPartialStore σ]

theorem Supplied.fetch {dialect : Dialect} {stub : List Node} {store store' : σ}
    (h : Supplied dialect name stub store store') (used : String) :
    Supplied dialect name stub (PartialStore.fetch dialect used store).2
      (PartialStore.fetch dialect used store').2 where
  unknown := (LawfulPartialStore.fetch_fetch dialect used name store).trans h.unknown
  stub := (LawfulPartialStore.fetch_fetch dialect used name store').trans h.stub
  others other hother := by
    rw [LawfulPartialStore.fetch_fetch, LawfulPartialStore.fetch_fetch, h.others other hother]

theorem supplied_registerPartial (h : engine.definition? name = none) {source : PartialSource}
    {stub : List Node} (hsource : source.parse engine.dialect = .ok stub) :
    Supplied engine.dialect name stub engine.partials
      (engine.registerPartial name source).partials where
  unknown := h
  stub := by
    have heq := engine.definition?_registerPartial name source name
    rwa [if_pos rfl, hsource] at heq
  others other hother := by
    have heq := engine.definition?_registerPartial name source other
    rwa [if_neg hother] at heq

/-- An engine without a partial answers like the engine with a partial that is just its marker. -/
theorem simulates_registerPartial {source : String} {span : Span} (stub : PartialSource) :
    engine.environment.Simulates
      (.same
        (Supplied engine.dialect name [.interpolation contentMarker source span none])
        (Diagnostic.reportsPartial name))
      (engine.registerPartial name stub).environment := by
  refine Environment.simulates_same rfl ?_ (fun key body store store' h => ?_)
    fun key _ _ h => h.fetch key
  · exact fun key node body context => Simulation.invoked_refl (fun _ => rfl) _ _ _ _
  · by_cases heq : key = name
    · subst heq
      have hunknown : (engine.environment.fetch key store).1 = none := h.unknown
      have hstub := h.stub
      rw [hunknown]
      change Simulation.Included _ _ _ _ _ (PartialStore.fetch engine.dialect key store').1
      rw [hstub]
      exact .supplied (spliceContent_marker source span body).symm fun _ => beq_self_eq_true key
    · have hsame : ((engine.registerPartial name stub).environment.fetch key store').1 =
          (engine.environment.fetch key store).1 := h.others key heq
      have hother (span : Span) :
          Diagnostic.reportsPartial name (.partialNotFound key span) = false := beq_false_of_ne heq
      rw [hsame]
      exact Simulation.included_refl hother _ _

/-- Executing tags with an unknown name is executing them with a stub under that name: the result
and the context are the same, and the diagnostics are those that do not report the name. The stub of
a helper does nothing, the one of a partial is the marker for its content. -/
theorem execute_of_unregistered (engine : Engine σ) (name : String) (limit : Nat)
    (nodes : List Node) (context : Value) :
    (Table.get? engine.helpers name = none →
      Option.Rel (Outcome.SameWithout (Diagnostic.reportsHelper name))
        (engine.execute limit nodes context)
        ((engine.registerHelper name .silent).execute limit nodes context)) ∧
    (engine.definition? name = none → ∀ stub source span,
      PartialSource.parse engine.dialect stub =
        .ok [.interpolation contentMarker source span none] →
      Option.Rel (Outcome.SameWithout (Diagnostic.reportsPartial name))
        (engine.execute limit nodes context)
        ((engine.registerPartial name stub).execute limit nodes context)) := by
  constructor
  · intro h
    exact (simulates_registerHelper h).rel_execute limit nodes context rfl
  · intro h stub source span hstub
    exact (simulates_registerPartial stub).rel_execute limit nodes context
      (supplied_registerPartial h hstub)

/-- An unknown helper and an unknown partial in a loop, in a partial, and in the content that is put
into it. -/
theorem execute_of_unregistered_nested :
    let engine : Engine Cells := (Engine.new { delimiters := ⟨"[", "]"⟩ }).registerPartial "p"
      (.text "[> q a = x][a][#h]b[/h][/q]([$block])")
    let nodes := (engine.parse "[#each xs][> p x = this][#h][> q][#set y = x][y][/q][/p][/each]")
      |>.toOption.getD []
    let context := Value.object [("xs", .array [.string "c", .string "d"])]
    let executed (engine : Engine Cells) := (engine.execute 6 nodes context).map fun outcome =>
      (outcome.result.toOption, outcome.diagnostics)
    let helpers := [Diagnostic.helperNotFound "h" ⟨14, 18⟩, .helperNotFound "h" ⟨24, 28⟩]
    let first := Diagnostic.partialNotFound "q" ⟨0, 11⟩
    let last := Diagnostic.partialNotFound "q" ⟨28, 33⟩
    let stub := PartialSource.text "[$block]"
    Table.get? engine.helpers "h" = none ∧ engine.definition? "q" = none ∧
      stub.parse engine.dialect = .ok [.interpolation contentMarker "[$block]" ⟨0, 8⟩ none] ∧
      executed engine = some (some "c(c)d(d)",
        first :: helpers ++ [last, first] ++ helpers ++ [last]) ∧
      executed (engine.registerHelper "h" .silent) =
        some (some "c(c)d(d)", [first, last, first, last]) ∧
      executed (engine.registerPartial "q" stub) = some (some "c(c)d(d)", helpers ++ helpers) := by
  intro engine nodes context executed helpers first last stub
  have hhelper : Table.get? engine.helpers "h" = none := by decide
  have hpartial : engine.definition? "q" = none := by decide
  have hstub : stub.parse engine.dialect =
      .ok [.interpolation contentMarker "[$block]" ⟨0, 8⟩ none] := by decide +kernel
  have hexecuted : executed engine = some (some "c(c)d(d)",
      first :: helpers ++ [last, first] ++ helpers ++ [last]) := by decide +kernel
  obtain ⟨outcome, houtcome, hparts⟩ := Option.map_eq_some_iff.1 hexecuted
  obtain ⟨htext, hdiagnostics⟩ := Prod.mk.inj hparts
  have hsame {lacks : Diagnostic → Bool} {other : Option (Outcome Cells)}
      (h : Option.Rel (Outcome.SameWithout lacks) (engine.execute 6 nodes context) other) :
      other.map (fun outcome => (outcome.result.toOption, outcome.diagnostics)) =
        some (some "c(c)d(d)", outcome.diagnostics.filter (!lacks ·)) := by
    rw [houtcome] at h
    cases h with
    | some h => rw [Option.map_some, ← h.result, ← h.diagnostics, htext]
  have hsilent := hsame ((execute_of_unregistered engine "h" 6 nodes context).1 hhelper)
  have hmarker :=
    hsame ((execute_of_unregistered engine "q" 6 nodes context).2 hpartial stub _ _ hstub)
  rw [hdiagnostics] at hsilent hmarker
  exact ⟨hhelper, hpartial, hstub, hexecuted, hsilent, hmarker⟩

end Engine

end Stencil
