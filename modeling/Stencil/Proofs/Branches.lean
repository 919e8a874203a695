import Stencil.Proofs.Assignments
import Stencil.Proofs.Marker
import Stencil.Proofs.Passes

/-!
# Branches of a body and content of a partial

The tags `if`, `each`, `for` and `with` execute one branch of their body or the other, some of them
on a scope of their own, and an inclusion executes the partial with the content of the tag in it.
The branches meet, and the content is put, at the first marker that belongs to the body or the
partial, if the tags at boundaries of blocks stand on one side of it.

## Main definitions

* `Engine.executeBranch`: the execution of a branch that may be missing.
* `Engine.DividesAt`: what becomes of a body whose branches meet at a position.
* `Engine.PlacesAt`: what becomes of a partial whose content is put at a position.
-/

namespace Stencil

open Node

namespace Engine

variable {σ : Type} [PartialStore σ] {engine : Engine σ}

/-! ## Branches -/

/-- Executes a branch on a context. A branch that is not there renders nothing. -/
def executeBranch (engine : Engine σ) (limit : Nat) (branch : Option (List Node))
    (context : Value) : Option (Outcome σ) :=
  match branch with
  | some nodes => engine.execute limit nodes context
  | none => some ⟨.ok "", context, engine.partials, []⟩

theorem run_renderBranch (engine : Engine σ) (limit : Nat) (branch : Option (List Node))
    (context : Value) :
    (Helper.renderBranch branch context).run (engine.environment.execute limit) engine.partials =
      engine.executeBranch limit branch context := by
  cases branch with
  | none => rfl
  | some nodes => exact Plan.run_renderHere _ nodes context _

section

variable {nodes body : List Node} {name source : String} {span : Span} {depth : Nat}
  {arguments : String} {context : Value}
  (hnodes : segments nodes = [⟨.helper name source span depth (some arguments), body⟩])

include hnodes

/-- A condition decides on a branch, which is executed on the context itself. -/
theorem execute_conditional (hname : Table.get? engine.helpers name = some Helper.conditional)
    {holds : Bool} (hholds : Condition.evaluate arguments.toList context = .ok holds)
    (limit : Nat) :
    engine.execute (limit + 1) nodes context =
      engine.executeBranch limit
        (if holds then some (Helper.branches body).1 else (Helper.branches body).2) context := by
  rw [execute, Environment.execute_helper hnodes hname]
  simp only [Helper.conditional, Node.arguments?, hholds]
  exact engine.run_renderBranch limit _ context

/-- Without entries a loop executes its second branch on the context itself. -/
theorem execute_loop_of_entries_eq_nil
    (hname : Table.get? engine.helpers name = some Helper.loop) {header : LoopHeader}
    (hheader : LoopHeader.read arguments.toList = .ok header)
    (hentries : ∀ list, Operand.lookup? header.list context = some list → list.entries = [])
    (limit : Nat) :
    engine.execute (limit + 1) nodes context =
      engine.executeBranch limit (Helper.branches body).2 context := by
  have hnone : ((Operand.lookup? header.list context).map Value.entries).getD [] = [] := by
    cases hlookup : Operand.lookup? header.list context with
    | none => rfl
    | some list => exact hentries list hlookup
  rw [execute, Environment.execute_helper hnodes hname]
  simp only [Helper.loop, Node.arguments?, hheader, hnone]
  exact engine.run_renderBranch limit _ context

/-- A true value is in scope for the first branch of `with`. -/
theorem execute_inScope_of_truthy
    (hname : Table.get? engine.helpers name = some Helper.inScope) {v : Value}
    (hv : Operand.lookup? arguments.toList context = some v) (htruthy : v.isTruthy)
    (limit : Nat) :
    engine.execute (limit + 1) nodes context =
      (engine.execute limit (Helper.branches body).1 (Helper.scopeOf v context)).map
        (Outcome.leaving context) := by
  have htarget : (Operand.lookup? arguments.toList context).filter Value.isTruthy = some v :=
    Option.filter_eq_some_iff.2 ⟨hv, htruthy⟩
  rw [execute, Environment.execute_helper hnodes hname]
  simp only [Helper.inScope, Node.arguments?, htarget]
  exact Plan.run_renderApart _ _ _ context _

/-- Without a true value `with` executes its second branch on the context itself, or if there is
none the first one on a copy. -/
theorem execute_inScope_of_falsy
    (hname : Table.get? engine.helpers name = some Helper.inScope)
    (hfalsy : ∀ v, Operand.lookup? arguments.toList context = some v → v.isTruthy = false)
    (limit : Nat) :
    engine.execute (limit + 1) nodes context =
      (Helper.branches body).2.elim
        ((engine.execute limit (Helper.branches body).1 context).map (Outcome.leaving context))
        fun second => engine.execute limit second context := by
  have htarget : (Operand.lookup? arguments.toList context).filter Value.isTruthy = none := by
    rw [Option.filter_eq_none_iff]
    exact fun v hv => by simp [hfalsy v hv]
  rw [execute, Environment.execute_helper hnodes hname]
  simp only [Helper.inScope, Node.arguments?, htarget]
  cases (Helper.branches body).2 with
  | none => exact Plan.run_renderApart _ _ context context _
  | some second => exact Plan.run_renderHere _ second context _

end

/-! ## Inclusions -/

section

variable {tag content : List Node} {name source : String} {span : Span} {depth : Nat}
  {arguments : Option String} {context scope : Value}
  (htag : segments tag = [⟨.inclusion name source span depth arguments, content⟩])
  (hscope : Environment.inclusionScope context arguments = .ok scope)

include htag hscope

/-- An inclusion executes the partial with the content in it, on a scope of its own. -/
theorem execute_inclusion {nodes : List Node} {store : σ}
    (hfetch : PartialStore.fetch engine.dialect name engine.partials = (some (.ok nodes), store))
    (limit : Nat) :
    engine.execute (limit + 1) tag context =
      (engine.environment.execute limit (spliceContent nodes content) scope store).map
        (Outcome.leaving context) := by
  have hfetch' : engine.environment.fetch name engine.partials = (some (.ok nodes), store) := hfetch
  rw [execute, Environment.execute_of_segments_eq htag]
  simp only [Environment.runSegment, Environment.runInclusion, Node.arguments?, hscope, hfetch']

/-- The content of an unknown partial is executed in its place. -/
theorem execute_inclusion_of_unknown {store : σ}
    (hfetch : PartialStore.fetch engine.dialect name engine.partials = (none, store))
    (limit : Nat) :
    engine.execute (limit + 1) tag context =
      (engine.environment.execute limit content scope store).map fun outcome =>
        (outcome.leaving context).report [.partialNotFound name span] := by
  have hfetch' : engine.environment.fetch name engine.partials = (none, store) := hfetch
  rw [execute, Environment.execute_of_segments_eq htag]
  simp only [Environment.runSegment, Environment.runInclusion, Node.arguments?, hscope, hfetch']

end

/-! ## Own markers -/

/-- Whether the built-in helpers take what stands in a body before a position for one branch, and
what stands behind it for the other. -/
structure DividesAt (engine : Engine σ) (body : List Node) (i : Nat) : Prop where
  /-- A condition executes one of the two on the context itself. -/
  conditional : ∀ name source span depth arguments nodes limit context holds,
    Table.get? engine.helpers name = some Helper.conditional →
    segments nodes = [⟨.helper name source span depth (some arguments), body⟩] →
    Condition.evaluate arguments.toList context = .ok holds →
      engine.execute (limit + 1) nodes context =
        engine.execute limit (if holds then body.take i else body.drop (i + 1)) context
  /-- A loop over entries executes the first on each pass. -/
  passes : ∀ name source span depth arguments nodes limit context header list,
    Table.get? engine.helpers name = some Helper.loop →
    segments nodes = [⟨.helper name source span depth (some arguments), body⟩] →
    LoopHeader.read arguments.toList = .ok header →
    Operand.lookup? header.list context = some list → list.entries ≠ [] →
      engine.execute (limit + 1) nodes context =
        (Executor.onPasses (engine.environment.execute limit) header (body.take i) list.entries 0
          context engine.partials).map (Outcome.leaving context)
  /-- A loop executes the second if the list is missing, is no list or has no entries. -/
  noEntries : ∀ name source span depth arguments nodes limit context header,
    Table.get? engine.helpers name = some Helper.loop →
    segments nodes = [⟨.helper name source span depth (some arguments), body⟩] →
    LoopHeader.read arguments.toList = .ok header →
    (∀ list, Operand.lookup? header.list context = some list → list.entries = []) →
      engine.execute (limit + 1) nodes context = engine.execute limit (body.drop (i + 1)) context
  /-- With a true value in scope `with` executes the first. -/
  inScope : ∀ name source span depth arguments nodes limit context v,
    Table.get? engine.helpers name = some Helper.inScope →
    segments nodes = [⟨.helper name source span depth (some arguments), body⟩] →
    Operand.lookup? arguments.toList context = some v → v.isTruthy →
      engine.execute (limit + 1) nodes context =
        (engine.execute limit (body.take i) (Helper.scopeOf v context)).map
          (Outcome.leaving context)
  /-- Without a true value `with` executes the second on the context itself. -/
  noScope : ∀ name source span depth arguments nodes limit context,
    Table.get? engine.helpers name = some Helper.inScope →
    segments nodes = [⟨.helper name source span depth (some arguments), body⟩] →
    (∀ v, Operand.lookup? arguments.toList context = some v → v.isTruthy = false) →
      engine.execute (limit + 1) nodes context = engine.execute limit (body.drop (i + 1)) context

/-- Whether an inclusion of a partial executes the content of the tag in the place of the node at a
position. -/
def PlacesAt (engine : Engine σ) (nodes : List Node) (i : Nat) : Prop :=
  ∀ name source span depth arguments tag content limit context scope store,
    segments tag = [⟨.inclusion name source span depth arguments, content⟩] →
    Environment.inclusionScope context arguments = .ok scope →
    PartialStore.fetch engine.dialect name engine.partials = (some (.ok nodes), store) →
      engine.execute (limit + 1) tag context =
        (engine.environment.execute limit (nodes.take i ++ content ++ nodes.drop (i + 1)) scope
          store).map (Outcome.leaving context)

section

variable {nodes body : List Node} {i : Nat}

theorem dividesAt_of_branches
    (h : Helper.branches body = (body.take i, some (body.drop (i + 1)))) :
    engine.DividesAt body i where
  conditional name source span depth arguments nodes limit context holds hhelper hnodes hholds := by
    rw [execute_conditional hnodes hhelper hholds, h]
    cases holds <;> rfl
  passes name source span depth arguments nodes limit context header list hhelper hnodes hheader
      hlist hentries := by
    rw [execute_passes hnodes hhelper hheader hlist hentries, h]
  noEntries name source span depth arguments nodes limit context header hhelper hnodes hheader
      hentries := by
    rw [execute_loop_of_entries_eq_nil hnodes hhelper hheader hentries, h]
    rfl
  inScope name source span depth arguments nodes limit context v hhelper hnodes hv htruthy := by
    rw [execute_inScope_of_truthy hnodes hhelper hv htruthy, h]
  noScope name source span depth arguments nodes limit context hhelper hnodes hfalsy := by
    rw [execute_inScope_of_falsy hnodes hhelper hfalsy, h]
    rfl

theorem placesAt_of_splitAtMarker
    (h : splitAtMarker? nodes contentMarker = some (nodes.take i, nodes.drop (i + 1))) :
    engine.PlacesAt nodes i := by
  intro name source span depth arguments tag content limit context scope store htag hscope hfetch
  rw [execute_inclusion htag hscope hfetch, spliceContent, h]

end

/-- The first marker that belongs to a list is found if and only if it is exposed. Then `if`,
`each`, `for` and `with` divide a body there, and an inclusion places its content there. -/
theorem divides_of_firstOwnMarker (engine : Engine σ) {word : String} {nodes : List Node} {i : Nat}
    (h : FirstOwnMarker word nodes i) :
    (markerIndex? nodes word = some i ↔ Exposed nodes i) ∧
      (Exposed nodes i →
        (word = Helper.elseMarker → engine.DividesAt nodes i) ∧
        (word = contentMarker → engine.PlacesAt nodes i)) := by
  refine ⟨h.markerIndex?_eq_some_iff, fun hexposed => ?_⟩
  have hsplit : splitAtMarker? nodes word = some (nodes.take i, nodes.drop (i + 1)) := by
    rw [splitAtMarker?, h.markerIndex?_eq_some_iff.2 hexposed]
    rfl
  constructor
  · rintro rfl
    refine dividesAt_of_branches ?_
    rw [Helper.branches, hsplit]
  · rintro rfl
    exact placesAt_of_splitAtMarker hsplit

/-- A body with an inclusion and a nested block before its own marker. -/
theorem divides_of_firstOwnMarker_behind_block :
    let engine : Engine Sources := Engine.new { delimiters := ⟨"[", "]"⟩ }
    let inclusion : Node := .inclusion "p" "[> p]" ⟨7, 12⟩ 0 none
    let marker (start : Nat) : Node := .interpolation "else" "[else]" ⟨start, start + 6⟩ none
    let body : List Node := [inclusion, .helper "if" "[#if a]" ⟨12, 19⟩ 1 (some "a"), .text "x",
      marker 20, .text "y", .close "if" "[/if]" ⟨27, 32⟩ 1, marker 32, .text "z"]
    let tag : Node := .helper "if" "[#if c]" ⟨0, 7⟩ 0 (some "c")
    let nodes := tag :: (body ++ [.close "if" "[/if]" ⟨39, 44⟩ 0])
    let context (holds : Bool) := Value.object [("c", .bool holds)]
    engine.parse "[#if c][> p][#if a]x[else]y[/if][else]z[/if]" = .ok nodes ∧
      FirstOwnMarker "else" body 6 ∧ Exposed body 6 ∧ markerIndex? body "else" = some 6 ∧
      (engine.execute 4 nodes (context true)).map (·.result.toOption) = some (some "y") ∧
      (engine.execute 4 nodes (context false)).map (·.result.toOption) = some (some "z") := by
  intro engine inclusion marker body tag nodes context
  have hparse : engine.parse "[#if c][> p][#if a]x[else]y[/if][else]z[/if]" = .ok nodes := by
    decide +kernel
  have hmarker : FirstOwnMarker "else" body 6 := by decide +kernel
  have hexposed : Exposed body 6 := by decide +kernel
  have hnodes : segments nodes = [⟨tag, body⟩] := rfl
  have hholds (holds : Bool) : Condition.evaluate "c".toList (context holds) = .ok holds := by
    cases holds <;> rfl
  obtain ⟨hfound, hdivides⟩ := divides_of_firstOwnMarker engine hmarker
  have hrun (holds : Bool) := ((hdivides hexposed).1 rfl).conditional _ _ _ _ _ nodes 3 _ _ rfl
    hnodes (hholds holds)
  refine ⟨hparse, hmarker, hexposed, hfound.2 hexposed, ?_, ?_⟩
  · rw [hrun true]
    decide
  · rw [hrun false]
    decide

end Engine

/-- A marker between two nested blocks is not found. -/
theorem markerIndex?_between_blocks :
    let template := "[#if c][#if a]x[/if][else][#if b]y[/if][/if]"
    let body : List Node := [.helper "if" "[#if a]" ⟨7, 14⟩ 1 (some "a"), .text "x",
      .close "if" "[/if]" ⟨15, 20⟩ 1, .interpolation "else" "[else]" ⟨20, 26⟩ none,
      .helper "if" "[#if b]" ⟨26, 33⟩ 1 (some "b"), .text "y", .close "if" "[/if]" ⟨34, 39⟩ 1]
    (Template.parse { delimiters := ⟨"[", "]"⟩ } template).map (bodyAt · 0) = .ok body ∧
      FirstOwnMarker "else" body 3 ∧ markerIndex? body "else" = none := by
  decide +kernel

end Stencil
