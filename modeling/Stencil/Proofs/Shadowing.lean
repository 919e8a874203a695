import Stencil.Proofs.Branches
import Stencil.Proofs.Words

/-!
# Shadowing

Assignments, the bindings of an inclusion, the passes of a loop and `with` build their scopes in
different ways. In each of them the bound names shadow the context and nothing else does: a path
that starts with a bound name leads on from what is bound to it, even where that leads nowhere, and
every other path leads where it leads in the context.

The scope of a pass is built from the one that the pass before it has left, where assignments of the
body may have bound other names.

## Main definitions

* `Operand.LeadsThrough`: the name that a path starts with.
* `Value.Shadows`: whether the names that are bound in a scope, and only they, shadow a context.
* `Assignment.Mode.bound?`, `LoopHeader.bound?`: what assignments and a pass of a loop bind.
* `Engine.BuildsShadows`: whether tags execute their bodies on scopes that shadow a context.
-/

namespace Stencil

/-! ## Values below well formed ones -/

theorem Value.WellFormed.child? {v below : Value} (h : v.WellFormed) {segment : String}
    (hbelow : v.child? segment = some below) : below.WellFormed := by
  cases v with
  | array items =>
    obtain ⟨i, -, hi⟩ := Option.bind_eq_some_iff.1 hbelow
    exact wellFormed_array_iff.1 h below (List.mem_of_getElem? hi)
  | object fields => exact h.of_get? hbelow
  | null | bool | number | string => contradiction

theorem Value.WellFormed.walk {v below : Value} (h : v.WellFormed) {segments : List String}
    (hbelow : v.walk segments = some below) : below.WellFormed := by
  induction segments generalizing v with
  | nil => exact Option.some.inj hbelow ▸ h
  | cons segment rest ih =>
    obtain ⟨next, hnext, hrest⟩ := Option.bind_eq_some_iff.1 hbelow
    exact ih (h.child? hnext) hrest

namespace Operand

variable {s : List Char} {name : String} {rest : List String}

/-- Whether a text is a path that starts with a name and goes on along other segments. -/
def LeadsThrough (s : List Char) (name : String) (rest : List String) : Prop :=
  (∀ v, read s ≠ .literal v) ∧ Path.segments s = name :: rest

/-- A path leads from the child with the name of its first segment along the others. -/
theorem lookup?_of_leadsThrough (h : LeadsThrough s name rest) (context : Value) :
    lookup? s context = (context.child? name).bind fun below => below.walk rest := by
  obtain ⟨hpath, hsegments⟩ := h
  rcases read_cases s with ⟨v, hread, -⟩ | hread
  · exact absurd hread (hpath v)
  · rw [lookup?, hread, value?, Value.resolve?, Path.segments_trim, hsegments]
    rfl

theorem wellFormed_of_lookup? {context v : Value} (h : context.WellFormed)
    (hv : lookup? s context = some v) : v.WellFormed := by
  rcases read_cases s with ⟨v', hread, hv'⟩ | hread
  · rw [lookup?, hread] at hv
    exact Option.some.inj hv ▸ hv'
  · rw [lookup?, hread, value?, Value.resolve?] at hv
    split at hv
    · contradiction
    · exact h.walk hv

end Operand

open Operand (LeadsThrough)

/-! ## Scopes and what is bound in them -/

/-- Whether a scope shadows a context by the names that are bound in it: a path that starts with one
of them leads on from what is bound to the name, and any other path leads where it leads in the
context. -/
def Value.Shadows (scope context : Value) (bound? : String → Option Value) : Prop :=
  ∀ s name rest, LeadsThrough s name rest →
    Operand.lookup? s scope =
      match bound? name with
      | some v => v.walk rest
      | none => Operand.lookup? s context

theorem Value.shadows_of_get? {fields fields' : Table Value} {bound? : String → Option Value}
    (h : ∀ name, Table.get? fields' name = (bound? name).or (Table.get? fields name)) :
    (object fields').Shadows (object fields) bound? := by
  intro s name rest hpath
  rw [Operand.lookup?_of_leadsThrough hpath, Operand.lookup?_of_leadsThrough hpath, child?, child?,
    h]
  cases bound? name <;> rfl

namespace Assignment

/-- What assignments bind a name to on top of a context. When bound names are bound anew the last
value counts, otherwise the first one, for names that the context does not bind. -/
def Mode.bound? (mode : Mode) (context : Value) (pairs : List (String × Value)) (name : String) :
    Option Value :=
  match mode with
  | overwrite => Table.get? pairs.reverse name
  | complete => if Table.contains context.bindings name then none else Table.get? pairs name

/-- Assignments shadow an object by exactly what they bind. -/
theorem Assigned.shadows {mode : Mode} {pairs : List (String × Value)} {fields : Table Value}
    {after : Value} (h : Assigned mode pairs (.object fields) after) :
    after.Shadows (.object fields) (mode.bound? (.object fields) pairs) := by
  obtain ⟨fields', rfl⟩ := h.exists_eq_object
  refine Value.shadows_of_get? fun name => (h.get?_eq name).trans ?_
  cases mode with
  | overwrite => rfl
  | complete =>
    cases hname : Table.get? fields name <;>
      simp [Mode.bound?, Value.bindings, Table.contains, hname]

end Assignment

namespace Value

/-- Names that are bound one after the other shadow an object with their last values. -/
theorem shadows_bindAll (fields : Table Value) (pairs : List (String × Value)) :
    ((object fields).bindAll pairs).Shadows (object fields) (Table.get? pairs.reverse) :=
  (Assignment.assigned_bind .overwrite pairs (object fields)).shadows

/-- The fields of an object in scope shadow the context. -/
theorem shadows_scopeOf_object {fields target : Table Value}
    (htarget : (Table.keys target).Nodup) :
    (Helper.scopeOf (object target) (object fields)).Shadows (object fields)
      (Table.get? target) := by
  rw [← funext (Table.get?_reverse htarget)]
  exact shadows_bindAll fields target

/-- Any other value in scope shadows the name of the item of a loop. -/
theorem shadows_scopeOf_of_ne_object {fields : Table Value} {v : Value}
    (h : ∀ target, v ≠ object target) :
    (Helper.scopeOf v (object fields)).Shadows (object fields)
      (Table.get? [(LoopHeader.defaultItem, v)]) := by
  have hscope : Helper.scopeOf v (object fields) =
      (object fields).bindAll [(LoopHeader.defaultItem, v)] := by
    cases v <;> simp_all [Helper.scopeOf]
  rw [hscope]
  exact shadows_bindAll fields _

end Value

/-! ## Passes -/

namespace LoopHeader

/-- What a pass binds a name to: among names that coincide the index comes first, then the key. -/
def bound? (header : LoopHeader) (key : String) (item : Value) (index : Nat) (name : String) :
    Option Value :=
  if name = header.index then some (.number (.int index))
  else if name = header.key then some (.string key)
  else if name = header.item then some item
  else none

/-- The names that a pass binds. -/
def names (header : LoopHeader) : List String :=
  [header.item, header.key, header.index]

theorem bound?_eq_none_iff {header : LoopHeader} {key : String} {item : Value} {index : Nat}
    {name : String} : header.bound? key item index name = none ↔ name ∉ header.names := by
  simp only [bound?, names]
  grind

theorem get?_reverse_passBindings (header : LoopHeader) (key : String) (item : Value) (index : Nat)
    (name : String) :
    Table.get? (Helper.passBindings header key item index).reverse name =
      header.bound? key item index name := by
  simp [Helper.passBindings, bound?, Table.get?_cons]

/-- A pass shadows the scope that it is built from. -/
theorem shadows_scope (header : LoopHeader) (fields : Table Value) (key : String) (item : Value)
    (index : Nat) :
    (header.scope (.object fields) key item index).Shadows (.object fields)
      (header.bound? key item index) := by
  rw [← funext (header.get?_reverse_passBindings key item index)]
  exact Value.shadows_bindAll fields _

end LoopHeader

namespace Executor

variable {σ : Type} {executor : Executor σ} {header : LoopHeader} {nodes : List Node}

/-- Some passes are followed by the others on what they have left. -/
theorem onPasses_append (first second : List (String × Value)) (index : Nat) (scope : Value)
    (store : σ) :
    onPasses executor header nodes (first ++ second) index scope store =
      (onPasses executor header nodes first index scope store).bind fun outcome =>
        outcome.andThen (onPasses executor header nodes second (index + first.length)) := by
  induction first generalizing index scope store with
  | nil => simp only [onPasses, List.nil_append, Option.bind_some, Outcome.andThen_nothing,
      List.length_nil, Nat.add_zero]
  | cons entry rest ih =>
    obtain ⟨key, item⟩ := entry
    rw [List.cons_append, onPasses, onPasses]
    cases executor nodes (header.scope scope key item index) store with
    | none => rfl
    | some outcome =>
      have hindex : index + (rest.length + 1) = index + 1 + rest.length := by omega
      rw [Option.bind_some, Option.bind_some, Outcome.andThen_assoc, List.length_cons, hindex]
      exact congrArg outcome.andThen (funext₂ fun scope store => ih (index + 1) scope store)

/-- Behind some passes the next one is made on what they have left, and then the others. -/
theorem onPasses_of_getElem? {entries : List (String × Value)} {index : Nat} {key : String}
    {item context : Value} {store : σ} {earlier : Outcome σ}
    (hentry : entries[index]? = some (key, item))
    (hearlier : onPasses executor header nodes (entries.take index) 0 context store =
      some earlier) :
    onPasses executor header nodes entries 0 context store =
      earlier.andThen fun _ store =>
        (executor nodes (header.scope earlier.context key item index) store).bind fun outcome =>
          outcome.andThen
            (onPasses executor header nodes (entries.drop (index + 1)) (index + 1)) := by
  obtain ⟨hindex, hget⟩ := List.getElem?_eq_some_iff.1 hentry
  have hsplit : entries = entries.take index ++ (key, item) :: entries.drop (index + 1) := by
    rw [← hget, ← List.drop_eq_getElem_cons, List.take_append_drop]
  have hlength : 0 + (entries.take index).length = index := by
    rw [List.length_take]
    omega
  conv_lhs => rw [hsplit, onPasses_append, hearlier, Option.bind_some, hlength]
  rfl

end Executor

namespace Engine

open Assignment (Mode Denotes)

variable {σ : Type} [PartialStore σ] {engine : Engine σ}

/-- Passes change their context at most in the names that they bind and those that the nodes assign
to, however they end. -/
theorem frame_of_onPasses (hhelpers : engine.Ordinary) {limit : Nat} {header : LoopHeader}
    {nodes : List Node} {entries : List (String × Value)} {index : Nat} {context : Value}
    {store : σ} {outcome : Outcome σ}
    (h : Executor.onPasses (engine.environment.execute limit) header nodes entries index context
      store = some outcome) :
    Value.Frame (header.names ++ nodes.flatMap Node.assigned) context outcome.context := by
  induction entries generalizing index context store outcome with
  | nil =>
    obtain rfl := Option.some.inj h
    exact .refl _ context
  | cons entry rest ih =>
    obtain ⟨key, item⟩ := entry
    obtain ⟨first, hfirst, hrest⟩ := Option.bind_eq_some_iff.1 h
    have hbound : Value.Frame header.names context (header.scope context key item index) :=
      .bindAll context _
    have hassigned : Value.Frame (nodes.flatMap Node.assigned)
        (header.scope context key item index) first.context := frame_of_environment hhelpers hfirst
    have hpass : Value.Frame (header.names ++ nodes.flatMap Node.assigned) context first.context :=
      (hbound.mono (List.subset_append_left _ _)).trans
        (hassigned.mono (List.subset_append_right _ _))
    unfold Outcome.andThen at hrest
    split at hrest
    · obtain rfl := Option.some.inj hrest
      exact hpass
    · obtain ⟨later, hlater, rfl⟩ := Option.map_eq_some_iff.1 hrest
      have hrest : Value.Frame _ first.context later.context := ih hlater
      exact hpass.trans hrest

/-! ## Tags -/

/-- Whether the scopes that tags build from a context shadow it by exactly what the tags bind. -/
structure BuildsShadows (engine : Engine σ) (context : Value) : Prop where
  /-- Assignments without a body bind names in the context itself. -/
  bare : ∀ (mode : Mode) source span depth arguments pairs nodes limit,
    Node.segments nodes = [⟨mode.tag source span depth arguments, []⟩] →
    List.Forall₂ (Denotes context) (Assignment.pieces arguments) pairs →
      ∃ after, after.Shadows context (mode.bound? context pairs) ∧
        engine.execute (limit + 1) nodes context = some ⟨.ok "", after, engine.partials, []⟩
  /-- Assignments with a body bind names in the scope of the body. -/
  block : ∀ (mode : Mode) source span depth arguments pairs body nodes limit,
    Node.segments nodes = [⟨mode.tag source span depth arguments, body⟩] → body ≠ [] →
    List.Forall₂ (Denotes context) (Assignment.pieces arguments) pairs →
      ∃ scope, scope.Shadows context (mode.bound? context pairs) ∧
        engine.execute (limit + 1) nodes context =
          (engine.execute limit body scope).map (Outcome.leaving context)
  /-- An inclusion binds names in the scope of the partial. -/
  inclusion : ∀ name source span depth arguments pairs content nodes partialNodes store limit,
    Node.segments nodes = [⟨.inclusion name source span depth (some arguments), content⟩] →
    List.Forall₂ (Denotes context) (Assignment.pieces arguments) pairs →
    PartialStore.fetch engine.dialect name engine.partials = (some (.ok partialNodes), store) →
      ∃ scope, scope.Shadows context (Mode.overwrite.bound? context pairs) ∧
        engine.execute (limit + 1) nodes context =
          (engine.environment.execute limit (spliceContent partialNodes content) scope store).map
            (Outcome.leaving context)
  /-- So does the inclusion of an unknown partial, with the content in the place of the partial. -/
  unknown : ∀ name source span depth arguments pairs content nodes store limit,
    Node.segments nodes = [⟨.inclusion name source span depth (some arguments), content⟩] →
    List.Forall₂ (Denotes context) (Assignment.pieces arguments) pairs →
    PartialStore.fetch engine.dialect name engine.partials = (none, store) →
      ∃ scope, scope.Shadows context (Mode.overwrite.bound? context pairs) ∧
        engine.execute (limit + 1) nodes context =
          (engine.environment.execute limit content scope store).map fun outcome =>
            (outcome.leaving context).report [.partialNotFound name span]
  /-- An object in scope by `with` binds its keys to its fields. -/
  fields : ∀ name source span depth arguments fields body nodes limit,
    Table.get? engine.helpers name = some Helper.inScope →
    Node.segments nodes = [⟨.helper name source span depth (some arguments), body⟩] →
    Operand.lookup? arguments.toList context = some (.object fields) →
      ∃ scope, scope.Shadows context (Table.get? fields) ∧
        engine.execute (limit + 1) nodes context =
          (engine.execute limit (Helper.branches body).1 scope).map (Outcome.leaving context)
  /-- Any other true value in scope by `with` is bound to the name of the item of a loop. -/
  item : ∀ name source span depth arguments v body nodes limit,
    Table.get? engine.helpers name = some Helper.inScope →
    Node.segments nodes = [⟨.helper name source span depth (some arguments), body⟩] →
    Operand.lookup? arguments.toList context = some v → v.isTruthy →
    (∀ fields, v ≠ .object fields) →
      ∃ scope, scope.Shadows context (Table.get? [(LoopHeader.defaultItem, v)]) ∧
        engine.execute (limit + 1) nodes context =
          (engine.execute limit (Helper.branches body).1 scope).map (Outcome.leaving context)
  /-- A pass of a loop binds its names on top of what the passes before it have left. Unless there
  are helpers of other kinds, this is the context with other values at most for the names that the
  passes bind and that the body assigns to. -/
  pass : ∀ name source span depth arguments body nodes limit header list index key item earlier,
    Table.get? engine.helpers name = some Helper.loop →
    Node.segments nodes = [⟨.helper name source span depth (some arguments), body⟩] →
    LoopHeader.read arguments.toList = .ok header →
    Operand.lookup? header.list context = some list → list.entries[index]? = some (key, item) →
    Executor.onPasses (engine.environment.execute limit) header (Helper.branches body).1
        (list.entries.take index) 0 context engine.partials = some earlier →
      ∃ scope,
        (∀ fields, earlier.context = .object fields →
          scope.Shadows earlier.context (header.bound? key item index)) ∧
        (engine.Ordinary → (∃ fields, earlier.context = .object fields) ∧
          ∀ s name rest, LeadsThrough s name rest → header.bound? key item index name = none →
            name ∉ (Helper.branches body).1.flatMap Node.assigned →
              Operand.lookup? s scope = Operand.lookup? s context) ∧
        engine.execute (limit + 1) nodes context =
          (earlier.andThen fun _ store =>
            (engine.environment.execute limit (Helper.branches body).1 scope store).bind
              fun outcome => outcome.andThen (Executor.onPasses (engine.environment.execute limit)
                header (Helper.branches body).1 (list.entries.drop (index + 1)) (index + 1))).map
            (Outcome.leaving context)

/-- Every tag that builds a scope from an object executes its body, or the partial, on a scope that
shadows the object by exactly what the tag binds. -/
theorem buildsShadows_object
    (hhelpers : ∀ mode : Mode, Table.get? engine.helpers mode.name =
      some (Helper.assignment mode.bind)) {bindings : Table Value}
    (hcontext : (Value.object bindings).WellFormed) : engine.BuildsShadows (.object bindings) where
  bare mode source span depth arguments pairs nodes limit hnodes hpairs := by
    have hmakes := makes_of_read hhelpers (Assignment.read_of_denotes hpairs)
    obtain ⟨after, hafter, hrun⟩ := hmakes.bare mode source span depth nodes limit hnodes
    exact ⟨after, hafter.shadows, hrun⟩
  block mode source span depth arguments pairs body nodes limit hnodes hbody hpairs := by
    have hmakes := makes_of_read hhelpers (Assignment.read_of_denotes hpairs)
    obtain ⟨scope, hscope, hrun⟩ :=
      hmakes.block mode source span depth body nodes limit hbody hnodes
    exact ⟨scope, hscope.shadows, hrun⟩
  inclusion name source span depth arguments pairs content nodes partialNodes store limit hnodes
      hpairs hfetch := by
    have hscope := Environment.inclusionScope_of_read (Assignment.read_of_denotes hpairs)
    exact ⟨_, Value.shadows_bindAll bindings pairs, execute_inclusion hnodes hscope hfetch limit⟩
  unknown name source span depth arguments pairs content nodes store limit hnodes hpairs
      hfetch := by
    have hscope := Environment.inclusionScope_of_read (Assignment.read_of_denotes hpairs)
    exact ⟨_, Value.shadows_bindAll bindings pairs,
      execute_inclusion_of_unknown hnodes hscope hfetch limit⟩
  fields name source span depth arguments fields body nodes limit hhelper hnodes hfields := by
    have hkeys := (Value.wellFormed_object_iff.1 (Operand.wellFormed_of_lookup? hcontext hfields)).1
    exact ⟨_, Value.shadows_scopeOf_object hkeys,
      execute_inScope_of_truthy hnodes hhelper hfields rfl limit⟩
  item name source span depth arguments v body nodes limit hhelper hnodes hv htruthy hobject :=
    ⟨_, Value.shadows_scopeOf_of_ne_object hobject,
      execute_inScope_of_truthy hnodes hhelper hv htruthy limit⟩
  pass name source span depth arguments body nodes limit header list index key item earlier hhelper
      hnodes hheader hlist hentry hearlier := by
    have hentries : list.entries ≠ [] := List.ne_nil_of_mem (List.mem_of_getElem? hentry)
    refine ⟨header.scope earlier.context key item index, fun fields hleft => ?_,
      fun hordinary => ?_, ?_⟩
    · rw [hleft]
      exact header.shadows_scope fields key item index
    · obtain ⟨fields, hleft, hgrows⟩ := frame_of_onPasses hordinary hearlier
      refine ⟨⟨fields, hleft⟩, fun s first rest hpath hunbound hunassigned => ?_⟩
      have hsame : Table.get? fields first = Table.get? bindings first := hgrows.get?_eq first <| by
        rw [List.mem_append, not_or]
        exact ⟨LoopHeader.bound?_eq_none_iff.1 hunbound, hunassigned⟩
      rw [hleft, header.shadows_scope fields key item index s first rest hpath, hunbound]
      dsimp only
      rw [Operand.lookup?_of_leadsThrough hpath, Operand.lookup?_of_leadsThrough hpath,
        Value.child?, Value.child?, hsame]
    · rw [execute_passes hnodes hhelper hheader hlist hentries,
        Executor.onPasses_of_getElem? hentry hearlier]

/-- The second pass of a loop that has one name for its item and its key, with a body that makes an
assignment in the scope that all passes share. -/
theorem buildsShadows_object_second_pass :
    let engine : Engine Sources := Engine.new { delimiters := ⟨"[", "]"⟩ }
    let list := Value.array [.string "a", .string "b"]
    let context := Value.object [("x", .object [("y", .bool true)]), ("xs", list)]
    let header : LoopHeader := ⟨"xs".toList, "x", "x", "i"⟩
    let body : List Node := [.helper "set" "[#set z = x]" ⟨21, 33⟩ 1 (some "z = x"),
      .raw "z" "[{z}]" ⟨33, 38⟩]
    let tag : Node := .helper "each" "[#each xs as x, x, i]" ⟨0, 21⟩ 0 (some "xs as x, x, i")
    let nodes := tag :: (body ++ [.close "each" "[/each]" ⟨38, 45⟩ 0])
    let earlier : Outcome Sources := ⟨.ok "0", .object [("x", .string "0"), ("xs", list),
      ("i", .number (.int 0)), ("z", .string "0")], ⟨[]⟩, []⟩
    (∀ mode : Mode, Table.get? engine.helpers mode.name = some (Helper.assignment mode.bind)) ∧
      context.WellFormed ∧
      Executor.onPasses (engine.environment.execute 2) header (Helper.branches body).1
        (list.entries.take 1) 0 context engine.partials = some earlier ∧
      (engine.execute 3 nodes context).map (·.result.toOption) = some (some "01") ∧
      ∃ scope, Operand.lookup? "x".toList scope = some (.string "1") ∧
        Operand.lookup? "x.y".toList scope = none ∧
        Operand.lookup? "x.y".toList context = some (.bool true) ∧
        Operand.lookup? "z".toList scope = some (.string "0") ∧
        Operand.lookup? "xs[1]".toList scope = Operand.lookup? "xs[1]".toList context := by
  intro engine list context header body tag nodes earlier
  have hhelpers : ∀ mode : Mode,
      Table.get? engine.helpers mode.name = some (Helper.assignment mode.bind) := by
    intro mode
    cases mode <;> rfl
  have hcontext : context.WellFormed := by
    simp [context, list, Value.WellFormed, Value.fieldsWellFormed, Value.itemsWellFormed,
      Table.keys]
  have hearlier : Executor.onPasses (engine.environment.execute 2) header (Helper.branches body).1
      (list.entries.take 1) 0 context engine.partials = some earlier := rfl
  have hrun : (engine.execute 3 nodes context).map (·.result.toOption) = some (some "01") := by
    decide
  have hpath (s : List Char) (name : String) (rest : List String) (hread : Operand.read s = .path s)
      (hs : Path.segments s = name :: rest) : LeadsThrough s name rest :=
    ⟨fun _ hv => Operand.noConfusion (hread.symm.trans hv), hs⟩
  obtain ⟨scope, hshadows, hothers, -⟩ := (buildsShadows_object hhelpers hcontext).pass
    _ _ _ _ _ body nodes 2 header list 1 "1" (.string "b") earlier rfl rfl rfl rfl rfl hearlier
  refine ⟨hhelpers, hcontext, hearlier, hrun, scope, ?_, ?_, rfl, ?_, ?_⟩
  · exact hshadows _ rfl _ "x" [] (hpath _ _ _ rfl rfl)
  · exact hshadows _ rfl _ "x" ["y"] (hpath _ _ _ rfl rfl)
  · exact hshadows _ rfl _ "z" [] (hpath _ _ _ rfl rfl)
  · exact (hothers (onlyBuiltins_new _).ordinary).2 _ "xs" ["1"] (hpath _ _ _ rfl rfl) rfl
      (by decide)

end Engine

end Stencil
