import Mathlib.Data.List.Basic
import Mathlib.Tactic.Common
import Stencil.Engine.Basic
import Stencil.Proofs.Correspondence
import Stencil.Proofs.Words

/-!
# Data that nobody mentions

What a context binds to a name cannot be seen in an execution of nodes that do not mention the name,
if no partial mentions it either. Two executions in contexts that bind everything else alike stay
in step: what is bound on the way is bound in both, so that the contexts go on agreeing, even where
the name itself is bound by a loop or a `with`.

## Main definitions

* `Node.words`: the words that a node mentions.
* `Value.AgreeApart`: objects that bind everything alike but a name.
* `Correspondence.unmentioned`: two executions of nodes that do not mention a name.
-/

namespace Stencil

/-- The words that a node mentions: those of its key and of its arguments. -/
def Node.words (node : Node) : List String :=
  Path.segments (node.key?.getD "").toList ++ Path.segments (node.arguments?.getD "").toList

/-! ## Contexts that agree -/

/-- Whether two tables bind every string alike but one. -/
def Table.AgreeApart {α : Type} (name : String) (table table' : Table α) : Prop :=
  ∀ other, other ≠ name → get? table other = get? table' other

namespace Table.AgreeApart

variable {α : Type} {name : String} {table table' : Table α}

theorem insert (h : AgreeApart name table table') (key : String) (entry : α) :
    AgreeApart name (Table.insert table key entry) (Table.insert table' key entry) := by
  intro other hother
  rw [get?_insert, get?_insert, h other hother]

theorem insertNew (h : AgreeApart name table table') (key : String) (entry : α) :
    AgreeApart name (Table.insertNew table key entry) (Table.insertNew table' key entry) := by
  intro other hother
  rw [get?_insertNew, get?_insertNew, h other hother]
  by_cases hkey : other = key
  · rw [contains, contains, ← h key (hkey ▸ hother)]
  · simp [hkey]

theorem foldl {step : Table α → String × α → Table α}
    (hstep : ∀ table table' pair, AgreeApart name table table' →
      AgreeApart name (step table pair) (step table' pair))
    (h : AgreeApart name table table') (pairs : List (String × α)) :
    AgreeApart name (pairs.foldl step table) (pairs.foldl step table') := by
  induction pairs generalizing table table' with
  | nil => exact h
  | cons pair rest ih => exact ih (hstep _ _ pair h)

end Table.AgreeApart

/-- Whether two values are objects that bind every string alike but one. -/
def Value.AgreeApart (name : String) (context context' : Value) : Prop :=
  ∃ fields fields', context = object fields ∧ context' = object fields' ∧
    Table.AgreeApart name fields fields'

namespace Value.AgreeApart

variable {name : String} {context context' : Value}

theorem bindAll (h : AgreeApart name context context') (pairs : List (String × Value)) :
    AgreeApart name (context.bindAll pairs) (context'.bindAll pairs) := by
  obtain ⟨fields, fields', rfl, rfl, hagree⟩ := h
  exact ⟨_, _, rfl, rfl, .foldl (fun _ _ pair h => h.insert pair.1 pair.2) hagree pairs⟩

theorem bindMissing (h : AgreeApart name context context') (pairs : List (String × Value)) :
    AgreeApart name (context.bindMissing pairs) (context'.bindMissing pairs) := by
  obtain ⟨fields, fields', rfl, rfl, hagree⟩ := h
  exact ⟨_, _, rfl, rfl, .foldl (fun _ _ pair h => h.insertNew pair.1 pair.2) hagree pairs⟩

/-- Only the first segment of a path is looked up in the context itself. -/
theorem resolve?_eq (h : AgreeApart name context context') {path : List Char}
    (hpath : name ∉ Path.segments path) : context.resolve? path = context'.resolve? path := by
  obtain ⟨fields, fields', rfl, rfl, hagree⟩ := h
  unfold resolve?
  cases hsegments : Path.segments path with
  | nil => rfl
  | cons segment rest =>
    have hsegment : segment ≠ name := fun heq => hpath (by simp [hsegments, heq])
    simp only [walk, child?, hagree segment hsegment]

end Value.AgreeApart

/-! ## What is read from arguments -/

section

variable {α β ε : Type}

theorem exists_of_bind_eq_ok {x : Except ε α} {f : α → Except ε β} {b : β}
    (h : x >>= f = .ok b) : ∃ a, x = .ok a ∧ f a = .ok b := by
  cases x with
  | error e => contradiction
  | ok a => exact ⟨a, rfl, h⟩

theorem mapM_congr {f g : α → Except ε β} {xs : List α} (h : ∀ x ∈ xs, f x = g x) :
    xs.mapM f = xs.mapM g := by
  induction xs with
  | nil => rfl
  | cons x xs ih =>
    rw [List.mapM_cons, List.mapM_cons, h x List.mem_cons_self,
      ih fun y hy => h y (List.mem_cons_of_mem x hy)]

theorem exists_of_mem_of_mapM_eq_ok {f : α → Except ε β} {xs : List α} {ys : List β}
    (h : xs.mapM f = .ok ys) {y : β} (hy : y ∈ ys) : ∃ x ∈ xs, f x = .ok y := by
  induction xs generalizing ys with
  | nil =>
    obtain rfl := Except.ok.inj h
    contradiction
  | cons x xs ih =>
    rw [List.mapM_cons] at h
    obtain ⟨first, hfirst, hrest⟩ := exists_of_bind_eq_ok h
    obtain ⟨later, hlater, hys⟩ := exists_of_bind_eq_ok hrest
    obtain rfl := Except.ok.inj hys
    rcases List.mem_cons.1 hy with rfl | hy
    · exact ⟨x, List.mem_cons_self, hfirst⟩
    · obtain ⟨x', hmem, hx'⟩ := ih hlater hy
      exact ⟨x', List.mem_cons_of_mem _ hmem, hx'⟩

end

/-- The words of the path of an operand. -/
def Operand.words : Operand → List String
  | literal _ => []
  | path text => Path.segments text

def Test.words : Test → List String
  | value operand => operand.words
  | comparison left _ right => left.words ++ right.words

def Condition.words (condition : Condition) : List String :=
  condition.first.test.words ++ condition.rest.flatMap fun part => part.2.test.words

theorem Operand.words_read_subset (s : List Char) : (read s).words ⊆ Path.segments s := by
  rcases read_cases s with ⟨v, hread, -⟩ | hread
  · rw [hread]
    exact List.nil_subset _
  · rw [hread, words, Path.segments_trim]
    exact List.Subset.refl _

theorem Test.words_subset_of_ofTokens {tokens : List (List Char)} {test : Test}
    (h : ofTokens tokens = .ok test) : test.words ⊆ tokens.flatMap Path.segments := by
  unfold ofTokens at h
  split at h
  · contradiction
  · obtain rfl := Except.ok.inj h
    simpa [words] using Operand.words_read_subset _
  · next left operator right =>
    split at h
    · obtain rfl := Except.ok.inj h
      have hleft := Operand.words_read_subset left
      have hright := Operand.words_read_subset right
      simp only [words, List.flatMap_cons, List.flatMap_nil, List.append_nil]
      grind
    · contradiction
  · contradiction

theorem Clause.words_subset_of_ofTokens {tokens : List (List Char)} {clause : Clause}
    (h : ofTokens tokens = .ok clause) : clause.test.words ⊆ tokens.flatMap Path.segments := by
  obtain ⟨test, htest, hclause⟩ := exists_of_bind_eq_ok h
  obtain rfl := Except.ok.inj hclause
  intro word hword
  obtain ⟨token, htoken, hmem⟩ := List.mem_flatMap.1 (Test.words_subset_of_ofTokens htest hword)
  exact List.mem_flatMap.2 ⟨token, (List.dropWhile_sublist _).subset htoken, hmem⟩

namespace Condition

/-- The clauses of a condition hold only tokens of it. -/
theorem clauses_subset (tokens : List (List Char)) :
    (clauses tokens).1 ⊆ tokens ∧ ∀ part ∈ (clauses tokens).2, part.2 ⊆ tokens := by
  induction tokens with
  | nil => simp [clauses]
  | cons token rest ih =>
    unfold clauses
    dsimp only
    split <;> grind

/-- A condition mentions only words of its text. -/
theorem words_subset_of_read {s : List Char} {condition : Condition} (h : read s = .ok condition) :
    condition.words ⊆ Path.segments s := by
  obtain ⟨hleading, hlater⟩ := clauses_subset (tokens s)
  have hclause {part : List (List Char)} {clause : Clause} (hpart : part ⊆ tokens s)
      (hread : Clause.ofTokens part = .ok clause) : clause.test.words ⊆ Path.segments s := by
    intro word hword
    obtain ⟨token, htoken, hmem⟩ :=
      List.mem_flatMap.1 (Clause.words_subset_of_ofTokens hread hword)
    rw [← flatMap_segments_tokens]
    exact List.mem_flatMap.2 ⟨token, hpart htoken, hmem⟩
  obtain ⟨first, hfirst, hrest⟩ := exists_of_bind_eq_ok h
  obtain ⟨rest, hmap, hcondition⟩ := exists_of_bind_eq_ok hrest
  obtain rfl := Except.ok.inj hcondition
  refine List.append_subset.2 ⟨hclause hleading hfirst, fun word hword => ?_⟩
  obtain ⟨⟨connective, clause⟩, hmem, hword⟩ := List.mem_flatMap.1 hword
  obtain ⟨⟨connective', part⟩, hpart, hread⟩ := exists_of_mem_of_mapM_eq_ok hmap hmem
  obtain ⟨joined, hjoined, hpair⟩ := exists_of_bind_eq_ok hread
  obtain ⟨rfl, rfl⟩ := Prod.mk.inj (Except.ok.inj hpair)
  exact hclause (hlater _ hpart) hjoined hword

end Condition

/-! ## Reading in contexts that agree -/

section

variable {name : String} {context context' : Value}

theorem Operand.value?_eq (h : Value.AgreeApart name context context') {operand : Operand}
    (hoperand : name ∉ operand.words) : operand.value? context = operand.value? context' := by
  cases operand with
  | literal value => rfl
  | path text => exact h.resolve?_eq hoperand

theorem Operand.lookup?_eq (h : Value.AgreeApart name context context') {s : List Char}
    (hs : name ∉ Path.segments s) : lookup? s context = lookup? s context' :=
  value?_eq h fun hmem => hs (words_read_subset s hmem)

theorem Test.holds_eq (h : Value.AgreeApart name context context') {test : Test}
    (htest : name ∉ test.words) : test.holds context = test.holds context' := by
  cases test with
  | value operand =>
    have hoperand : name ∉ operand.words := htest
    simp only [holds, valueOf, Operand.value?_eq h hoperand]
  | comparison left relation right =>
    obtain ⟨hleft, hright⟩ := not_or.1 (mt List.mem_append.2 htest)
    simp only [holds, valueOf, Operand.value?_eq h hleft, Operand.value?_eq h hright]

theorem Condition.holds_eq (h : Value.AgreeApart name context context') {condition : Condition}
    (hcondition : name ∉ condition.words) :
    condition.holds context = condition.holds context' := by
  obtain ⟨first, rest⟩ := condition
  obtain ⟨hfirst, hrest⟩ := not_or.1 (mt List.mem_append.2 hcondition)
  have hclause (clause : Clause) (hclause : name ∉ clause.test.words) :
      clause.holds context = clause.holds context' := by
    rw [Clause.holds, Clause.holds, Test.holds_eq h hclause]
  unfold holds
  rw [hclause first hfirst]
  refine List.foldl_ext _ _ _ fun truth part hpart => ?_
  have hpart := hclause part.2 fun hmem => hrest (List.mem_flatMap_of_mem hpart hmem)
  exact congrArg (part.1.apply truth) hpart

theorem Condition.evaluate_eq (h : Value.AgreeApart name context context') {s : List Char}
    (hs : name ∉ Path.segments s) : evaluate s context = evaluate s context' := by
  unfold evaluate
  cases hread : read s with
  | error fault => rfl
  | ok condition =>
    have hcondition : name ∉ condition.words := fun hmem => hs (words_subset_of_read hread hmem)
    exact congrArg Except.ok (holds_eq h hcondition)

theorem Assignment.read_eq (h : Value.AgreeApart name context context') {s : List Char}
    (hs : name ∉ Path.segments s) : read s context = read s context' := by
  have hcomma (c : Char) (hc : (c == ',') = true) : Path.isWordChar c = false := by
    obtain rfl := beq_iff_eq.1 hc
    decide +kernel
  refine mapM_congr fun piece hpiece => ?_
  have hwords : name ∉ Path.segments piece := fun hmem => hs <| by
    rw [← Path.flatMap_segments_splitUnquoted hcomma]
    exact List.mem_flatMap_of_mem hpiece hmem
  unfold readOne
  split
  · rfl
  · next left value hcut =>
    rw [segments_of_cutAtEquals? hcut] at hwords
    have hvalue : name ∉ Path.segments (Text.trim value) := fun hmem =>
      hwords (List.mem_append_right _ (Path.segments_trim value ▸ hmem))
    rw [valueOf, valueOf, Operand.lookup?_eq h hvalue]

theorem Helper.resolveArguments_eq (h : Value.AgreeApart name context context')
    {arguments : Option String} (hs : name ∉ Path.segments (arguments.getD "").toList) :
    resolveArguments arguments context = resolveArguments arguments context' := by
  refine List.map_congr_left fun piece hpiece => ?_
  have hwords : name ∉ Path.segments piece := fun hmem => hs <| by
    rw [← Path.flatMap_segments_splitUnquoted fun _ =>
      Path.isWordChar_eq_false_of_separatesArguments]
    exact List.mem_flatMap_of_mem hpiece hmem
  rw [Operand.lookup?_eq h hwords]

theorem Environment.interpolate_eq {σ : Type} (env : Environment σ)
    (h : Value.AgreeApart name context context') {key : String}
    (hkey : name ∉ Path.segments key.toList) :
    env.interpolate key context = env.interpolate key context' := by
  rw [interpolate, interpolate, Operand.lookup?_eq h hkey]

theorem Environment.inclusionScope_cases (h : Value.AgreeApart name context context')
    {arguments : Option String} (hs : name ∉ Path.segments (arguments.getD "").toList) :
    (∃ fault, inclusionScope context arguments = .error fault ∧
      inclusionScope context' arguments = .error fault) ∨
    ∃ scope scope', inclusionScope context arguments = .ok scope ∧
      inclusionScope context' arguments = .ok scope' ∧ Value.AgreeApart name scope scope' := by
  cases arguments with
  | none => exact .inr ⟨context, context', rfl, rfl, h⟩
  | some arguments =>
    have hread : Assignment.read arguments.toList context =
        Assignment.read arguments.toList context' := Assignment.read_eq h hs
    unfold inclusionScope
    dsimp only
    rw [hread]
    cases Assignment.read arguments.toList context' with
    | error fault => exact .inl ⟨fault, rfl, rfl⟩
    | ok pairs => exact .inr ⟨_, _, rfl, rfl, h.bindAll pairs⟩

end

/-! ## Helpers -/

/-- Two executions of nodes that do not mention a name. -/
def Correspondence.unmentioned {σ : Type} (name : String) (store : σ → σ → Prop) :
    Correspondence σ σ where
  permits node := name ∉ node.words
  context := Value.AgreeApart name
  store := store

namespace Helper

variable {σ : Type} {name : String} {store : σ → σ → Prop}

theorem not_mem_segments_of_arguments {key source arguments : String} {span : Span} {depth : Nat}
    (h : name ∉ (Node.helper key source span depth (some arguments)).words) :
    name ∉ Path.segments arguments.toList :=
  fun hmem => h (List.mem_append_right _ hmem)

theorem corresponds_conditional (key : String) :
    conditional.Corresponds (.unmentioned name store) key := by
  intro context context' source span depth arguments body hcontext hnode hbody
  obtain ⟨hfirst, hsecond⟩ := branches_subset body
  cases arguments with
  | none => exact .done _ hcontext
  | some arguments =>
    have hwords := not_mem_segments_of_arguments hnode
    simp only [conditional, Node.arguments?, Condition.evaluate_eq hcontext hwords]
    split
    · exact .done _ hcontext
    · next holds _ =>
      refine corresponds_renderBranch (fun nodes hnodes node hmem => hbody node ?_) hcontext
      cases holds with
      | true => exact hfirst (Option.some.inj hnodes ▸ hmem)
      | false => exact hsecond nodes hnodes hmem

theorem corresponds_loop (key : String) : loop.Corresponds (.unmentioned name store) key := by
  intro context context' source span depth arguments body hcontext hnode hbody
  obtain ⟨hfirst, hsecond⟩ := branches_subset body
  cases arguments with
  | none => exact .done _ hcontext
  | some arguments =>
    have hwords := not_mem_segments_of_arguments hnode
    simp only [loop, Node.arguments?]
    split
    · exact .done _ hcontext
    · next header hheader =>
      have hlist : name ∉ Path.segments header.list := fun hmem =>
        hwords (LoopHeader.segments_list_subset hheader hmem)
      rw [Operand.lookup?_eq hcontext hlist]
      split
      · exact corresponds_renderBranch
          (fun nodes hnodes node hmem => hbody node (hsecond nodes hnodes hmem)) hcontext
      · exact corresponds_passes (fun node hmem => hbody node (hfirst hmem)) hcontext
          (fun _ _ pairs h => h.bindAll pairs) _ 0 hcontext ""

theorem agreeApart_scopeOf {context context' : Value} (h : Value.AgreeApart name context context')
    (target : Value) :
    Value.AgreeApart name (scopeOf target context) (scopeOf target context') := by
  cases target <;> exact h.bindAll _

theorem corresponds_inScope (key : String) :
    inScope.Corresponds (.unmentioned name store) key := by
  intro context context' source span depth arguments body hcontext hnode hbody
  obtain ⟨hfirst, hsecond⟩ := branches_subset body
  cases arguments with
  | none => exact .done _ hcontext
  | some arguments =>
    have hwords := not_mem_segments_of_arguments hnode
    have hbranch := fun node hmem => hbody node (hfirst hmem)
    simp only [inScope, Node.arguments?, Operand.lookup?_eq hcontext hwords]
    split
    · next target _ =>
      exact Plan.corresponds_renderApart hbranch (agreeApart_scopeOf hcontext target) hcontext
    · next second _ heq =>
      exact Plan.corresponds_renderHere (fun node hmem => hbody node (hsecond second heq hmem))
        hcontext
    · exact Plan.corresponds_renderApart hbranch hcontext hcontext

theorem corresponds_assignment {bind : Value → List (String × Value) → Value}
    (hbind : ∀ context context' pairs, Value.AgreeApart name context context' →
      Value.AgreeApart name (bind context pairs) (bind context' pairs)) (key : String) :
    (assignment bind).Corresponds (.unmentioned name store) key := by
  intro context context' source span depth arguments body hcontext hnode hbody
  cases arguments with
  | none => exact .done _ hcontext
  | some arguments =>
    have hwords := not_mem_segments_of_arguments hnode
    simp only [assignment, Node.arguments?, Assignment.read_eq hcontext hwords]
    split
    · exact .done _ hcontext
    · next pairs _ =>
      have hbound := hbind _ _ pairs hcontext
      split
      · exact .done _ hbound
      · exact Plan.corresponds_renderApart hbody hbound hcontext

theorem corresponds_ofFunction (f : List Value → String) (key : String) :
    (ofFunction f).Corresponds (.unmentioned name store) key := by
  intro context context' source span depth arguments body hcontext hnode hbody
  have hwords : name ∉ Path.segments (arguments.getD "").toList := fun hmem =>
    hnode (List.mem_append_right _ hmem)
  simp only [ofFunction, Node.arguments?, resolveArguments_eq hcontext hwords]
  refine .render hbody hcontext fun result left left' hleft => ?_
  cases result with
  | error e => exact .done _ hleft
  | ok content => exact .done _ hleft

theorem corresponds_of_ordinary {key : String} {helper : Helper}
    (h : (key, helper) ∈ builtins ∨ ∃ f, helper = ofFunction f) :
    helper.Corresponds (.unmentioned name store) key := by
  rcases h with h | ⟨f, rfl⟩
  · exact forall_mem_builtins
      (P := fun key helper => helper.Corresponds (.unmentioned name store) key)
      (corresponds_conditional _) (corresponds_loop _) (corresponds_loop _) (corresponds_inScope _)
      (corresponds_assignment (fun _ _ pairs h => h.bindAll pairs) _)
      (corresponds_assignment (fun _ _ pairs h => h.bindMissing pairs) _) h
  · exact corresponds_ofFunction f key

end Helper

/-! ## Executions -/

namespace Engine

variable {σ : Type} [PartialStore σ] [LawfulPartialStore σ] {engine : Engine σ} {name : String}

theorem corresponds_unmentioned (hhelpers : engine.Ordinary) :
    engine.environment.Corresponds
      (.unmentioned name fun partials partials' =>
        partials' = partials ∧ { engine with partials }.AllPartials (name ∉ ·.words))
      engine.environment where
  interpolation h hcontext :=
    Environment.interpolate_eq _ hcontext fun hmem => h (List.mem_append_left _ hmem)
  raw h hcontext :=
    Environment.interpolate_eq _ hcontext fun hmem => h (List.mem_append_left _ hmem)
  helper?_eq _ := rfl
  helper {key helper} h := Helper.corresponds_of_ordinary (hhelpers key helper h)
  scope h hcontext :=
    Environment.inclusionScope_cases hcontext fun hmem => h (List.mem_append_right _ hmem)
  fst_fetch key _ _ h := by rw [h.1]
  fetch key _ _ h := by
    obtain ⟨rfl, hpartials⟩ := h
    exact ⟨rfl, hpartials.fetch key⟩
  partials {key nodes _ _} h hnodes := h.2 key nodes hnodes

/-- What a context binds to a name cannot be told from an execution of nodes that do not mention the
name, if no partial mentions it: executions in two contexts that agree apart from it have an outcome
within the same limits, with the same result and the same diagnostics, and leave contexts behind
that agree apart from it. -/
theorem execute_unmentioned (hhelpers : engine.Ordinary)
    (hpartials : engine.AllPartials (name ∉ ·.words)) {nodes : List Node}
    (hnodes : ∀ node ∈ nodes, name ∉ node.words) {context context' : Value}
    (hcontext : Value.AgreeApart name context context') (limit : Nat) :
    Option.Rel (fun outcome outcome' => outcome.result = outcome'.result ∧
        outcome.diagnostics = outcome'.diagnostics ∧
        Value.AgreeApart name outcome.context outcome'.context)
      (engine.execute limit nodes context) (engine.execute limit nodes context') := by
  have hbetween := (corresponds_unmentioned hhelpers).between_execute limit nodes context context'
    engine.partials engine.partials hnodes hcontext ⟨rfl, hpartials⟩
  exact Simulation.rel_mono hbetween fun _ _ hagree =>
    ⟨hagree.result, hagree.diagnostics, hagree.context⟩

/-- The name `this` is bound by a loop and by a `with`, and the contexts bind it differently. -/
theorem execute_unmentioned_this :
    let engine : Engine Cells := ((Engine.new { delimiters := ⟨"[", "]"⟩ }).registerPartial "p"
      (.text "[z][$block]")).registerFunction "join" fun arguments =>
        "-".intercalate (arguments.map Value.text)
    let template := "[#each xs][key][/each][#with o][y][/with][> p z = a][q][/p]" ++
      "[#if a >= 1][#join a, 2][/if]"
    let nodes := (engine.parse template).toOption.getD []
    let o := Value.object [("this", .null), ("y", .string "y")]
    let context := Value.object [("this", .bool true), ("a", .number (.int 1)), ("o", o),
      ("xs", .array [o, .null])]
    let context' := Value.object [("xs", .array [o, .null]), ("a", .number (.int 1)), ("o", o)]
    engine.Ordinary ∧ engine.AllPartials ("this" ∉ ·.words) ∧
      (∀ node ∈ nodes, "this" ∉ node.words) ∧ Value.AgreeApart "this" context context' ∧
      (engine.execute 4 nodes context).map (·.result.toOption) = some (some "01y11-2") ∧
      (engine.execute 4 nodes context').map (·.result.toOption) = some (some "01y11-2") := by
  intro engine template nodes o context context'
  have hhelpers : engine.Ordinary :=
    ((onlyBuiltins_new _).registerPartial _ _).ordinary.registerFunction _ _
  have hparsed : (PartialSource.text "[z][$block]").parse engine.dialect =
      .ok [.interpolation "z" "[z]" ⟨0, 3⟩ none,
        .interpolation "$block" "[$block]" ⟨3, 11⟩ none] := by decide +kernel
  have hpartials : engine.AllPartials ("this" ∉ ·.words) := by
    refine AllPartials.registerPartial (AllPartials.new _) fun nodes hnodes => ?_
    obtain rfl := Except.ok.inj (hparsed.symm.trans hnodes)
    decide +kernel
  have hnodes : ∀ node ∈ nodes, "this" ∉ node.words := by decide +kernel
  have hcontext : Value.AgreeApart "this" context context' := by
    refine ⟨_, _, rfl, rfl, fun other hother => ?_⟩
    simp only [Table.get?_cons, if_neg hother]
    grind
  have hresult : (engine.execute 4 nodes context).map (·.result.toOption) =
      some (some "01y11-2") := by decide +kernel
  refine ⟨hhelpers, hpartials, hnodes, hcontext, hresult, ?_⟩
  have hrel := execute_unmentioned hhelpers hpartials hnodes hcontext 4
  obtain ⟨outcome, houtcome, htext⟩ := Option.map_eq_some_iff.1 hresult
  rw [houtcome] at hrel
  generalize engine.execute 4 nodes context' = other at hrel ⊢
  cases hrel with
  | some h => exact congrArg some ((congrArg Except.toOption h.1.symm).trans htext)

end Engine

end Stencil
