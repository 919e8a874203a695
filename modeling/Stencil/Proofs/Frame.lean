import Mathlib.Tactic.Common
import Stencil.Engine.Basic
import Stencil.Proofs.Promise

/-!
# What an execution does to its context

An execution changes its context by nothing but the assignments among its own nodes. An object keeps
its keys in their order in front of new ones, and only names that are assigned to become bound or
change their value. Whatever loops, `with`, blocks of assignments and partials bind stays in scopes
of their own.

## Main definitions

* `Assignment.names`, `Node.assigned`: the names that a tag assigns to.
* `Table.Grows`, `Value.Frame`: a table or a context that differs from an earlier one in some names.
-/

namespace Stencil

/-! ## Assigned names -/

namespace Assignment

/-- The name that one assignment assigns to, none if it is malformed. -/
def name? (piece : List Char) : Option String :=
  match cutAtEquals? piece with
  | none => none
  | some (name, _) =>
    let name := Text.trim name
    if Path.isName name then some (String.ofList name) else none

/-- The names that a list of assignments assigns to, none if one of them is malformed. -/
def names (s : List Char) : List String :=
  ((Text.splitUnquoted (· == ',') s).mapM name?).getD []

theorem name?_of_readOne {context : Value} {piece : List Char} {binding : String × Value}
    (h : readOne context piece = .ok binding) : name? piece = some binding.1 := by
  unfold readOne at h
  unfold name?
  cases hcut : cutAtEquals? piece with
  | none =>
    rw [hcut] at h
    contradiction
  | some cut =>
    rw [hcut] at h
    dsimp only at h ⊢
    split at h
    · next hname =>
      obtain rfl := Except.ok.inj h
      simp [hname]
    · contradiction

theorem mapM_name?_of_mapM_readOne {context : Value} {pieces : List (List Char)}
    {pairs : List (String × Value)} (h : pieces.mapM (readOne context) = .ok pairs) :
    pieces.mapM name? = some (pairs.map Prod.fst) := by
  induction pieces generalizing pairs with
  | nil =>
    obtain rfl := Except.ok.inj h
    rfl
  | cons piece rest ih =>
    rw [List.mapM_cons] at h ⊢
    cases hone : readOne context piece with
    | error e => simp [hone, bind, Except.bind] at h
    | ok binding =>
      cases hrest : rest.mapM (readOne context) with
      | error e => simp [hone, hrest, bind, Except.bind] at h
      | ok later =>
        obtain rfl : binding :: later = pairs := by
          simpa [hone, hrest, bind, Except.bind, pure, Except.pure] using h
        simp [name?_of_readOne hone, ih hrest]

/-- Assignments bind the same names in every context. -/
theorem names_of_read {s : List Char} {context : Value} {pairs : List (String × Value)}
    (h : read s context = .ok pairs) : names s = pairs.map Prod.fst := by
  rw [names, mapM_name?_of_mapM_readOne h]
  rfl

end Assignment

/-- The names that a tag assigns to. -/
def Node.assigned : Node → List String
  | helper key _ _ _ (some arguments) =>
    if key = "set" ∨ key = "default" then Assignment.names arguments.toList else []
  | _ => []

/-! ## Tables that grow -/

/-- Whether a table has grown out of another: bound strings keep their order, new ones come behind
them, and only some names may be bound anew. -/
structure Table.Grows {α : Type} (names : List String) (before after : Table α) : Prop where
  keys_prefix : keys before <+: keys after
  get?_eq : ∀ name, name ∉ names → get? after name = get? before name

namespace Table.Grows

variable {α : Type} {names : List String} {first second third : Table α}

theorem refl (names : List String) (table : Table α) : Grows names table table :=
  ⟨List.prefix_rfl, fun _ _ => rfl⟩

theorem trans (h : Grows names first second) (h' : Grows names second third) :
    Grows names first third :=
  ⟨h.keys_prefix.trans h'.keys_prefix, fun name hname =>
    (h'.get?_eq name hname).trans (h.get?_eq name hname)⟩

theorem mono {more : List String} (h : Grows names first second) (hnames : names ⊆ more) :
    Grows more first second :=
  ⟨h.keys_prefix, fun name hname => h.get?_eq name fun hmem => hname (hnames hmem)⟩

theorem insert (table : Table α) (name : String) (entry : α) :
    Grows [name] table (Table.insert table name entry) := by
  constructor
  case keys_prefix =>
    rw [keys_insert]
    split
    · exact List.prefix_rfl
    · exact List.prefix_append _ _
  case get?_eq =>
    intro other hother
    rw [get?_insert, if_neg (by simpa using hother)]

theorem insertNew (table : Table α) (name : String) (entry : α) :
    Grows [name] table (Table.insertNew table name entry) := by
  unfold Table.insertNew
  split
  · exact refl _ _
  · exact insert table name entry

/-- Binding one pair after the other binds only their names. -/
theorem foldl {step : Table α → String × α → Table α}
    (hstep : ∀ table pair, Grows [pair.1] table (step table pair)) (pairs : List (String × α))
    (table : Table α) : Grows (pairs.map Prod.fst) table (pairs.foldl step table) := by
  induction pairs generalizing table with
  | nil => exact refl _ _
  | cons pair rest ih =>
    have hfirst : Grows ((pair :: rest).map Prod.fst) table (step table pair) :=
      (hstep table pair).mono (by simp)
    exact hfirst.trans ((ih (step table pair)).mono (by simp))

/-- What has grown out of nothing binds only names that may be bound. -/
theorem nil_iff {table : Table α} : Grows names [] table ↔ ∀ name ∈ keys table, name ∈ names := by
  constructor
  · intro h name hname
    by_contra hnot
    have hbound := (contains_eq_true_iff table name).2 hname
    rw [contains, h.get?_eq name hnot] at hbound
    contradiction
  · intro h
    refine ⟨List.nil_prefix, fun name hname => ?_⟩
    rw [get?_nil, Option.eq_none_iff_forall_ne_some]
    intro entry hentry
    exact hname (h name (List.mem_map_of_mem (mem_of_get?_eq_some hentry)))

end Table.Grows

/-! ## Contexts -/

namespace Value

variable {names : List String} {first second third : Value}

/-- Whether a context is an earlier one with some names bound: an object has grown, and any other
value has stayed or has become an object that binds only such names. -/
def Frame (names : List String) (before after : Value) : Prop :=
  match before with
  | object fields => ∃ fields', after = object fields' ∧ Table.Grows names fields fields'
  | null | bool _ | number _ | string _ | array _ =>
    after = before ∨ ∃ fields, after = object fields ∧ ∀ name ∈ Table.keys fields, name ∈ names

/-- A context stays or becomes an object that has grown out of what it bound. -/
theorem frame_iff :
    Frame names first second ↔ second = first ∨
      ∃ fields, second = object fields ∧ Table.Grows names first.bindings fields := by
  cases first with
  | object fields =>
    refine ⟨.inr, ?_⟩
    rintro (rfl | h)
    · exact ⟨fields, rfl, .refl names fields⟩
    · exact h
  | null | bool | number | string | array => simp only [Frame, bindings, Table.Grows.nil_iff]

namespace Frame

theorem refl (names : List String) (context : Value) : Frame names context context :=
  frame_iff.2 (.inl rfl)

theorem trans (h : Frame names first second) (h' : Frame names second third) :
    Frame names first third := by
  rcases frame_iff.1 h with rfl | ⟨fields, rfl, hgrows⟩
  · exact h'
  · obtain ⟨fields', rfl, hgrows'⟩ := h'
    exact frame_iff.2 (.inr ⟨fields', rfl, hgrows.trans hgrows'⟩)

theorem mono {more : List String} (h : Frame names first second) (hnames : names ⊆ more) :
    Frame more first second := by
  rcases frame_iff.1 h with rfl | ⟨fields, rfl, hgrows⟩
  · exact refl _ _
  · exact frame_iff.2 (.inr ⟨fields, rfl, hgrows.mono hnames⟩)

theorem bindAll (context : Value) (pairs : List (String × Value)) :
    Frame (pairs.map Prod.fst) context (context.bindAll pairs) := by
  have hgrows := Table.Grows.foldl (fun table pair => .insert table pair.1 pair.2) pairs
    context.bindings
  exact frame_iff.2 (.inr ⟨_, rfl, hgrows⟩)

theorem bindMissing (context : Value) (pairs : List (String × Value)) :
    Frame (pairs.map Prod.fst) context (context.bindMissing pairs) := by
  have hgrows := Table.Grows.foldl (fun table pair => .insertNew table pair.1 pair.2) pairs
    context.bindings
  exact frame_iff.2 (.inr ⟨_, rfl, hgrows⟩)

end Frame

end Value

/-! ## Executions -/

open Value (Frame)

/-- An inclusion leaves its context as it is. -/
theorem Environment.context_of_runInclusion {σ : Type} {env : Environment σ}
    {executor : Executor σ} {node : Node} {name : String} {span : Span} {body : List Node}
    {context : Value} {store : σ} {outcome : Outcome σ}
    (h : env.runInclusion executor node name span body context store = some outcome) :
    outcome.context = context := by
  unfold runInclusion at h
  split at h
  · obtain rfl := Option.some.inj h
    rfl
  · split at h
    · obtain ⟨inner, -, rfl⟩ := Option.map_eq_some_iff.1 h
      rfl
    · obtain rfl := Option.some.inj h
      rfl
    · obtain ⟨inner, -, rfl⟩ := Option.map_eq_some_iff.1 h
      rfl

/-- Nodes that assign only to some names change at most these in their context. -/
def Promise.framing (σ : Type) (names : List String) : Promise σ where
  permits node := node.assigned ⊆ names
  store _ := True
  relates before _ after := Frame names before after

namespace Engine

variable {σ : Type} {names : List String}

theorem closed_framing : (Promise.framing σ names).Closed where
  nothing := Frame.refl names
  fail _ := Frame.refl names
  andThen first second := Frame.trans first second
  apart context _ := Frame.refl names context

theorem keeps_framing_assignment {name : String} (hname : name = "set" ∨ name = "default")
    {bind : Value → List (String × Value) → Value}
    (hbind : ∀ context pairs, Frame (pairs.map Prod.fst) context (bind context pairs)) :
    (Helper.assignment bind).Keeps (Promise.framing σ names) name := by
  refine Helper.keeps_assignment closed_framing fun context _ _ _ arguments pairs hnode hread => ?_
  have hassigned : Assignment.names arguments.toList ⊆ names := by
    simpa only [Promise.framing, Node.assigned, if_pos hname] using hnode
  rw [Assignment.names_of_read hread] at hassigned
  exact (hbind context pairs).mono hassigned

theorem keeps_framing {name : String} {helper : Helper}
    (h : (name, helper) ∈ Helper.builtins ∨ ∃ f, helper = Helper.ofFunction f) :
    helper.Keeps (Promise.framing σ names) name := by
  rcases h with h | ⟨f, rfl⟩
  · exact Helper.keeps_of_mem_builtins closed_framing
      (keeps_framing_assignment (.inl rfl) Frame.bindAll)
      (keeps_framing_assignment (.inr rfl) Frame.bindMissing) h
  · exact Helper.keeps_ofFunction (fun _ hframe => hframe) f name

variable [PartialStore σ] {engine : Engine σ}

theorem upholds_framing (hhelpers : engine.Ordinary) :
    engine.environment.Upholds (Promise.framing σ names) where
  toClosed := closed_framing
  text context _ := Frame.refl names context
  interpolation context _ := Frame.refl names context
  raw context _ := Frame.refl names context
  helper {name helper} h := keeps_framing (hhelpers name helper h)
  inclusion _ _ _ _ _ _ context _ _ hstore h :=
    ⟨Environment.context_of_runInclusion h ▸ Frame.refl names context, hstore⟩

/-- Nodes change their context at most in the names that they assign to, whatever the store is. -/
theorem frame_of_environment (hhelpers : engine.Ordinary) {limit : Nat} {nodes : List Node}
    {context : Value} {store : σ} {outcome : Outcome σ}
    (h : engine.environment.execute limit nodes context store = some outcome) :
    Frame (nodes.flatMap Node.assigned) context outcome.context := by
  have hkept := (upholds_framing hhelpers).keptBy_execute limit nodes context store outcome
    (fun node hnode name hname => List.mem_flatMap_of_mem hnode hname) trivial h
  exact hkept.1

/-- An execution changes its context at most in the names that its own nodes assign to, however it
ends. -/
theorem frame_of_execute (hhelpers : engine.Ordinary) {limit : Nat} {nodes : List Node}
    {context : Value} {outcome : Outcome σ}
    (h : engine.execute limit nodes context = some outcome) :
    Frame (nodes.flatMap Node.assigned) context outcome.context :=
  frame_of_environment hhelpers h

/-- Before a tag is refused, two assignments are made in the context itself, and others in a loop
and in a partial. -/
theorem frame_of_execute_refused :
    let engine : Engine Cells := ((Engine.new { delimiters := ⟨"[", "]"⟩ }).registerPartial "p"
      (.text "[#set z = 9][z][q]")).registerFunction "wrap" fun arguments =>
        ", ".intercalate (arguments.map Value.text)
    let template := "[#each xs as x][#set y = x][/each][#set b = 2, a = 3]" ++
      "[#wrap b][#default c = a, a = 4][/wrap][> p q = 1][/p][#if][/if]"
    let nodes := (engine.parse template).toOption.getD []
    let context := Value.object [("a", .number (.int 1)), ("xs", .array [.bool true])]
    ∃ outcome, engine.execute 4 nodes context = some outcome ∧
      outcome.result.toOption = none ∧
      outcome.context.json = "\x7b\"a\":3,\"xs\":[true],\"b\":2,\"c\":3\x7d" ∧
      nodes.flatMap Node.assigned = ["y", "b", "a", "c", "a"] ∧
      Frame ["y", "b", "a", "c", "a"] context outcome.context := by
  intro engine template nodes context
  have hhelpers : engine.Ordinary :=
    ((onlyBuiltins_new _).registerPartial _ _).ordinary.registerFunction _ _
  have hnames : nodes.flatMap Node.assigned = ["y", "b", "a", "c", "a"] := by decide +kernel
  have hrun : (engine.execute 4 nodes context).map
      (fun outcome => (outcome.result.toOption, outcome.context.json)) =
        some (none, "\x7b\"a\":3,\"xs\":[true],\"b\":2,\"c\":3\x7d") := by decide +kernel
  obtain ⟨outcome, houtcome, hleft⟩ := Option.map_eq_some_iff.1 hrun
  obtain ⟨hresult, hcontext⟩ := Prod.mk.inj hleft
  exact ⟨outcome, houtcome, hresult, hcontext, hnames, hnames ▸ frame_of_execute hhelpers houtcome⟩

end Engine

end Stencil
