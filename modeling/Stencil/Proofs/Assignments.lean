import Mathlib.Data.List.Forall2
import Stencil.Proofs.Bindings
import Stencil.Proofs.Composition

/-!
# Assignments are atomic and simultaneous

Assignments are made all or not at all. If one of them is malformed the tag is refused and the
context stays as it is. Otherwise all values are taken from the context as it was before the tag,
and then the names are bound, with or without overwriting.

## Main definitions

* `Assignment.Malformed`, `Assignment.Denotes`: what is no assignment, and what an assignment binds
  its name to.
* `Assignment.Mode`: the two ways to make assignments.
* `Assignment.Assigned`: a context in which assignments have been made.
* `Engine.Refuses`, `Engine.Makes`: what becomes of tags with assignments.
-/

namespace Stencil

namespace Assignment

/-! ## One assignment -/

/-- Whether a piece has no equals sign, or no name before the first one. -/
def Malformed (piece : List Char) : Prop :=
  '=' ∉ piece ∨ ∃ name value, piece = name ++ '=' :: value ∧ '=' ∉ name ∧
    Path.isName (Text.trim name) = false

/-- Whether a piece denotes a binding in a context: the name before the first equals sign with the
value of what stands behind it. -/
def Denotes (context : Value) (piece : List Char) (binding : String × Value) : Prop :=
  ∃ name value, piece = name ++ '=' :: value ∧ '=' ∉ name ∧ Path.isName (Text.trim name) = true ∧
    binding = (String.ofList (Text.trim name), valueOf (Text.trim value) context)

theorem cutAtEquals?_append {name : List Char} (h : '=' ∉ name) (value : List Char) :
    cutAtEquals? (name ++ '=' :: value) = some (name, value) := by
  induction name with
  | nil => rfl
  | cons c name ih =>
    rw [List.mem_cons, not_or] at h
    rw [List.cons_append, cutAtEquals?, if_neg (Ne.symm h.1), ih h.2]
    rfl

theorem cutAtEquals?_eq_none {piece : List Char} (h : '=' ∉ piece) :
    cutAtEquals? piece = none := by
  induction piece with
  | nil => rfl
  | cons c piece ih =>
    rw [List.mem_cons, not_or] at h
    rw [cutAtEquals?, if_neg (Ne.symm h.1), ih h.2]
    rfl

theorem readOne_of_denotes {context : Value} {piece : List Char} {binding : String × Value}
    (h : Denotes context piece binding) : readOne context piece = .ok binding := by
  obtain ⟨name, value, rfl, hname, hword, rfl⟩ := h
  simp only [readOne, cutAtEquals?_append hname, hword, if_true]

/-- A piece is malformed whatever the context is, or it denotes a binding of the same name in every
context. -/
theorem readOne_cases (piece : List Char) :
    (Malformed piece ∧ ∃ fault, ∀ context, readOne context piece = .error fault) ∨
      ∃ name, ∀ context, ∃ value, Denotes context piece (name, value) := by
  by_cases hequals : '=' ∈ piece
  · obtain ⟨name, value, rfl, hname⟩ := List.eq_append_cons_of_mem hequals
    simp only [readOne, cutAtEquals?_append hname]
    cases hword : Path.isName (Text.trim name) with
    | false => exact .inl ⟨.inr ⟨name, value, rfl, hname, hword⟩, _, fun _ => rfl⟩
    | true => exact .inr ⟨_, fun _ => ⟨_, name, value, rfl, hname, hword, rfl⟩⟩
  · simp only [readOne, cutAtEquals?_eq_none hequals]
    exact .inl ⟨.inl hequals, _, fun _ => rfl⟩

/-! ## Lists of assignments -/

/-- The pieces of a list of assignments: what stands between commas outside quotes, without empty
ones. -/
def pieces (arguments : String) : List (List Char) :=
  Text.splitUnquoted (· == ',') arguments.toList

/-- What the pieces denote is read. -/
theorem read_of_denotes {arguments : String} {context : Value} {pairs : List (String × Value)}
    (h : List.Forall₂ (Denotes context) (pieces arguments) pairs) :
    read arguments.toList context = .ok pairs := by
  rw [read, ← pieces]
  generalize pieces arguments = pieces at h
  induction h with
  | nil => rfl
  | cons hone _ ih =>
    rw [List.mapM_cons, readOne_of_denotes hone, ih]
    rfl

/-- A list of assignments is refused for a malformed piece whatever the context is, or its pieces
denote bindings, of the same names in every context. -/
theorem read_cases (arguments : String) :
    ((∃ piece ∈ pieces arguments, Malformed piece) ∧
        ∃ fault, ∀ context, read arguments.toList context = .error fault) ∨
      ∃ names, ∀ context, ∃ pairs, List.Forall₂ (Denotes context) (pieces arguments) pairs ∧
        Table.keys pairs = names := by
  simp only [read]
  rw [← pieces]
  induction pieces arguments with
  | nil => exact .inr ⟨[], fun _ => ⟨[], .nil, rfl⟩⟩
  | cons piece rest ih =>
    simp only [List.mapM_cons]
    rcases readOne_cases piece with ⟨hmalformed, fault, hfault⟩ | ⟨name, hone⟩
    · simp only [hfault]
      exact .inl ⟨⟨piece, List.mem_cons_self, hmalformed⟩, fault, fun _ => rfl⟩
    · rcases ih with ⟨⟨later, hlater, hmalformed⟩, fault, hfault⟩ | ⟨names, hrest⟩
      · refine .inl ⟨⟨later, List.mem_cons_of_mem _ hlater, hmalformed⟩, fault, fun context => ?_⟩
        obtain ⟨value, hdenotes⟩ := hone context
        rw [readOne_of_denotes hdenotes, hfault]
        rfl
      · refine .inr ⟨name :: names, fun context => ?_⟩
        obtain ⟨value, hdenotes⟩ := hone context
        obtain ⟨pairs, hpairs, rfl⟩ := hrest context
        exact ⟨(name, value) :: pairs, .cons hdenotes hpairs, rfl⟩

/-! ## Contexts -/

/-- The two ways to make assignments. -/
inductive Mode where
  /-- Bound names are bound anew. -/
  | overwrite
  /-- Bound names are passed over. -/
  | complete
deriving DecidableEq, Repr

namespace Mode

/-- The name of the helper. -/
def name : Mode → String
  | overwrite => "set"
  | complete => "default"

def bind : Mode → Value → List (String × Value) → Value
  | overwrite => Value.bindAll
  | complete => Value.bindMissing

/-- The tag of the helper with a list of assignments. -/
def tag (mode : Mode) (source : String) (span : Span) (depth : Nat) (arguments : String) : Node :=
  .helper mode.name source span depth (some arguments)

end Mode

/-- Whether a context is another one in which assignments have been made: an object that binds the
names bound before, in their order, and behind them the new ones in the order of their first
assignments. When bound names are bound anew the last value assigned to a name counts, otherwise the
value that it had before, or else the first one assigned to it. -/
structure Assigned (mode : Mode) (pairs : List (String × Value)) (before after : Value) : Prop where
  exists_eq_object : ∃ fields, after = .object fields
  keys_eq : Table.keys after.bindings = Table.keys before.bindings ++
    ((Table.keys pairs).filter (· ∉ Table.keys before.bindings)).eraseDups
  get?_eq : ∀ name, Table.get? after.bindings name =
    match mode with
    | .overwrite => (Table.get? pairs.reverse name).or (Table.get? before.bindings name)
    | .complete => (Table.get? before.bindings name).or (Table.get? pairs name)

theorem assigned_bind (mode : Mode) (pairs : List (String × Value)) (context : Value) :
    Assigned mode pairs context (mode.bind context pairs) := by
  cases mode with
  | overwrite =>
    exact ⟨⟨_, rfl⟩, Table.keys_extend context.bindings pairs, Table.get?_extend _ _⟩
  | complete =>
    exact ⟨⟨_, rfl⟩, Table.keys_complete context.bindings pairs, Table.get?_complete _ _⟩

end Assignment

/-! ## Tags -/

theorem Plan.run_renderHere {σ : Type} (nested : Executor σ) (nodes : List Node) (context : Value)
    (store : σ) : (renderHere nodes context).run nested store = nested nodes context store := by
  rw [renderHere, run]
  cases nested nodes context store with
  | none => rfl
  | some outcome => simp [run, Outcome.report]

/-- What is rendered on a scope of its own leaves the context as it is. -/
theorem Plan.run_renderApart {σ : Type} (nested : Executor σ) (nodes : List Node)
    (scope context : Value) (store : σ) :
    (renderApart nodes scope context).run nested store =
      (nested nodes scope store).map (Outcome.leaving context) := by
  rw [renderApart, run]
  cases nested nodes scope store with
  | none => rfl
  | some outcome => simp [run, Outcome.leaving, Outcome.report]

theorem Environment.inclusionScope_of_read {arguments : String} {context : Value}
    {pairs : List (String × Value)} (h : Assignment.read arguments.toList context = .ok pairs) :
    inclusionScope context (some arguments) = .ok (context.bindAll pairs) := by
  rw [inclusionScope, h]
  rfl

/-- An inclusion with assignments goes on in their scope as one without arguments. -/
theorem Environment.runInclusion_of_inclusionScope {σ : Type} (env : Environment σ)
    (nested : Executor σ) {node plain : Node} {context scope : Value}
    (hscope : inclusionScope context node.arguments? = .ok scope) (hplain : plain.arguments? = none)
    (name : String) (span : Span) (body : List Node) (store : σ) :
    env.runInclusion nested node name span body context store =
      (env.runInclusion nested plain name span body scope store).map
        (Outcome.leaving context) := by
  have hsame : inclusionScope scope plain.arguments? = .ok scope := by rw [hplain]; rfl
  unfold runInclusion
  rw [hscope, hsame]
  dsimp only
  split
  · rw [Option.map_map]
    rfl
  · rfl
  · rw [Option.map_map]
    rfl

namespace Engine

open Assignment (Mode Malformed Denotes Assigned)

variable {σ : Type} [PartialStore σ]

/-- Tags with assignments are refused for a reason and leave the context as it is, whether the
assignments are made in the context, in the scope of a body or in that of a partial. -/
structure Refuses (engine : Engine σ) (arguments : String) (context : Value) (reason : String) :
    Prop where
  assignment : ∀ (mode : Mode) source span depth body nodes limit,
    Node.segments nodes = [⟨mode.tag source span depth arguments, body⟩] →
      engine.execute (limit + 1) nodes context =
        some ⟨.error (.invalidArguments mode.name reason (mode.tag source span depth arguments)),
          context, engine.partials, []⟩
  inclusion : ∀ name source span depth body nodes limit,
    Node.segments nodes = [⟨.inclusion name source span depth (some arguments), body⟩] →
      engine.execute (limit + 1) nodes context =
        some ⟨.error (.invalidArguments name reason
          (.inclusion name source span depth (some arguments))), context, engine.partials, []⟩

/-- Tags with assignments make them: in the context if there is no body, else in a copy that the
body is executed on, and an inclusion in a copy on which it goes on as if it had no arguments. -/
structure Makes (engine : Engine σ) (arguments : String) (context : Value)
    (pairs : List (String × Value)) : Prop where
  bare : ∀ (mode : Mode) source span depth nodes limit,
    Node.segments nodes = [⟨mode.tag source span depth arguments, []⟩] →
      ∃ after, Assigned mode pairs context after ∧
        engine.execute (limit + 1) nodes context = some ⟨.ok "", after, engine.partials, []⟩
  block : ∀ (mode : Mode) source span depth body nodes limit, body ≠ [] →
    Node.segments nodes = [⟨mode.tag source span depth arguments, body⟩] →
      ∃ scope, Assigned mode pairs context scope ∧
        engine.execute (limit + 1) nodes context =
          (engine.execute limit body scope).map (Outcome.leaving context)
  inclusion : ∀ name source span depth body nodes plain limit,
    Node.segments nodes = [⟨.inclusion name source span depth (some arguments), body⟩] →
    Node.segments plain = [⟨.inclusion name source span depth none, body⟩] →
      ∃ scope, Assigned .overwrite pairs context scope ∧
        engine.execute (limit + 1) nodes context =
          (engine.execute (limit + 1) plain scope).map (Outcome.leaving context)

section

variable {engine : Engine σ} {arguments : String} {context : Value}
  (hhelpers : ∀ mode : Mode, Table.get? engine.helpers mode.name =
    some (Helper.assignment mode.bind))

include hhelpers

theorem refuses_of_read {fault : ArgumentFault}
    (h : Assignment.read arguments.toList context = .error fault) :
    engine.Refuses arguments context fault.text where
  assignment mode source span depth body nodes limit hnodes := by
    rw [execute, Environment.execute_helper hnodes (hhelpers mode)]
    simp only [Helper.assignment, Node.arguments?, h]
    rfl
  inclusion name source span depth body nodes limit hnodes := by
    rw [execute, Environment.execute_of_segments_eq hnodes]
    simp [Environment.runSegment, Environment.runInclusion, Node.arguments?,
      Environment.inclusionScope, h, Except.map]

theorem execute_bare {pairs : List (String × Value)}
    (h : Assignment.read arguments.toList context = .ok pairs) {mode : Mode} {source : String}
    {span : Span} {depth : Nat} {nodes : List Node}
    (hnodes : Node.segments nodes = [⟨mode.tag source span depth arguments, []⟩]) (limit : Nat) :
    engine.execute (limit + 1) nodes context =
      some ⟨.ok "", mode.bind context pairs, engine.partials, []⟩ := by
  rw [execute, Environment.execute_helper hnodes (hhelpers mode)]
  simp only [Helper.assignment, Node.arguments?, h]
  rfl

theorem makes_of_read {pairs : List (String × Value)}
    (h : Assignment.read arguments.toList context = .ok pairs) :
    engine.Makes arguments context pairs where
  bare mode source span depth nodes limit hnodes :=
    ⟨mode.bind context pairs, Assignment.assigned_bind mode pairs context,
      execute_bare hhelpers h hnodes limit⟩
  block mode source span depth body nodes limit hbody hnodes := by
    refine ⟨mode.bind context pairs, Assignment.assigned_bind mode pairs context, ?_⟩
    rw [execute, Environment.execute_helper hnodes (hhelpers mode)]
    simp only [Helper.assignment, Node.arguments?, h, List.isEmpty_iff, hbody, if_false]
    rw [Plan.run_renderApart]
    rfl
  inclusion name source span depth body nodes plain limit hnodes hplain := by
    refine ⟨context.bindAll pairs, Assignment.assigned_bind .overwrite pairs context, ?_⟩
    rw [execute, Environment.execute_of_segments_eq hnodes, execute,
      Environment.execute_of_segments_eq hplain]
    simp only [Environment.runSegment]
    exact Environment.runInclusion_of_inclusionScope _ _ (Environment.inclusionScope_of_read h) rfl
      name span body _

/-- A second `default` finds every name bound. -/
theorem executeInTurn_complete {source : String} {span : Span} {depth : Nat} {nodes : List Node}
    (hnodes : Node.segments nodes = [⟨Mode.complete.tag source span depth arguments, []⟩])
    (limit : Nat) :
    engine.environment.executeInTurn (limit + 1) [nodes, nodes] context engine.partials =
      engine.execute (limit + 1) nodes context := by
  rw [Environment.executeInTurn, Environment.executeInTurn_singleton]
  rcases Assignment.read_cases arguments with ⟨-, fault, hread⟩ | ⟨names, hread⟩
  · have hrun := (refuses_of_read hhelpers (hread context)).assignment _ _ _ _ _ _ limit hnodes
    rw [execute] at hrun ⊢
    rw [hrun]
    rfl
  · obtain ⟨pairs, hfirst, hkeys⟩ := hread context
    obtain ⟨pairs', hsecond, hkeys'⟩ := hread (context.bindMissing pairs)
    have hagain : (context.bindMissing pairs).bindMissing pairs' = context.bindMissing pairs :=
      congrArg Value.object (Table.complete_complete (hkeys.trans hkeys'.symm) context.bindings)
    have hrun := execute_bare hhelpers (Assignment.read_of_denotes hfirst) hnodes limit
    have hrunAgain := execute_bare hhelpers (Assignment.read_of_denotes hsecond) hnodes limit
    rw [Mode.bind, hagain, execute] at hrunAgain
    rw [execute] at hrun ⊢
    rw [hrun, Option.bind_some, Outcome.andThen_nothing]
    exact hrunAgain

end

/-- Tags with assignments are refused if one of these is malformed. Otherwise all values are taken
from the context as it was before the tag, and the assignments are made in the context, or in a copy
for a body or a partial. Completing a context for a second time changes nothing. -/
theorem execute_assignments {engine : Engine σ}
    (hhelpers : ∀ mode : Mode, Table.get? engine.helpers mode.name =
      some (Helper.assignment mode.bind)) (arguments : String) (context : Value) :
    (((∃ piece ∈ Assignment.pieces arguments, Malformed piece) ∧
        ∃ reason, engine.Refuses arguments context reason) ∨
      ∃ pairs, List.Forall₂ (Denotes context) (Assignment.pieces arguments) pairs ∧
        engine.Makes arguments context pairs) ∧
      ∀ source span depth nodes limit,
        Node.segments nodes = [⟨Mode.complete.tag source span depth arguments, []⟩] →
          engine.environment.executeInTurn (limit + 1) [nodes, nodes] context engine.partials =
            engine.execute (limit + 1) nodes context := by
  refine ⟨?_, fun _ _ _ _ limit hnodes => executeInTurn_complete hhelpers hnodes limit⟩
  rcases Assignment.read_cases arguments with ⟨hmalformed, fault, hread⟩ | ⟨names, hread⟩
  · exact .inl ⟨hmalformed, fault.text, refuses_of_read hhelpers (hread context)⟩
  · obtain ⟨pairs, hpairs, -⟩ := hread context
    exact .inr ⟨pairs, hpairs, makes_of_read hhelpers (Assignment.read_of_denotes hpairs)⟩

/-- Two names are swapped, a quoted comma does not separate, an empty piece is left out, and the
last value assigned to a name counts, or else the first one. -/
theorem execute_assignments_swap :
    let engine : Engine Cells := Engine.new { delimiters := ⟨"[", "]"⟩ }
    let context := Value.object [("b", .number (.int 1)), ("a", .number (.int 2))]
    let set : List Node := [.helper "set" "[#set]" ⟨0, 6⟩ 0
      (some "a = b, b = a,, c = w, c = 'x, y'")]
    let default : List Node := [.helper "default" "[#default]" ⟨0, 10⟩ 0
      (some "a = b, b = a,, c = w, c = 'x, y'")]
    (∀ mode : Mode, Table.get? engine.helpers mode.name = some (Helper.assignment mode.bind)) ∧
      engine.execute 2 set context = some ⟨.ok "", .object
        [("b", .number (.int 2)), ("a", .number (.int 1)), ("c", .string "x, y")], ⟨[]⟩, []⟩ ∧
      (∃ pairs, List.Forall₂ (Denotes context)
          (Assignment.pieces "a = b, b = a,, c = w, c = 'x, y'") pairs ∧
        engine.Makes "a = b, b = a,, c = w, c = 'x, y'" context pairs) ∧
      engine.environment.executeInTurn 2 [default, default] context engine.partials =
        some ⟨.ok "", .object
          [("b", .number (.int 1)), ("a", .number (.int 2)), ("c", .string "w")], ⟨[]⟩, []⟩ := by
  intro engine context set default
  have hhelpers : ∀ mode : Mode,
      Table.get? engine.helpers mode.name = some (Helper.assignment mode.bind) := by
    intro mode
    cases mode <;> rfl
  have hset : engine.execute 2 set context = some ⟨.ok "", .object
      [("b", .number (.int 2)), ("a", .number (.int 1)), ("c", .string "x, y")], ⟨[]⟩, []⟩ := rfl
  obtain ⟨hcases, hagain⟩ :=
    execute_assignments hhelpers "a = b, b = a,, c = w, c = 'x, y'" context
  refine ⟨hhelpers, hset, ?_, ?_⟩
  · rcases hcases with ⟨-, reason, hrefuses⟩ | hmakes
    · rw [hrefuses.assignment .overwrite _ _ _ [] set 1 rfl] at hset
      simp at hset
    · exact hmakes
  · rw [hagain "[#default]" ⟨0, 10⟩ 0 default 1 rfl]
    rfl

end Engine

end Stencil
