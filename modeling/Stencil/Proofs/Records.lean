import Stencil.Proofs.Caching
import Stencil.Proofs.JsonText
import Stencil.Proofs.Lossless
import Stencil.Proofs.Pairing
import Stencil.Wire.Dialect
import Stencil.Wire.Report

/-!
# Reading back records

Nodes, spans, dialects, diagnostics and errors are written as values, and read back they are what
they were. The only bound is on whole numbers: a number of more than 64 bits is written, but not
read. Nothing in the nodes of a template is larger than the template, so that nodes may be stored as
JSON texts and registered as partials in the place of their template.

## Main definitions

* `Wire.ReadsBack`: whether a record is read back from its value and from its JSON text.
* `Wire.Fits`, `Span.Fits`, `Node.Fits`, and so on: whether all whole numbers of a record have at
  most 64 bits.
* `Engine.RendersAs`: engines that no execution tells apart.
-/

namespace Stencil

/-! ## Parts of records -/

namespace Wire

variable {α : Type}

/-- Whether a whole number has at most 64 bits. -/
def Fits (n : Nat) : Prop :=
  n < Nat.pow 2 64
deriving Decidable

/-- Whether a record is read back, from its value and from the JSON text of its value. -/
def ReadsBack (write : α → Value) (read? : Value → Option α) (x : α) : Prop :=
  read? (write x) = some x ∧ (Value.ofJson? (write x).json).bind read? = some x

theorem readsBack_of_exact {write : α → Value} {read? : Value → Option α} {x : α}
    (hread : read? (write x) = some x) (hexact : (write x).Exact) : ReadsBack write read? x := by
  refine ⟨hread, ?_⟩
  rw [hexact.ofJson?_json, Option.bind_some, hread]

theorem readsBack_iff {write : α → Value} {read? : Value → Option α} {x : α} {p : Prop}
    [Decidable p] (hread : read? (write x) = if p then some x else none)
    (hexact : p → (write x).Exact) : ReadsBack write read? x ↔ p := by
  by_cases h : p
  · rw [if_pos h] at hread
    exact iff_of_true (readsBack_of_exact hread (hexact h)) h
  · rw [if_neg h] at hread
    exact iff_of_false (fun hreads => absurd (hread.symm.trans hreads.1) (by simp)) h

@[simp] theorem field?_cons (key : String) (v : Value) (fields : Table Value) (name : String)
    (read : Value → Option α) :
    field? ((key, v) :: fields) name read =
      if name = key then read v else field? fields name read := by
  rw [field?, Table.get?_cons]
  split <;> rfl

@[simp] theorem fieldD?_cons (key : String) (v : Value) (fields : Table Value) (name : String)
    (read : Value → Option α) (default : α) :
    fieldD? ((key, v) :: fields) name read default =
      if name = key then read v else fieldD? fields name read default := by
  by_cases h : name = key <;> simp [fieldD?, Table.get?_cons, h]

@[simp] theorem fields?_object (fields : Table Value) :
    fields? (.object fields) = some fields := rfl

@[simp] theorem string?_string (s : String) : string? (.string s) = some s := rfl

@[simp] theorem bool?_bool (b : Bool) : bool? (.bool b) = some b := rfl

@[simp] theorem choice?_choice (name : String) (content : Value) :
    choice? (choice name content) = some (name, content) := rfl

@[simp] theorem optional?_ofOptional (s : Option String) : optional? (ofOptional s) = some s := by
  cases s <;> rfl

@[simp] theorem nat?_ofNat (n : Nat) : nat? (ofNat n) = if Fits n then some n else none := by
  have hrange : 0 ≤ (n : Int) ∧ (n : Int) < Nat.pow 2 64 ↔ Fits n := by
    rw [Fits, ← Int.ofNat_lt]
    exact and_iff_right (Int.natCast_nonneg n)
  simp only [nat?, ofNat, hrange, Int.toNat_natCast]

/-- A list is read back if all its items are. -/
theorem list?_map {write : α → Value} {read? : Value → Option α} {p : α → Prop} [DecidablePred p]
    (h : ∀ x, read? (write x) = if p x then some x else none) (xs : List α) :
    list? read? (.array (xs.map write)) = if ∀ x ∈ xs, p x then some xs else none := by
  change (xs.map write).mapM read? = _
  induction xs with
  | nil => rfl
  | cons x xs ih =>
    rw [List.map_cons, List.mapM_cons, h, ih]
    by_cases hx : p x
    · by_cases hxs : ∀ y ∈ xs, p y
      · have hall : ∀ y ∈ x :: xs, p y := List.forall_mem_cons.2 ⟨hx, hxs⟩
        rw [if_pos hx, if_pos hxs, if_pos hall]
        rfl
      · have hall : ¬ ∀ y ∈ x :: xs, p y := fun hall => hxs (List.forall_mem_cons.1 hall).2
        rw [if_pos hx, if_neg hxs, if_neg hall]
        rfl
    · have hall : ¬ ∀ y ∈ x :: xs, p y := fun hall => hx (List.forall_mem_cons.1 hall).1
      rw [if_neg hx, if_neg hall]
      rfl

theorem exact_ofNat {n : Nat} (h : Fits n) : (ofNat n).Exact := by
  have hlt : (n : Int) < Nat.pow 2 64 := Int.ofNat_lt.2 h
  refine .int ⟨?_, Int.le_sub_one_of_lt hlt⟩
  exact Int.le_trans (Int.neg_nonpos_of_nonneg (Int.natCast_nonneg _)) (Int.natCast_nonneg n)

@[simp] theorem exact_ofOptional (s : Option String) : (ofOptional s).Exact := by
  cases s with
  | none => exact .null
  | some s => exact .string s

end Wire

/-! ## Records -/

-- The proofs about reading keep no step as a definitional one: to check it, the kernel would unfold
-- the bound of 64 bits.

namespace Span

/-- Whether the offsets of a span have at most 64 bits. -/
def Fits (span : Span) : Prop :=
  Wire.Fits span.start ∧ Wire.Fits span.stop
deriving Decidable

@[simp] theorem ofValue?_toValue (span : Span) :
    ofValue? span.toValue = if span.Fits then some span else none := by
  by_cases hstart : Wire.Fits span.start <;> by_cases hstop : Wire.Fits span.stop <;>
    simp -implicitDefEqProofs [ofValue?, toValue, Fits, hstart, hstop]

theorem exact_toValue {span : Span} (h : span.Fits) : span.toValue.Exact := by
  simp [toValue, Table.keys, Wire.exact_ofNat h.1, Wire.exact_ofNat h.2]

end Span

namespace Node

/-- Whether the offsets and the depth of a node have at most 64 bits. -/
def Fits : Node → Prop
  | text _ => True
  | interpolation _ _ span _ | raw _ _ span | comment _ _ span => span.Fits
  | inclusion _ _ span depth _ | helper _ _ span depth _ | close _ _ span depth =>
    span.Fits ∧ Wire.Fits depth

instance : DecidablePred Fits
  | text _ => inferInstanceAs (Decidable True)
  | interpolation _ _ span _ | raw _ _ span | comment _ _ span =>
    inferInstanceAs (Decidable span.Fits)
  | inclusion _ _ span depth _ | helper _ _ span depth _ | close _ _ span depth =>
    inferInstanceAs (Decidable (span.Fits ∧ Wire.Fits depth))

@[simp] theorem ofValue?_toValue (node : Node) :
    ofValue? node.toValue = if node.Fits then some node else none := by
  cases node with
  | text s => simp -implicitDefEqProofs [ofValue?, toValue, Fits]
  | interpolation key source span arguments
  | raw key source span
  | comment key source span =>
    by_cases hspan : span.Fits <;> simp -implicitDefEqProofs [ofValue?, toValue, Fits, hspan]
  | inclusion key source span depth arguments
  | helper key source span depth arguments
  | close key source span depth =>
    by_cases hspan : span.Fits <;> by_cases hdepth : Wire.Fits depth <;>
      simp -implicitDefEqProofs [ofValue?, toValue, Fits, hspan, hdepth]

theorem exact_toValue {node : Node} (h : node.Fits) : node.toValue.Exact := by
  cases node with
  | text s => simp [toValue, Table.keys]
  | interpolation key source span arguments
  | raw key source span
  | comment key source span => simp [toValue, Table.keys, Span.exact_toValue h]
  | inclusion key source span depth arguments
  | helper key source span depth arguments
  | close key source span depth =>
    simp [toValue, Table.keys, Span.exact_toValue h.1, Wire.exact_ofNat h.2]

theorem listOfValue?_listToValue (nodes : List Node) :
    listOfValue? (listToValue nodes) = if ∀ node ∈ nodes, node.Fits then some nodes else none :=
  Wire.list?_map ofValue?_toValue nodes

theorem exact_listToValue {nodes : List Node} (h : ∀ node ∈ nodes, node.Fits) :
    (listToValue nodes).Exact := by
  rw [listToValue, Value.exact_array_iff, List.forall_mem_map]
  exact fun node hnode => exact_toValue (h node hnode)

end Node

namespace Dialect

@[simp] theorem ofValue?_brackets (brackets : Brackets) :
    Brackets.ofValue? brackets.toValue = some brackets := rfl

@[simp] theorem char?_singleton (c : Char) : char? (.string (String.singleton c)) = some c := by
  simp [char?]

theorem ofValue?_toValue (dialect : Dialect) : ofValue? dialect.toValue = some dialect := by
  simp -implicitDefEqProofs [ofValue?, toValue]

theorem exact_toValue (dialect : Dialect) : dialect.toValue.Exact := by
  simp [toValue, Brackets.toValue, Table.keys]

end Dialect

namespace Diagnostic

/-- Whether the offsets in a diagnostic have at most 64 bits. -/
def Fits : Diagnostic → Prop
  | helperNotFound _ span | partialNotFound _ span => span.Fits

instance : DecidablePred Fits
  | helperNotFound _ span | partialNotFound _ span => inferInstanceAs (Decidable span.Fits)

theorem ofValue?_toValue (d : Diagnostic) :
    ofValue? d.toValue = if d.Fits then some d else none := by
  cases d with
  | helperNotFound name span
  | partialNotFound name span =>
    -- The content is known before the simplifier comes to the choice between the two cases.
    rw [ofValue?, toValue, Wire.choice?_choice, Option.bind_eq_bind, Option.bind_some]
    dsimp only
    rw [Wire.fields?_object, Option.bind_eq_bind, Option.bind_some]
    by_cases hspan : span.Fits <;> simp -implicitDefEqProofs [Fits, hspan]

theorem exact_toValue {d : Diagnostic} (h : d.Fits) : d.toValue.Exact := by
  cases d with
  | helperNotFound name span
  | partialNotFound name span =>
    simp [toValue, Wire.choice, Table.keys, Span.exact_toValue h]

end Diagnostic

namespace ParseErrorKind

@[simp] theorem ofValue?_toValue (kind : ParseErrorKind) : ofValue? kind.toValue = some kind := by
  cases kind <;> simp -implicitDefEqProofs [ofValue?, toValue]

@[simp] theorem exact_toValue (kind : ParseErrorKind) : kind.toValue.Exact := by
  cases kind <;> simp [toValue, Wire.choice, Table.keys]

end ParseErrorKind

namespace ParseError

/-- Whether the line and the column have at most 64 bits. -/
def Fits (e : ParseError) : Prop :=
  Wire.Fits e.line ∧ Wire.Fits e.column
deriving Decidable

@[simp] theorem ofValue?_toValue (e : ParseError) :
    ofValue? e.toValue = if e.Fits then some e else none := by
  by_cases hline : Wire.Fits e.line <;> by_cases hcolumn : Wire.Fits e.column <;>
    simp -implicitDefEqProofs [ofValue?, toValue, Fits, hline, hcolumn]

theorem exact_toValue {e : ParseError} (h : e.Fits) : e.toValue.Exact := by
  simp [toValue, Table.keys, Wire.exact_ofNat h.1, Wire.exact_ofNat h.2]

end ParseError

namespace RenderError

/-- Whether the whole numbers in an error, those of a node in it included, have at most 64 bits. -/
def Fits : RenderError → Prop
  | parse e => e.Fits
  | invalidArguments _ _ node => node.Fits
  | missingVariable _ | missingPartial _ | failed _ => True

instance : DecidablePred Fits
  | parse e => inferInstanceAs (Decidable e.Fits)
  | invalidArguments _ _ node => inferInstanceAs (Decidable node.Fits)
  | missingVariable _ | missingPartial _ | failed _ => inferInstanceAs (Decidable True)

theorem ofValue?_toValue (e : RenderError) :
    ofValue? e.toValue = if e.Fits then some e else none := by
  cases e with
  | parse e => by_cases h : e.Fits <;> simp -implicitDefEqProofs [ofValue?, toValue, Fits, h]
  | invalidArguments helper reason node =>
    by_cases h : node.Fits <;> simp -implicitDefEqProofs [ofValue?, toValue, Fits, h]
  | missingVariable path => simp -implicitDefEqProofs [ofValue?, toValue, Fits]
  | missingPartial name => simp -implicitDefEqProofs [ofValue?, toValue, Fits]
  | failed message => simp -implicitDefEqProofs [ofValue?, toValue, Fits]

theorem exact_toValue {e : RenderError} (h : e.Fits) : e.toValue.Exact := by
  cases e with
  | parse e => simp [toValue, Wire.choice, Table.keys, ParseError.exact_toValue h]
  | invalidArguments helper reason node =>
    simp [toValue, Wire.choice, Table.keys, Node.exact_toValue h]
  | missingVariable path => simp [toValue, Wire.choice, Table.keys]
  | missingPartial name => simp [toValue, Wire.choice, Table.keys]
  | failed message => simp [toValue, Wire.choice, Table.keys]

end RenderError

/-! ## Partials that are read back -/

section

variable {σ : Type}

/-- What can be seen of an outcome without looking into the store. -/
def Outcome.visible (outcome : Outcome σ) : Except RenderError String × Value × List Diagnostic :=
  (outcome.result, outcome.context, outcome.diagnostics)

namespace Engine

variable [PartialStore σ]

/-- Whether no execution and no rendering tells two engines apart. -/
def RendersAs (engine engine' : Engine σ) : Prop :=
  ∀ limit data,
    (∀ nodes, (engine.execute limit nodes data).map Outcome.visible =
      (engine'.execute limit nodes data).map Outcome.visible) ∧
    (∀ template, (engine.render limit template data).map Outcome.visible =
      (engine'.render limit template data).map Outcome.visible) ∧
    ∀ name, (engine.renderPartial limit name data).map Outcome.visible =
      (engine'.renderPartial limit name data).map Outcome.visible

theorem map_visible_eq {dialect : Dialect} {outcome outcome' : Option (Outcome σ)}
    (h : Option.Rel (Simulation.alike σ σ dialect).Agree outcome outcome') :
    outcome.map Outcome.visible = outcome'.map Outcome.visible := by
  cases h with
  | none => rfl
  | some hagree =>
    have hcontext : _ = _ := hagree.context
    simp only [Option.map_some, Outcome.visible, hagree.result, hcontext,
      hagree.diagnostics_eq fun _ => rfl]

variable [ListedPartialStore σ]

theorem Alike.rendersAs {dialect : Dialect} {engine engine' : Engine σ}
    (h : engine.Alike dialect engine') : engine.RendersAs engine' := by
  intro limit data
  exact ⟨fun nodes => map_visible_eq (h.rel_execute limit nodes data),
    fun template => map_visible_eq (h.rel_render limit template data),
    fun name => map_visible_eq (h.rel_renderPartial limit name data)⟩

/-- A partial may be registered as any source of the same nodes. -/
theorem rendersAs_registerPartial (engine : Engine σ) (name : String)
    {source source' : PartialSource}
    (h : source.parse engine.dialect = source'.parse engine.dialect) :
    (engine.registerPartial name source).RendersAs (engine.registerPartial name source') := by
  have halike : engine.Alike engine.dialect engine :=
    .intro engine.helpers engine.receiver ⟨rfl, fun _ => rfl⟩
  exact (halike.registerPartial name h).rendersAs

end Engine

/-! ## Parsed nodes -/

theorem Node.length_unclosed_le (key : String) (nodes : List Node) :
    (unclosed key nodes).length ≤ nodes.length := by
  induction nodes using List.reverseRecOn with
  | nil => simp
  | append_singleton nodes node ih =>
    rw [unclosed_concat, List.length_append, List.length_singleton]
    unfold stackAfter
    split_ifs
    · exact Nat.succ_le_succ ih
    · rw [List.length_tail]
      omega
    · omega

theorem Node.length_le_utf8ByteSize_sources {nodes : List Node}
    (h : ∀ node ∈ nodes, node.source ≠ "") : nodes.length ≤ (sources nodes).utf8ByteSize := by
  induction nodes with
  | nil => simp
  | cons node nodes ih =>
    obtain ⟨hnode, hnodes⟩ := List.forall_mem_cons.1 h
    have hpos : node.source.utf8ByteSize ≠ 0 := by
      rwa [ne_eq, String.utf8ByteSize_eq_zero_iff]
    have := ih hnodes
    rw [sources_cons, String.utf8ByteSize_append, List.length_cons]
    omega

/-- All that is counted in the nodes of a template is bounded by the size of the template. -/
theorem Template.fits_of_parse {dialect : Dialect} {template : String} {nodes : List Node}
    (h : parse dialect template = .ok nodes) (hsize : Wire.Fits template.utf8ByteSize) :
    ∀ node ∈ nodes, node.Fits := by
  intro node hnode
  have hsources := sources_of_parse h
  have hne (node : Node) (hnode : node ∈ nodes) : node.source ≠ "" := source_ne_of_parse h hnode
  have hplaced : Node.Placed 0 nodes := placed_of_nodesOf h
  have hnumbered := numbered_of_parse h
  obtain ⟨before, after, rfl⟩ := List.append_of_mem hnode
  have hbytes : (Node.sources before).utf8ByteSize + node.source.utf8ByteSize ≤
      template.utf8ByteSize := by
    rw [← hsources, Node.sources_append, Node.sources_cons, String.utf8ByteSize_append,
      String.utf8ByteSize_append]
    omega
  have hspan (span : Span) (hspan : node.span? = some span) : span.Fits := by
    obtain ⟨hstart, hstop⟩ := hplaced.span_eq hspan
    constructor <;> unfold Wire.Fits at * <;> omega
  have hblocks (key : String) : Wire.Fits (Node.unclosed key before).length := by
    have hunclosed := Node.length_unclosed_le key before
    have hbefore : before.length ≤ (Node.sources before).utf8ByteSize :=
      Node.length_le_utf8ByteSize_sources fun node hnode =>
        hne node (List.mem_append_left _ hnode)
    unfold Wire.Fits at *
    omega
  cases node with
  | text s => trivial
  | interpolation key source span arguments
  | raw key source span
  | comment key source span => exact hspan span rfl
  | inclusion key source span depth arguments
  | helper key source span depth arguments =>
    have hdepth := hnumbered.depth_of_opens before _ after key rfl
      (by simp [Node.opens, Node.opensBlock, Node.key?])
    obtain rfl : depth = _ := Option.some.inj hdepth
    exact ⟨hspan span rfl, hblocks key⟩
  | close key source span depth =>
    have hdepth : depth + 1 = _ := Option.some.inj (hnumbered.depth_of_ends before _ after key rfl
      (by simp [Node.ends, Node.isClose, Node.key?]))
    refine ⟨hspan span rfl, ?_⟩
    have := hblocks key
    unfold Wire.Fits at *
    omega

/-! ## Reading back -/

/-- A record is read back exactly if its whole numbers have at most 64 bits, as those in the nodes
of a template do. Nodes that are read back make the same partial as any source of them. -/
theorem Wire.readsBack_iff_fits [PartialStore σ] [ListedPartialStore σ] :
    (∀ span, ReadsBack Span.toValue Span.ofValue? span ↔ span.Fits) ∧
      (∀ node, ReadsBack Node.toValue Node.ofValue? node ↔ node.Fits) ∧
      (∀ nodes, ReadsBack Node.listToValue Node.listOfValue? nodes ↔ ∀ node ∈ nodes, node.Fits) ∧
      (∀ dialect, ReadsBack Dialect.toValue Dialect.ofValue? dialect) ∧
      (∀ d, ReadsBack Diagnostic.toValue Diagnostic.ofValue? d ↔ d.Fits) ∧
      (∀ kind, ReadsBack ParseErrorKind.toValue ParseErrorKind.ofValue? kind) ∧
      (∀ e, ReadsBack ParseError.toValue ParseError.ofValue? e ↔ e.Fits) ∧
      (∀ e, ReadsBack RenderError.toValue RenderError.ofValue? e ↔ e.Fits) ∧
      (∀ (engine : Engine σ) (name : String) (source : PartialSource) (nodes : List Node),
        source.parse engine.dialect = .ok nodes → (∀ node ∈ nodes, node.Fits) →
        ∃ read, (Value.ofJson? (Node.listToValue nodes).json).bind Node.listOfValue? = some read ∧
          (engine.registerPartial name (.nodes read)).RendersAs
            (engine.registerPartial name source)) ∧
      ∀ dialect template nodes, Template.parse dialect template = .ok nodes →
        Fits template.utf8ByteSize → ∀ node ∈ nodes, node.Fits := by
  have hnodes (nodes : List Node) :
      ReadsBack Node.listToValue Node.listOfValue? nodes ↔ ∀ node ∈ nodes, node.Fits :=
    readsBack_iff (Node.listOfValue?_listToValue nodes) Node.exact_listToValue
  refine ⟨fun span => readsBack_iff span.ofValue?_toValue Span.exact_toValue,
    fun node => readsBack_iff node.ofValue?_toValue Node.exact_toValue, hnodes,
    fun dialect => readsBack_of_exact dialect.ofValue?_toValue dialect.exact_toValue,
    fun d => readsBack_iff d.ofValue?_toValue Diagnostic.exact_toValue,
    fun kind => readsBack_of_exact kind.ofValue?_toValue kind.exact_toValue,
    fun e => readsBack_iff e.ofValue?_toValue ParseError.exact_toValue,
    fun e => readsBack_iff e.ofValue?_toValue RenderError.exact_toValue, ?_,
    fun dialect template nodes => Template.fits_of_parse⟩
  intro engine name source nodes hparse hfits
  exact ⟨nodes, ((hnodes nodes).2 hfits).2, engine.rendersAs_registerPartial name hparse.symm⟩

/-- An error with a node in it, and a partial of that node, with the largest offset that fits. -/
theorem Wire.readsBack_iff_fits_boxed :
    let node : Node := .helper "if" "[#if \"a\"]" ⟨0, Nat.pow 2 64 - 1⟩ 3 (some "\"a\"")
    let engine : Engine Cells := .new .standard
    ReadsBack RenderError.toValue RenderError.ofValue? (.invalidArguments "if" "none\n" node) ∧
      (∀ node' ∈ [node], node'.Fits) ∧
      ∃ read, (Value.ofJson? (Node.listToValue [node]).json).bind Node.listOfValue? = some read ∧
        (engine.registerPartial "p" (.nodes read)).RendersAs
          (engine.registerPartial "p" (.nodes [node])) := by
  intro node engine
  have hnode : node.Fits := by decide
  have hfits : ∀ node' ∈ [node], node'.Fits := List.forall_mem_singleton.2 hnode
  obtain ⟨-, -, -, -, -, -, -, herror, hpartial, -⟩ := readsBack_iff_fits (σ := Cells)
  exact ⟨(herror _).2 hnode, hfits, hpartial engine "p" (.nodes [node]) [node] rfl hfits⟩

end

end Stencil
