import Stencil.Table
import Stencil.Template.Parse

/-!
# Stores of partials

A partial is registered as text or as nodes. There are two stores: one keeps the sources and parses
a text whenever the partial is used, the other parses a text on first use and keeps what came of
it.

## Main definitions

* `PartialSource`: what a partial is registered as.
* `PartialStore`: the operations of a store.
* `LawfulPartialStore`, `ListedPartialStore`: what may be relied on about using partials and about
  their names.
* `Sources`, `Cells`: the two stores.
-/

namespace Stencil

/-- What a partial is registered as. -/
inductive PartialSource where
  /-- The text of a template. -/
  | text (template : String)
  /-- The nodes of a template that is parsed already. -/
  | nodes (parsed : List Node)
deriving DecidableEq, Repr

/-- The nodes of a partial in a dialect. -/
def PartialSource.parse (dialect : Dialect) : PartialSource → Except ParseError (List Node)
  | text template => Template.parse dialect template
  | nodes parsed => .ok parsed

/-- A store of partials by name. Using a partial may change the store. -/
class PartialStore (σ : Type) where
  empty : σ
  /-- Registers a partial, in the place of an earlier one with the same name. -/
  register : σ → String → PartialSource → σ
  /-- The nodes of a registered partial, or why it does not parse. -/
  fetch : Dialect → String → σ → Option (Except ParseError (List Node)) × σ
  names : σ → List String

/-- A store that offers what was registered last, in which the use of a partial changes nothing that
can be fetched, and in which a dialect matters only by what parsing makes of a template. -/
class LawfulPartialStore (σ : Type) [PartialStore σ] : Prop where
  fetch_empty (dialect : Dialect) (name : String) :
    (PartialStore.fetch dialect name (PartialStore.empty : σ)).1 = none
  fetch_register (dialect : Dialect) (registered : String) (source : PartialSource) (name : String)
    (store : σ) :
    (PartialStore.fetch dialect name (PartialStore.register store registered source)).1 =
      if name = registered then some (source.parse dialect)
      else (PartialStore.fetch dialect name store).1
  fetch_fetch (dialect : Dialect) (used name : String) (store : σ) :
    (PartialStore.fetch dialect name (PartialStore.fetch dialect used store).2).1 =
      (PartialStore.fetch dialect name store).1
  fetch_congr {dialect other : Dialect} (h : Template.parse dialect = Template.parse other)
    (name : String) (store : σ) :
    PartialStore.fetch dialect name store = PartialStore.fetch other name store

/-- A store that lists each name once, in order of first registration. -/
class ListedPartialStore (σ : Type) [PartialStore σ] : Prop extends LawfulPartialStore σ where
  names_empty : PartialStore.names (PartialStore.empty : σ) = []
  names_register (store : σ) (name : String) (source : PartialSource) :
    PartialStore.names (PartialStore.register store name source) =
      if name ∈ PartialStore.names store then PartialStore.names store
      else PartialStore.names store ++ [name]
  names_fetch (dialect : Dialect) (used : String) (store : σ) :
    PartialStore.names (PartialStore.fetch dialect used store).2 = PartialStore.names store
  mem_names (dialect : Dialect) (name : String) (store : σ) :
    name ∈ PartialStore.names store ↔ (PartialStore.fetch dialect name store).1.isSome

/-- A store that keeps sources only. -/
structure Sources where
  table : Table PartialSource

instance : PartialStore Sources where
  empty := ⟨[]⟩
  register store name source := ⟨Table.insert store.table name source⟩
  fetch dialect name store := ((Table.get? store.table name).map (·.parse dialect), store)
  names store := Table.keys store.table

theorem PartialSource.parse_congr {dialect other : Dialect}
    (h : Template.parse dialect = Template.parse other) (source : PartialSource) :
    source.parse dialect = source.parse other := by
  cases source with
  | text template => exact congrFun h template
  | nodes parsed => rfl

instance : LawfulPartialStore Sources where
  fetch_empty _ _ := rfl
  fetch_register dialect registered source name store := by
    simp only [PartialStore.fetch, PartialStore.register, Table.get?_insert]
    split <;> rfl
  fetch_fetch _ _ _ _ := rfl
  fetch_congr h name store := by
    simp only [PartialStore.fetch, PartialSource.parse_congr h]

instance : ListedPartialStore Sources where
  names_empty := rfl
  names_register store name source := Table.keys_insert store.table name source
  names_fetch _ _ _ := rfl
  mem_names dialect name store := by
    simp only [PartialStore.names, PartialStore.fetch, Option.isSome_map]
    exact (Table.contains_eq_true_iff store.table name).symm

/-- A source with what came of parsing it, once it has been parsed. -/
structure Cell where
  source : PartialSource
  parsed : Option (Except ParseError (List Node))

namespace Cell

/-- The cell of a source. Nodes count as parsed. -/
def ofSource (source : PartialSource) : Cell :=
  match source with
  | .text _ => ⟨source, none⟩
  | .nodes parsed => ⟨source, some (.ok parsed)⟩

/-- The nodes of the partial: those that are kept, else those of its source. -/
def nodes (dialect : Dialect) (cell : Cell) : Except ParseError (List Node) :=
  cell.parsed.getD (cell.source.parse dialect)

/-- The cell with its nodes kept. -/
def fill (dialect : Dialect) (cell : Cell) : Cell :=
  { cell with parsed := some (cell.nodes dialect) }

end Cell

/-- A store that parses each source once. -/
structure Cells where
  table : Table Cell

instance : PartialStore Cells where
  empty := ⟨[]⟩
  register store name source := ⟨Table.insert store.table name (Cell.ofSource source)⟩
  fetch dialect name store :=
    match Table.get? store.table name with
    | none => (none, store)
    | some cell =>
      (some (cell.nodes dialect), ⟨Table.insert store.table name (cell.fill dialect)⟩)
  names store := Table.keys store.table

@[simp] theorem Cell.nodes_fill (dialect : Dialect) (cell : Cell) :
    (cell.fill dialect).nodes dialect = cell.nodes dialect := rfl

theorem Cells.fst_fetch (dialect : Dialect) (name : String) (store : Cells) :
    (PartialStore.fetch dialect name store).1 =
      (Table.get? store.table name).map (·.nodes dialect) := by
  simp only [PartialStore.fetch]
  cases Table.get? store.table name <;> rfl

theorem Cell.nodes_ofSource (dialect : Dialect) (source : PartialSource) :
    (ofSource source).nodes dialect = source.parse dialect := by
  cases source <;> rfl

instance : LawfulPartialStore Cells where
  fetch_empty _ _ := rfl
  fetch_register dialect registered source name store := by
    rw [Cells.fst_fetch, Cells.fst_fetch]
    simp only [PartialStore.register, Table.get?_insert]
    split
    · rw [Option.map_some, Cell.nodes_ofSource]
    · rfl
  fetch_fetch dialect used name store := by
    rw [Cells.fst_fetch, Cells.fst_fetch]
    simp only [PartialStore.fetch]
    cases hcell : Table.get? store.table used with
    | none => rfl
    | some cell =>
      rw [Table.get?_insert]
      split
      · next heq => simp [heq, hcell]
      · rfl
  fetch_congr h name store := by
    have hnodes (cell : Cell) := congrArg cell.parsed.getD (cell.source.parse_congr h)
    simp only [PartialStore.fetch, Cell.fill, Cell.nodes, hnodes]

instance : ListedPartialStore Cells where
  names_empty := rfl
  names_register store name source := Table.keys_insert store.table name (Cell.ofSource source)
  names_fetch dialect used store := by
    simp only [PartialStore.fetch]
    cases hcell : Table.get? store.table used with
    | none => rfl
    | some cell =>
      have hmem : used ∈ Table.keys store.table := by
        rw [← Table.contains_eq_true_iff, Table.contains, hcell]
        rfl
      exact (Table.keys_insert store.table used (cell.fill dialect)).trans (if_pos hmem)
  mem_names dialect name store := by
    rw [Cells.fst_fetch, Option.isSome_map]
    exact (Table.contains_eq_true_iff store.table name).symm

end Stencil
