/-!
# Tables

A table binds strings to entries and remembers the order in which they were first bound. Binding a
string again keeps its place.

## Main definitions

* `Table.get?`, `Table.keys`: what a table binds.
* `Table.insert`, `Table.insertNew`, `Table.extend`: binding with and without overwriting, and
  binding everything that another table binds.
-/

namespace Stencil

/-- Bindings of strings in order of first insertion. -/
abbrev Table (α : Type) := List (String × α)

namespace Table

variable {α : Type}

def get? (table : Table α) (key : String) : Option α :=
  table.lookup key

def keys (table : Table α) : List String :=
  table.map Prod.fst

def contains (table : Table α) (key : String) : Bool :=
  (get? table key).isSome

/-- Binds `key` to `entry`: in its place if it is bound, else at the end. -/
def insert (table : Table α) (key : String) (entry : α) : Table α :=
  match table with
  | [] => [(key, entry)]
  | (k, e) :: rest => if key = k then (k, entry) :: rest else (k, e) :: insert rest key entry

/-- Binds `key` to `entry` unless it is bound already. -/
def insertNew (table : Table α) (key : String) (entry : α) : Table α :=
  if contains table key then table else insert table key entry

/-- Binds everything that `other` binds, in its order. -/
def extend (table other : Table α) : Table α :=
  other.foldl (fun t binding => insert t binding.1 binding.2) table

/-! ## What is bound -/

@[simp] theorem get?_nil (key : String) : get? ([] : Table α) key = none := rfl

theorem get?_cons (k : String) (e : α) (rest : Table α) (key : String) :
    get? ((k, e) :: rest) key = if key = k then some e else get? rest key := by
  by_cases h : key = k
  · simp [get?, h]
  · simp [get?, List.lookup_cons, h, beq_eq_false_iff_ne.2 h]

/-- What a string is bound to stands in the table. -/
theorem mem_of_get?_eq_some {table : Table α} {key : String} {entry : α}
    (h : get? table key = some entry) : (key, entry) ∈ table := by
  induction table with
  | nil => simp at h
  | cons binding rest ih =>
    obtain ⟨k, e⟩ := binding
    rw [get?_cons] at h
    split at h
    · next heq => simp [heq, Option.some.inj h]
    · exact List.mem_cons_of_mem _ (ih h)

/-- What stands in the table is what its string is bound to, unless the string stands there twice. -/
theorem get?_of_mem {table : Table α} {key : String} {entry : α} (hkeys : (keys table).Nodup)
    (hmem : (key, entry) ∈ table) : get? table key = some entry := by
  induction table with
  | nil => contradiction
  | cons binding rest ih =>
    obtain ⟨k, e⟩ := binding
    obtain ⟨hk, hrest⟩ := List.nodup_cons.1 hkeys
    rw [get?_cons]
    rcases List.mem_cons.1 hmem with heq | hmem
    · grind
    · have hne : key ≠ k := fun heq => hk (heq ▸ List.mem_map.2 ⟨_, hmem, rfl⟩)
      rw [if_neg hne, ih hrest hmem]

/-- A bound string is bound to what was bound to it last. -/
theorem get?_insert (table : Table α) (key key' : String) (entry : α) :
    get? (insert table key entry) key' = if key' = key then some entry else get? table key' := by
  fun_induction insert table key entry <;> grind [get?_cons, get?_nil]

/-- Binding keeps the order of the bound strings and puts a new one last. -/
theorem keys_insert (table : Table α) (key : String) (entry : α) :
    keys (insert table key entry) =
      if key ∈ keys table then keys table else keys table ++ [key] := by
  fun_induction insert table key entry <;> grind [keys]

/-- A string is bound if it is among the bound strings. -/
theorem contains_eq_true_iff (table : Table α) (key : String) :
    contains table key = true ↔ key ∈ keys table := by
  induction table with
  | nil => simp [contains, keys]
  | cons binding rest ih =>
    obtain ⟨k, e⟩ := binding
    by_cases h : key = k <;> simp_all [contains, keys, get?_cons]

/-- Binding without overwriting changes only what was not bound. -/
theorem get?_insertNew (table : Table α) (key key' : String) (entry : α) :
    get? (insertNew table key entry) key' =
      if key' = key ∧ contains table key = false then some entry else get? table key' := by
  by_cases h : contains table key = true <;> simp [insertNew, h, get?_insert]

end Table

end Stencil
