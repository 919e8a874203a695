import Mathlib.Data.List.Basic
import Stencil.Render.Scope

/-!
# Binding several names

Names that are bound one after the other end up with the last value given, or with the first one if
bound names are passed over, and those that were not bound before follow behind the others in the
order in which they first come up. Names that are bound twice, by two lists of the same names, are
bound as by the second list alone.

## Main definitions

* `Table.complete`: binding everything that another table binds, without overwriting.

## Main results

* `Table.get?_extend`, `Table.get?_complete`: what a string is bound to.
* `Table.keys_extend`, `Table.keys_complete`: which strings are bound, and in which order.
* `Table.extend_extend`, `Table.complete_complete`: binding the same names again.
-/

namespace Stencil

namespace Table

variable {α : Type} {table pairs pairs' : Table α} {key other : String}

/-- Binds everything that `other` binds, in its order, but for what is bound already. -/
def complete (table other : Table α) : Table α :=
  other.foldl (fun t binding => insertNew t binding.1 binding.2) table

theorem keys_cons (pair : String × α) (rest : Table α) :
    keys (pair :: rest) = pair.1 :: keys rest := rfl

theorem keys_reverse (table : Table α) : keys table.reverse = (keys table).reverse :=
  List.map_reverse

theorem extend_cons (table : Table α) (pair : String × α) (rest : Table α) :
    extend table (pair :: rest) = extend (insert table pair.1 pair.2) rest := rfl

theorem complete_cons (table : Table α) (pair : String × α) (rest : Table α) :
    complete table (pair :: rest) = complete (insertNew table pair.1 pair.2) rest := rfl

/-! ## What is bound -/

theorem get?_eq_none_iff : get? table key = none ↔ key ∉ keys table := by
  rw [← contains_eq_true_iff, contains, Option.not_isSome_iff_eq_none]

/-- The order of the bindings does not matter if no string is bound twice. -/
theorem get?_reverse (hkeys : (keys table).Nodup) (key : String) :
    get? table.reverse key = get? table key := by
  cases h : get? table key with
  | none =>
    rw [get?_eq_none_iff] at h ⊢
    rwa [keys_reverse, List.mem_reverse]
  | some entry =>
    refine get?_of_mem ?_ (List.mem_reverse.2 (mem_of_get?_eq_some h))
    rw [keys_reverse]
    exact (List.reverse_perm _).nodup_iff.2 hkeys

/-- Among several values the last one counts. -/
theorem get?_extend (table pairs : Table α) (name : String) :
    get? (extend table pairs) name = (get? pairs.reverse name).or (get? table name) := by
  induction pairs generalizing table with
  | nil => rfl
  | cons pair rest ih =>
    have hlast : get? (pair :: rest).reverse name =
        (get? rest.reverse name).or (get? [pair] name) := by
      rw [List.reverse_cons]
      exact List.lookup_append
    rw [extend_cons, ih, get?_insert, hlast, Option.or_assoc, get?_cons, get?_nil]
    split <;> rfl

/-- Among several values the first one counts, unless there was one before. -/
theorem get?_complete (table pairs : Table α) (name : String) :
    get? (complete table pairs) name = (get? table name).or (get? pairs name) := by
  induction pairs generalizing table with
  | nil => exact Option.or_none.symm
  | cons pair rest ih =>
    rw [complete_cons, ih, get?_insertNew, get?_cons, contains]
    by_cases hname : name = pair.1
    · cases h : get? table pair.1 <;> simp [hname, h]
    · simp [hname]

/-! ## The order of the names -/

theorem keys_insertNew (table : Table α) (key : String) (entry : α) :
    keys (insertNew table key entry) =
      if key ∈ keys table then keys table else keys table ++ [key] := by
  unfold insertNew
  split
  · next h => rw [if_pos ((contains_eq_true_iff table key).1 h)]
  · exact keys_insert table key entry

/-- New names follow in the order in which they first come up. -/
theorem keys_foldl {step : Table α → String × α → Table α}
    (hstep : ∀ table pair, keys (step table pair) =
      if pair.1 ∈ keys table then keys table else keys table ++ [pair.1])
    (table pairs : Table α) :
    keys (pairs.foldl step table) =
      keys table ++ ((keys pairs).filter (· ∉ keys table)).eraseDups := by
  induction pairs generalizing table with
  | nil => simp [keys]
  | cons pair rest ih =>
    rw [List.foldl_cons, ih, hstep, keys_cons]
    by_cases hmem : pair.1 ∈ keys table
    · simp [hmem]
    · have hlater : (keys rest).filter (· ∉ keys table ++ [pair.1]) =
          ((keys rest).filter (· ∉ keys table)).filter fun name => !name == pair.1 := by
        rw [List.filter_filter]
        refine List.filter_congr fun name _ => ?_
        by_cases hname : name = pair.1 <;> simp [hname]
      rw [if_neg hmem, hlater, List.filter_cons_of_pos (by simpa using hmem), List.eraseDups_cons,
        List.append_assoc, List.singleton_append]

theorem keys_extend (table pairs : Table α) :
    keys (extend table pairs) =
      keys table ++ ((keys pairs).filter (· ∉ keys table)).eraseDups :=
  keys_foldl (fun table pair => keys_insert table pair.1 pair.2) table pairs

theorem keys_complete (table pairs : Table α) :
    keys (complete table pairs) =
      keys table ++ ((keys pairs).filter (· ∉ keys table)).eraseDups :=
  keys_foldl (fun table pair => keys_insertNew table pair.1 pair.2) table pairs

theorem mem_keys_extend :
    key ∈ keys (extend table pairs) ↔ key ∈ keys table ∨ key ∈ keys pairs := by
  rw [keys_extend, List.mem_append, List.mem_eraseDups, List.mem_filter]
  by_cases h : key ∈ keys table <;> simp [h]

theorem mem_keys_complete :
    key ∈ keys (complete table pairs) ↔ key ∈ keys table ∨ key ∈ keys pairs := by
  rw [keys_complete, ← keys_extend, mem_keys_extend]

/-! ## Binding the same names again -/

/-- What is bound already is passed over. -/
theorem complete_eq_self (h : keys pairs ⊆ keys table) : complete table pairs = table := by
  induction pairs with
  | nil => rfl
  | cons pair rest ih =>
    rw [keys_cons, List.cons_subset] at h
    rw [complete_cons, insertNew, if_pos ((contains_eq_true_iff _ _).2 h.1), ih h.2]

theorem complete_complete (h : keys pairs = keys pairs') (table : Table α) :
    complete (complete table pairs) pairs' = complete table pairs :=
  complete_eq_self fun _ hname => mem_keys_complete.2 (.inr (h ▸ hname))

end Table

end Stencil
