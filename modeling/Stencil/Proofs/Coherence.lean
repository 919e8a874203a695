import Mathlib.Data.List.Perm.Subperm
import Mathlib.Order.Compare
import Mathlib.Tactic.Common
import Stencil.Condition.Basic
import Stencil.Proofs.Bindings

/-!
# Coherence of comparisons

Equality and order are two functions: numbers are equal by the quantity of their nearest doubles,
other values by sameness, and only numbers and strings are ordered. The six comparisons fit together
all the same. Equality is an equivalence relation that does not see the order of fields, and on two
numbers or two strings it is what neither less nor greater is.

The first half goes by `Value.loosened`: equality is sameness of values whose outermost number has
been rounded, so that the laws of sameness, proved by induction on values, carry over.

## Main definitions

* `Value.Reordered`: values that differ in the order of their fields alone.
* `Value.loosened`: a value as it enters the equality of conditions.
* `Value.Comparable`: two numbers or two strings.
* `Comparison.Coherent`: what six comparisons have to satisfy to fit together.
-/

namespace Stencil

/-! ## Lookups side by side -/

section

variable {α : Type} {R : α → α → Prop} {o o' o'' : Option α}

theorem rel_of_eq_none_iff (hnone : o = none ↔ o' = none)
    (h : ∀ a b, o = some a → o' = some b → R a b) : Option.Rel R o o' := by
  cases o <;> cases o' <;> simp_all

theorem rel_refl (h : ∀ a, o = some a → R a a) : Option.Rel R o o := by
  cases o with
  | none => exact .none
  | some a => exact .some (h a rfl)

theorem rel_symm (h : Option.Rel R o o') (hR : ∀ a b, o = some a → o' = some b → R a b → R b a) :
    Option.Rel R o' o := by
  cases h with
  | none => exact .none
  | some h => exact .some (hR _ _ rfl rfl h)

theorem rel_trans (h : Option.Rel R o o') (h' : Option.Rel R o' o'')
    (hR : ∀ a b c, o = some a → o' = some b → o'' = some c → R a b → R b c → R a c) :
    Option.Rel R o o'' := by
  cases h with
  | none => exact h'
  | some h =>
    cases h' with
    | some h' => exact .some (hR _ _ _ rfl rfl rfl h h')

theorem eq_none_iff_of_rel (h : Option.Rel R o o') : o = none ↔ o' = none := by
  cases h <;> simp

theorem exists_eq_some_of_rel {a : α} (h : Option.Rel R (some a) o') :
    ∃ b, o' = some b ∧ R a b := by
  cases h with
  | some h => exact ⟨_, rfl, h⟩

end

namespace Value

/-- Induction on a value whose items and fields have the property already. -/
@[elab_as_elim]
theorem partsInduction {P : Value → Prop} (null : P null) (bool : ∀ b, P (bool b))
    (number : ∀ n, P (number n)) (string : ∀ s, P (string s))
    (array : ∀ items, (∀ item ∈ items, P item) → P (array items))
    (object : ∀ fields, (∀ binding ∈ fields, P binding.2) → P (object fields)) (v : Value) : P v :=
  @Value.rec P (fun items => ∀ item ∈ items, P item) (fun fields => ∀ binding ∈ fields, P binding.2)
    (fun binding => P binding.2) null bool number string array object (List.forall_mem_nil _)
    (fun _ _ hfirst hrest => List.forall_mem_cons.2 ⟨hfirst, hrest⟩) (List.forall_mem_nil _)
    (fun _ _ hfirst hrest => List.forall_mem_cons.2 ⟨hfirst, hrest⟩) (fun _ _ h => h) v

/-! ## Sameness -/

theorem same_array_iff {as bs : List Value} :
    (array as).same (array bs) ↔
      ∀ i : Nat, Option.Rel (fun a b : Value => a.same b) as[i]? bs[i]? := by
  rw [same]
  induction as generalizing bs with
  | nil =>
    cases bs with
    | nil => exact iff_of_true rfl fun _ => .none
    | cons b bs => exact iff_of_false (by simp [itemsSame]) fun h => nomatch h 0
  | cons a as ih =>
    cases bs with
    | nil => exact iff_of_false (by simp [itemsSame]) fun h => nomatch h 0
    | cons b bs =>
      rw [itemsSame, Bool.and_eq_true, ih]
      constructor
      · rintro ⟨hfirst, hrest⟩ (_ | i)
        · exact .some hfirst
        · exact hrest i
      · intro h
        obtain ⟨_, heq, hfirst⟩ := exists_eq_some_of_rel (h 0)
        obtain rfl := Option.some.inj heq
        exact ⟨hfirst, fun i => h (i + 1)⟩

theorem fieldsSame_iff {as bs : Table Value} :
    fieldsSame as bs ↔
      ∀ binding ∈ as, ∃ b, Table.get? bs binding.1 = some b ∧ binding.2.same b := by
  induction as with
  | nil => simp [fieldsSame]
  | cons binding as ih =>
    obtain ⟨key, a⟩ := binding
    rw [fieldsSame, Bool.and_eq_true, ih, List.forall_mem_cons]
    refine and_congr_left fun _ => ?_
    cases Table.get? bs key <;> simp

theorem same_object_iff {as bs : Table Value} (has : (Table.keys as).Nodup)
    (hbs : (Table.keys bs).Nodup) :
    (object as).same (object bs) ↔
      ∀ key, Option.Rel (fun a b : Value => a.same b) (Table.get? as key) (Table.get? bs key) := by
  have hlength (table : Table Value) : (Table.keys table).length = List.length table :=
    List.length_map _
  rw [same, Bool.and_eq_true, beq_iff_eq, fieldsSame_iff]
  constructor
  · rintro ⟨hsize, hfields⟩ key
    -- Only fields on the left are looked up, and the sizes leave no room for others on the right.
    have hsubset : Table.keys as ⊆ Table.keys bs := by
      intro k hk
      obtain ⟨binding, hmem, rfl⟩ := List.mem_map.1 hk
      obtain ⟨b, hb, -⟩ := hfields binding hmem
      exact List.mem_map.2 ⟨_, Table.mem_of_get?_eq_some hb, rfl⟩
    have hperm : (Table.keys as).Perm (Table.keys bs) := by
      refine (List.Nodup.subperm has hsubset).perm_of_length_le (Nat.le_of_eq ?_)
      rw [hlength, hlength, hsize]
    cases ha : Table.get? as key with
    | none =>
      rw [Table.get?_eq_none_iff, hperm.mem_iff, ← Table.get?_eq_none_iff] at ha
      rw [ha]
      exact .none
    | some a =>
      obtain ⟨b, hb, hsame⟩ := hfields _ (Table.mem_of_get?_eq_some ha)
      exact hb ▸ .some hsame
  · intro h
    have hbound (key : String) : key ∈ Table.keys as ↔ key ∈ Table.keys bs := by
      rw [← not_iff_not, ← Table.get?_eq_none_iff, ← Table.get?_eq_none_iff]
      exact eq_none_iff_of_rel (h key)
    refine ⟨?_, fun (key, a) hmem => ?_⟩
    · rw [← hlength as, ((List.perm_ext_iff_of_nodup has hbs).2 hbound).length_eq, hlength]
    · have hrel := h key
      rw [Table.get?_of_mem has hmem] at hrel
      exact exists_eq_some_of_rel hrel

theorem same_refl {a : Value} (h : a.WellFormed) : a.same a := by
  induction a using partsInduction with
  | null | bool | string => simp [same]
  | number n => cases n <;> simp [same, Number.same]
  | array items ih =>
    rw [same_array_iff]
    intro i
    exact rel_refl fun a ha => ih a (List.mem_of_getElem? ha)
      (wellFormed_array_iff.1 h a (List.mem_of_getElem? ha))
  | object fields ih =>
    have hkeys := (wellFormed_object_iff.1 h).1
    rw [same_object_iff hkeys hkeys]
    exact fun key => rel_refl fun a ha => ih _ (Table.mem_of_get?_eq_some ha) (h.of_get? ha)

theorem same_symm {a b : Value} (ha : a.WellFormed) (hb : b.WellFormed) (h : a.same b) :
    b.same a := by
  induction a using partsInduction generalizing b with
  | null | bool | string => cases b <;> simp_all [same]
  | number m =>
    cases b with
    | number n => cases m <;> cases n <;> simp_all [same, Number.same]
    | _ => simp [same] at h
  | array as ih =>
    cases b with
    | array bs =>
      rw [same_array_iff] at h ⊢
      rw [wellFormed_array_iff] at ha hb
      intro i
      refine rel_symm (h i) fun a b has hbs => ?_
      have hmem := List.mem_of_getElem? has
      exact ih a hmem (ha a hmem) (hb b (List.mem_of_getElem? hbs))
    | _ => simp [same] at h
  | object as ih =>
    cases b with
    | object bs =>
      have has := (wellFormed_object_iff.1 ha).1
      have hbs := (wellFormed_object_iff.1 hb).1
      rw [same_object_iff has hbs] at h
      rw [same_object_iff hbs has]
      intro key
      refine rel_symm (h key) fun a b hka hkb => ?_
      exact ih _ (Table.mem_of_get?_eq_some hka) (ha.of_get? hka) (hb.of_get? hkb)
    | _ => simp [same] at h

theorem same_trans {a b c : Value} (ha : a.WellFormed) (hb : b.WellFormed) (hc : c.WellFormed)
    (hab : a.same b) (hbc : b.same c) : a.same c := by
  induction a using partsInduction generalizing b c with
  | null | bool | string => cases b <;> cases c <;> simp_all [same]
  | number m =>
    cases b with
    | number n =>
      cases c with
      | number k => cases m <;> cases n <;> cases k <;> simp_all [same, Number.same]
      | _ => simp [same] at hbc
    | _ => simp [same] at hab
  | array as ih =>
    cases b with
    | array bs =>
      cases c with
      | array cs =>
        rw [same_array_iff] at hab hbc ⊢
        rw [wellFormed_array_iff] at ha hb hc
        intro i
        refine rel_trans (hab i) (hbc i) fun a b c has hbs hcs => ?_
        have hmem := List.mem_of_getElem? has
        exact ih a hmem (ha a hmem) (hb b (List.mem_of_getElem? hbs))
          (hc c (List.mem_of_getElem? hcs))
      | _ => simp [same] at hbc
    | _ => simp [same] at hab
  | object as ih =>
    cases b with
    | object bs =>
      cases c with
      | object cs =>
        have has := (wellFormed_object_iff.1 ha).1
        have hbs := (wellFormed_object_iff.1 hb).1
        have hcs := (wellFormed_object_iff.1 hc).1
        rw [same_object_iff has hbs] at hab
        rw [same_object_iff hbs hcs] at hbc
        rw [same_object_iff has hcs]
        intro key
        refine rel_trans (hab key) (hbc key) fun a b c hka hkb hkc => ?_
        exact ih _ (Table.mem_of_get?_eq_some hka) (ha.of_get? hka) (hb.of_get? hkb)
          (hc.of_get? hkc)
      | _ => simp [same] at hbc
    | _ => simp [same] at hab

/-! ## The order of fields -/

/-- Whether one value is another with the fields of objects, at any nesting, in another order. -/
inductive Reordered : Value → Value → Prop
  | refl (a : Value) : Reordered a a
  | array {as bs : List Value} (hlength : as.length = bs.length)
    (h : ∀ (i : Nat) a b, as[i]? = some a → bs[i]? = some b → Reordered a b) :
    Reordered (array as) (array bs)
  | object {as bs : Table Value} (hkeys : (Table.keys as).Perm (Table.keys bs))
    (h : ∀ key a b, Table.get? as key = some a → Table.get? bs key = some b → Reordered a b) :
    Reordered (object as) (object bs)

theorem Reordered.wellFormed {a b : Value} (h : Reordered a b) (ha : a.WellFormed) :
    b.WellFormed := by
  induction h with
  | refl a => exact ha
  | @array as bs hlength h ih =>
    rw [wellFormed_array_iff] at ha ⊢
    intro b hb
    obtain ⟨i, hi, rfl⟩ := List.getElem_of_mem hb
    have hia : i < as.length := by omega
    exact ih i as[i] bs[i] (List.getElem?_eq_getElem hia) (List.getElem?_eq_getElem hi)
      (ha _ (List.getElem_mem hia))
  | @object as bs hkeys h ih =>
    have hbs := hkeys.nodup_iff.1 (wellFormed_object_iff.1 ha).1
    refine wellFormed_object_iff.2 ⟨hbs, fun (key, b) hb => ?_⟩
    have hget := Table.get?_of_mem hbs hb
    cases hka : Table.get? as key with
    | none =>
      rw [Table.get?_eq_none_iff, hkeys.mem_iff, ← Table.get?_eq_none_iff, hget] at hka
      contradiction
    | some a => exact ih key a b hka hget (ha.of_get? hka)

theorem Reordered.same {a b : Value} (h : Reordered a b) (ha : a.WellFormed) : a.same b := by
  induction h with
  | refl a => exact same_refl ha
  | @array as bs hlength h ih =>
    rw [wellFormed_array_iff] at ha
    rw [same_array_iff]
    intro i
    refine rel_of_eq_none_iff (by simp [hlength]) fun a b hia hib => ?_
    exact ih i a b hia hib (ha a (List.mem_of_getElem? hia))
  | @object as bs hkeys h ih =>
    have has := (wellFormed_object_iff.1 ha).1
    rw [same_object_iff has (hkeys.nodup_iff.1 has)]
    intro key
    refine rel_of_eq_none_iff ?_ fun a b hka hkb => ih key a b hka hkb (ha.of_get? hka)
    rw [Table.get?_eq_none_iff, Table.get?_eq_none_iff, hkeys.mem_iff]

/-! ## Equality -/

/-- A value as it enters the equality of conditions: a number is rounded to its nearest double. -/
def loosened : Value → Value
  | number n => number (.float n.toDouble)
  | v => v

theorem equals_eq_same_loosened (a b : Value) : a.equals b = a.loosened.same b.loosened := by
  cases a <;> cases b <;> simp [equals, loosened, same, Number.same, Number.units]

theorem wellFormed_loosened {a : Value} (h : a.WellFormed) : a.loosened.WellFormed := by
  cases a <;> simp_all [loosened, WellFormed]

theorem loosened_same_of_same {a b : Value} (h : a.same b) : a.loosened.same b.loosened := by
  cases a <;> cases b <;> try exact h
  case number m n => cases m <;> cases n <;> simp_all [same, loosened, Number.same, Number.toDouble]

theorem Reordered.order?_eq {a a' b b' : Value} (ha : Reordered a a') (hb : Reordered b b') :
    a.order? b = a'.order? b' := by
  cases ha with
  | refl a =>
    cases hb with
    | refl b => rfl
    | array | object => cases a <;> rfl
  | array | object => rfl

/-- Whether two values are both numbers or both strings. -/
def Comparable : Value → Value → Prop
  | number _, number _ | string _, string _ => True
  | _, _ => False

theorem comparable_iff {a b : Value} : Comparable a b ↔ ∃ order, a.order? b = some order := by
  cases a <;> cases b <;> simp [Comparable, order?]

theorem equals_eq_of_order? {a b : Value} {order : Ordering} (h : a.order? b = some order) :
    a.equals b = (order == .eq) := by
  cases a <;> cases b <;> simp [order?] at h
  all_goals subst h; rw [Bool.eq_iff_iff]; simp [equals, same]

theorem order?_swap (a b : Value) : b.order? a = (a.order? b).map Ordering.swap := by
  cases a <;> cases b <;> simp [order?, ← Std.OrientedCmp.eq_swap]

theorem order?_trans {a b c : Value} (hab : a.order? b = some .lt) (hbc : b.order? c = some .lt) :
    a.order? c = some .lt := by
  cases a <;> cases b <;> cases c <;> simp [order?] at hab hbc ⊢
  all_goals exact Std.TransCmp.lt_trans hab hbc

end Value

namespace Comparison

open Value

/-- Whether a comparison holds between things in some order. -/
def admits (comparison : Comparison) (order : Ordering) : Bool :=
  match comparison with
  | equal => order == .eq
  | different => order != .eq
  | less => order == .lt
  | lessOrEqual => order != .gt
  | greater => order == .gt
  | greaterOrEqual => order != .lt

theorem holds_of_order? {a b : Value} {order : Ordering} (h : a.order? b = some order)
    (comparison : Comparison) : comparison.holds a b = comparison.admits order := by
  have hequals := equals_eq_of_order? h
  cases comparison <;> cases order <;> simp [holds, admits, h, hequals]

theorem existsUnique_admits (order : Ordering) :
    ∃! comparison, comparison ∈ [less, equal, greater] ∧ comparison.admits order := by
  have hunique : ∀ c ∈ [less, equal, greater], ∀ c' ∈ [less, equal, greater],
      c.admits order → c'.admits order → c = c' := by
    cases order <;> decide
  have hsome : ∃ c ∈ [less, equal, greater], c.admits order := by
    cases order <;> decide
  obtain ⟨comparison, hmem, hadmits⟩ := hsome
  exact ⟨comparison, ⟨hmem, hadmits⟩, fun c ⟨hc, h⟩ => hunique c hc comparison hmem h hadmits⟩

/-! ## The laws -/

/-- Whether six comparisons fit together as an equivalence relation of values and an order of
numbers and of strings. -/
structure Coherent (holds : Comparison → Value → Value → Bool) : Prop where
  /-- Equality is reflexive, symmetric and transitive. -/
  equivalence : Equivalence fun a b : {v : Value // v.WellFormed} => holds equal a b
  /-- No comparison sees the order of the fields of an object. -/
  reordered {a a' b b' : Value} (ha : a.WellFormed) (hb : b.WellFormed) (haa' : Reordered a a')
    (hbb' : Reordered b b') (comparison : Comparison) :
    holds comparison a b = holds comparison a' b'
  different_eq (a b : Value) : holds different a b = !holds equal a b
  /-- Of two numbers or two strings the first one is either less or equal or greater. -/
  trichotomy {a b : Value} (h : Comparable a b) :
    ∃! comparison, comparison ∈ [less, equal, greater] ∧ holds comparison a b
  lessOrEqual_eq {a b : Value} (h : Comparable a b) :
    holds lessOrEqual a b = (holds less a b || holds equal a b)
  greaterOrEqual_eq {a b : Value} (h : Comparable a b) :
    holds greaterOrEqual a b = (holds greater a b || holds equal a b)
  greater_eq (a b : Value) : holds greater b a = holds less a b
  less_trans {a b c : Value} (hab : holds less a b) (hbc : holds less b c) : holds less a c
  /-- No other values are in any order. -/
  unordered {a b : Value} (h : ¬ Comparable a b) :
    ∀ comparison ∈ [less, lessOrEqual, greater, greaterOrEqual], holds comparison a b = false

theorem equivalence_equals :
    Equivalence fun a b : {v : Value // v.WellFormed} => (a : Value).equals b := by
  simp only [equals_eq_same_loosened]
  exact {
    refl := fun a => same_refl (wellFormed_loosened a.2)
    symm := fun {a b} h => same_symm (wellFormed_loosened a.2) (wellFormed_loosened b.2) h
    trans := fun {a b c} h h' => same_trans (wellFormed_loosened a.2) (wellFormed_loosened b.2)
      (wellFormed_loosened c.2) h h' }

theorem equals_eq_of_reordered {a a' b b' : Value} (ha : a.WellFormed) (hb : b.WellFormed)
    (haa' : Reordered a a') (hbb' : Reordered b b') : a.equals b = a'.equals b' := by
  have hequals {v v' : Value} (hv : v.WellFormed) (h : Reordered v v') : v.equals v' := by
    rw [equals_eq_same_loosened]
    exact loosened_same_of_same (h.same hv)
  let x : {v : Value // v.WellFormed} := ⟨a, ha⟩
  let y : {v : Value // v.WellFormed} := ⟨b, hb⟩
  let x' : {v : Value // v.WellFormed} := ⟨a', haa'.wellFormed ha⟩
  let y' : {v : Value // v.WellFormed} := ⟨b', hbb'.wellFormed hb⟩
  have hx : x.1.equals x' := hequals ha haa'
  have hy : y.1.equals y' := hequals hb hbb'
  rw [Bool.eq_iff_iff]
  constructor
  · intro h
    exact equivalence_equals.trans (equivalence_equals.trans (equivalence_equals.symm hx) h) hy
  · intro h
    exact equivalence_equals.trans (equivalence_equals.trans hx h) (equivalence_equals.symm hy)

/-- The comparisons of conditions are coherent. -/
theorem coherent_holds : Coherent holds where
  equivalence := equivalence_equals
  reordered ha hb haa' hbb' comparison := by
    have hequals := equals_eq_of_reordered ha hb haa' hbb'
    have horder := haa'.order?_eq hbb'
    cases comparison <;> simp only [holds, hequals, horder]
  different_eq _ _ := rfl
  trichotomy h := by
    obtain ⟨order, horder⟩ := comparable_iff.1 h
    simpa only [holds_of_order? horder] using existsUnique_admits order
  lessOrEqual_eq h := by
    obtain ⟨order, horder⟩ := comparable_iff.1 h
    simp only [holds_of_order? horder]
    cases order <;> rfl
  greaterOrEqual_eq h := by
    obtain ⟨order, horder⟩ := comparable_iff.1 h
    simp only [holds_of_order? horder]
    cases order <;> rfl
  greater_eq a b := by
    rw [holds, holds, order?_swap a b]
    cases a.order? b with
    | none => rfl
    | some order => cases order <;> rfl
  less_trans hab hbc := by
    simp only [holds, beq_iff_eq] at hab hbc ⊢
    exact order?_trans hab hbc
  unordered {a b} h := by
    have hnone : a.order? b = none := by
      rwa [comparable_iff, ← Option.isSome_iff_exists, Option.not_isSome_iff_eq_none] at h
    simp [holds, hnone]

/-- Objects inside objects with their fields the other way around, and two words in order. -/
theorem coherent_holds_reordered_fields :
    let inner := [("x", Value.null), ("y", Value.bool true)]
    let a := Value.object [("a", .object inner), ("b", .string "c")]
    let b := Value.object [("b", .string "c"), ("a", .object inner.reverse)]
    a.WellFormed ∧ Reordered a b ∧ equal.holds a b ∧ Comparable (.string "x") (.string "y") ∧
      lessOrEqual.holds (.string "x") (.string "y") ∧ ¬ Comparable a b ∧
      lessOrEqual.holds a b = false := by
  intro inner a b
  have ha : a.WellFormed := by
    simp [a, inner, Value.WellFormed, Value.fieldsWellFormed, Table.keys]
  have hinner : Reordered (.object inner) (.object inner.reverse) := by
    refine .object (by decide) fun key v v' hv hv' => ?_
    rw [Table.get?_reverse (by decide), hv] at hv'
    exact Option.some.inj hv' ▸ .refl v
  have hab : Reordered a b := by
    refine .object (by decide) fun key v v' hv hv' => ?_
    simp only [Table.get?_cons, Table.get?_nil] at hv hv'
    by_cases hkey : key = "a"
    · obtain rfl : Value.object inner = v := by simpa [hkey] using hv
      obtain rfl : Value.object inner.reverse = v' := by simpa [hkey] using hv'
      exact hinner
    · have hsame : v = v' := by grind
      exact hsame ▸ .refl v
  have hwords : Comparable (.string "x") (.string "y") := trivial
  have hcoherent := coherent_holds
  refine ⟨ha, hab, ?_, hwords, ?_, id, hcoherent.unordered id _ (by decide)⟩
  · rw [← hcoherent.reordered ha ha (.refl a) hab]
    exact hcoherent.equivalence.refl ⟨a, ha⟩
  · rw [hcoherent.lessOrEqual_eq hwords]
    decide

end Comparison

end Stencil
