import Mathlib.Algebra.Order.Ring.Int
import Mathlib.Tactic.Linarith
import Mathlib.Tactic.Ring
import Stencil.Proofs.Clauses

/-!
# Comparing integers

Conditions compare numbers by the doubles nearest to them. Rounding to a double never changes the
order of two integers, but it may make different ones equal, so all six comparisons are right for
two integers as soon as their nearest doubles are equal only if they are.

## Main definitions

* `Double.rounded`: a natural number rounded to 53 significant bits.
* `Number.nearestInteger`: the nearest double of an integer, which is an integer again.
* `Number.Representable`: the integers that are doubles.
* `Comparison.Relates`: what a comparison says of integers.
* `Comparison.between`: the text of a condition that compares two paths.
-/

namespace Stencil

/-! ## Rounding -/

section

variable {num den : Nat}

theorem roundHalfEven_cases (num den : Nat) :
    (roundHalfEven num den = num / den ∧ 2 * (num % den) ≤ den) ∨
      (roundHalfEven num den = num / den + 1 ∧ den ≤ 2 * (num % den)) := by
  unfold roundHalfEven
  dsimp only
  split_ifs <;> omega

theorem roundHalfEven_mul_right (num den : Nat) {c : Nat} (hc : 0 < c) :
    roundHalfEven (num * c) (den * c) = roundHalfEven num den := by
  have hless : 2 * (num % den * c) < den * c ↔ 2 * (num % den) < den := by
    rw [← Nat.mul_assoc]
    exact Nat.mul_lt_mul_right hc
  have hgreater : den * c < 2 * (num % den * c) ↔ den < 2 * (num % den) := by
    rw [← Nat.mul_assoc]
    exact Nat.mul_lt_mul_right hc
  simp only [roundHalfEven, Nat.mul_div_mul_right _ _ hc, Nat.mul_mod_mul_right, hless, hgreater]

theorem roundHalfEven_mul_self (m : Nat) (hden : 0 < den) : roundHalfEven (m * den) den = m := by
  simp [roundHalfEven, Nat.mul_div_cancel m hden, hden]

/-- No multiple of the denominator is nearer to the numerator. -/
theorem natAbs_roundHalfEven_mul_sub_le (hden : 0 < den) (k : Int) :
    ((roundHalfEven num den * den : Nat) - num : Int).natAbs ≤ (k * den - num : Int).natAbs := by
  have hnum : num / den * den + num % den = num := Nat.div_add_mod' num den
  have hmod := Nat.mod_lt num hden
  have hside : k * den ≤ (num / den * den : Nat) ∨ (num / den * den : Nat) + den ≤ k * den := by
    rcases lt_or_ge (num / den : Int) k with h | h
    · right
      have hmul := Int.mul_le_mul_of_nonneg_right (Int.add_one_le_of_lt h) (Int.natCast_nonneg den)
      push_cast
      linarith
    · left
      have hmul := Int.mul_le_mul_of_nonneg_right h (Int.natCast_nonneg den)
      push_cast
      exact hmul
  rcases roundHalfEven_cases num den with ⟨heq, hle⟩ | ⟨heq, hle⟩
  · rw [heq]
    omega
  · rw [heq, Nat.succ_mul]
    omega

end

/-! ## The nearest double of an integer -/

namespace Double

theorem log2_mul_pow {m : Nat} (hm : m ≠ 0) (k : Nat) : (m * 2 ^ k).log2 = m.log2 + k := by
  induction k with
  | zero => simp
  | succ k ih =>
    have hpos : m * 2 ^ k ≠ 0 := Nat.mul_ne_zero hm (Nat.two_pow_pos k).ne'
    rw [Nat.pow_succ, ← Nat.mul_assoc, Nat.mul_comm, Nat.log2_two_mul hpos, ih, Nat.add_assoc]

/-- The size of the last bit of a whole number that is rounded to a full significand. -/
def lastBit (m : Nat) : Nat :=
  2 ^ (m.log2 + 1 - precision)

/-- The whole number nearest to `m` among those of at most 53 significant bits. -/
def rounded (m : Nat) : Nat :=
  roundHalfEven m (lastBit m) * lastBit m

theorem lastBit_pos (m : Nat) : 0 < lastBit m := Nat.two_pow_pos _

theorem exists_unitsPerOne_eq : ∃ p, unitsPerOne = 2 ^ p ∧ precision ≤ p + 1 := by
  unfold unitsPerOne
  -- The exponent gets a name, so that nobody evaluates the power.
  generalize hp : 1074 = p
  exact ⟨p, Nat.pow_eq, hp ▸ by decide⟩

theorem unitsPerOne_pos : 0 < unitsPerOne := by
  obtain ⟨p, hunits, -⟩ := exists_unitsPerOne_eq
  exact hunits ▸ Nat.two_pow_pos p

/-- A carry out of the significand changes nothing of the value. -/
theorem significand_mul_nearest (negative : Bool) (num den : Nat) :
    (nearest negative num den).significand * 2 ^ (nearest negative num den).exponent =
      roundHalfEven num (den * 2 ^ ((num / den).log2 + 1 - precision)) *
        2 ^ ((num / den).log2 + 1 - precision) := by
  unfold nearest
  dsimp only
  simp only [Nat.pow_eq]
  generalize (num / den).log2 + 1 - precision = exponent
  split
  · next hcarry => rw [hcarry, Nat.pow_succ, precision]; ring
  · rfl

theorem rounded_of_lt {m : Nat} (h : m.log2 + 1 ≤ precision) : rounded m = m := by
  have hbit : lastBit m = 1 := by rw [lastBit, Nat.sub_eq_zero_of_le h, Nat.pow_zero]
  rw [rounded, hbit, Nat.mul_one]
  simpa using roundHalfEven_mul_self m Nat.one_pos

/-- Counting in units small enough loses nothing of a whole number but what rounding takes. -/
theorem roundHalfEven_mul_pow (m : Nat) {p : Nat} (hp : precision ≤ p + 1) :
    roundHalfEven (m * 2 ^ p) (2 ^ (m.log2 + p + 1 - precision)) *
      2 ^ (m.log2 + p + 1 - precision) = rounded m * 2 ^ p := by
  rcases Nat.le_total (m.log2 + 1) precision with h | h
  · obtain ⟨spare, hspare⟩ := Nat.exists_eq_add_of_le
      (show m.log2 + p + 1 - precision ≤ p by omega)
    have hscaled : m * 2 ^ p = m * 2 ^ spare * 2 ^ (m.log2 + p + 1 - precision) := by
      rw [Nat.mul_assoc, ← Nat.pow_add, Nat.add_comm spare, ← hspare]
    rw [hscaled, roundHalfEven_mul_self _ (Nat.two_pow_pos _), rounded_of_lt h, hscaled]
  · have hbit : 2 ^ (m.log2 + p + 1 - precision) = lastBit m * 2 ^ p := by
      rw [lastBit, ← Nat.pow_add]
      congr 1
      omega
    rw [hbit, roundHalfEven_mul_right _ _ (Nat.two_pow_pos p), rounded, Nat.mul_assoc]

/-- The nearest double of a whole number is the whole number it is rounded to. -/
theorem significand_mul_nearest_unitsPerOne (negative : Bool) (m : Nat) :
    (nearest negative (m * unitsPerOne) 1).significand *
        2 ^ (nearest negative (m * unitsPerOne) 1).exponent = rounded m * unitsPerOne := by
  obtain ⟨p, hunits, hp⟩ := exists_unitsPerOne_eq
  rw [significand_mul_nearest, Nat.div_one, Nat.one_mul]
  rcases Nat.eq_zero_or_pos m with rfl | hm
  · simp [rounded, roundHalfEven]
  · rw [hunits, log2_mul_pow hm.ne']
    exact roundHalfEven_mul_pow m hp

theorem negative_nearest (negative : Bool) (num den : Nat) :
    (nearest negative num den).negative = negative := by
  unfold nearest
  dsimp only
  split <;> rfl

end Double

namespace Number

/-- The integer nearest to `n` among those that are doubles. -/
def nearestInteger (n : Int) : Int :=
  if n < 0 then -Double.rounded n.natAbs else Double.rounded n.natAbs

theorem units_int (n : Int) : (int n).units = nearestInteger n * Double.unitsPerOne := by
  have hsize := Double.significand_mul_nearest_unitsPerOne (decide (n < 0)) n.natAbs
  have hcast := congrArg (Nat.cast : Nat → Int) hsize
  push_cast at hcast
  simp only [units, toDouble, Double.ofInt, Double.units, Double.negative_nearest, nearestInteger,
    Nat.pow_eq, decide_eq_true_eq, Nat.cast_pow, Nat.cast_ofNat, hcast]
  split <;> ring

/-- Whether an integer is a double: whether it has at most 53 significant bits. -/
def Representable (n : Int) : Prop :=
  ∃ (k : Int) (e : Nat), k.natAbs ≤ 2 ^ 53 ∧ n = k * 2 ^ e

theorem Representable.neg {n : Int} (h : Representable n) : Representable (-n) := by
  obtain ⟨k, e, hk, rfl⟩ := h
  exact ⟨-k, e, by rwa [Int.natAbs_neg], (Int.neg_mul ..).symm⟩

theorem representable_of_natAbs_le {n : Int} (h : n.natAbs ≤ 2 ^ 53) : Representable n :=
  ⟨n, 0, h, by simp⟩

theorem representable_rounded (m : Nat) : Representable (Double.rounded m) := by
  refine ⟨roundHalfEven m (Double.lastBit m), m.log2 + 1 - Double.precision, ?_, ?_⟩
  · have hquotient : m / Double.lastBit m < 2 ^ 53 := by
      refine Nat.div_lt_of_lt_mul (Nat.lt_log2_self.trans_le ?_)
      rw [Double.lastBit, ← Nat.pow_add]
      exact Nat.pow_le_pow_right Nat.two_pos (by unfold Double.precision; omega)
    have hcases := roundHalfEven_cases m (Double.lastBit m)
    omega
  · rw [Double.rounded, Double.lastBit]
    push_cast
    rfl

/-- No integer that is a double is nearer to a whole number than the one it is rounded to. -/
theorem natAbs_rounded_sub_le (m : Nat) {n : Int} (h : Representable n) :
    (Double.rounded m - m : Int).natAbs ≤ (n - m).natAbs := by
  have hmultiple (k : Int) :
      (Double.rounded m - m : Int).natAbs ≤ (k * Double.lastBit m - m).natAbs :=
    natAbs_roundHalfEven_mul_sub_le (Double.lastBit_pos m) k
  obtain ⟨k, e, hk, rfl⟩ := h
  rcases Nat.lt_or_ge e (m.log2 + 1 - Double.precision) with hlt | hge
  · -- A double with a smaller last bit lies below the binade of `m`, which starts at a multiple.
    have hlog : 52 + (m.log2 + 1 - Double.precision) = m.log2 := by
      unfold Double.precision at hlt ⊢
      omega
    have hm : m ≠ 0 := by
      rintro rfl
      simp at hlog
    have hstart : 2 ^ 52 * Double.lastBit m ≤ m := by
      rw [Double.lastBit, ← Nat.pow_add, hlog]
      exact Nat.log2_self_le hm
    have hsmall : (k * 2 ^ e).natAbs ≤ 2 ^ 52 * Double.lastBit m := by
      rw [Int.natAbs_mul, Int.natAbs_pow, Double.lastBit, ← Nat.pow_add]
      calc k.natAbs * 2 ^ e ≤ 2 ^ 53 * 2 ^ e := Nat.mul_le_mul_right _ hk
        _ = 2 ^ (53 + e) := (Nat.pow_add ..).symm
        _ ≤ 2 ^ (52 + (m.log2 + 1 - Double.precision)) :=
          Nat.pow_le_pow_right Nat.two_pos (by omega)
    have hnearest := hmultiple (2 ^ 52)
    omega
  · obtain ⟨more, rfl⟩ := Nat.exists_eq_add_of_le hge
    have hnearest := hmultiple (k * 2 ^ more)
    have hscaled : k * 2 ^ more * Double.lastBit m =
        k * 2 ^ (m.log2 + 1 - Double.precision + more) := by
      rw [Double.lastBit]
      push_cast
      ring
    rwa [hscaled] at hnearest

theorem representable_nearestInteger (n : Int) : Representable (nearestInteger n) := by
  rw [nearestInteger]
  split
  · exact (representable_rounded n.natAbs).neg
  · exact representable_rounded n.natAbs

/-- No integer that is a double is nearer. -/
theorem natAbs_nearestInteger_sub_le (n : Int) {m : Int} (h : Representable m) :
    (nearestInteger n - n).natAbs ≤ (m - n).natAbs := by
  rw [nearestInteger]
  split
  · have hnearest := natAbs_rounded_sub_le n.natAbs h.neg
    omega
  · have hnearest := natAbs_rounded_sub_le n.natAbs h
    omega

theorem nearestInteger_of_representable {n : Int} (h : Representable n) : nearestInteger n = n := by
  have hnearest := natAbs_nearestInteger_sub_le n h
  omega

theorem nearestInteger_mono {a b : Int} (h : a ≤ b) : nearestInteger a ≤ nearestInteger b := by
  have ha := natAbs_nearestInteger_sub_le a (representable_nearestInteger b)
  have hb := natAbs_nearestInteger_sub_le b (representable_nearestInteger a)
  by_contra hlt
  have hne : a ≠ b := fun heq => hlt (heq ▸ le_rfl)
  omega

/-- The doubles among the integers of 64 bits lie at most `2^11` apart. -/
theorem natAbs_nearestInteger_sub_le_of_le {n : Int} (h : n.natAbs ≤ 2 ^ 64) :
    (nearestInteger n - n).natAbs ≤ 2 ^ 10 := by
  have hmultiple (k : Int) (hk : k.natAbs ≤ 2 ^ 53) :
      (nearestInteger n - n).natAbs ≤ (k * 2 ^ 11 - n).natAbs :=
    natAbs_nearestInteger_sub_le n ⟨k, 11, hk, rfl⟩
  by_cases hlower : n % 2 ^ 11 ≤ 2 ^ 10
  · have hnearest := hmultiple (n / 2 ^ 11) (by omega)
    omega
  · have hnearest := hmultiple (n / 2 ^ 11 + 1) (by omega)
    omega

theorem nearestInteger_ne_of_far {a b : Int} (ha : a.natAbs ≤ 2 ^ 64) (hb : b.natAbs ≤ 2 ^ 64)
    (h : 2 ^ 11 < (a - b).natAbs) : nearestInteger a ≠ nearestInteger b := by
  have hnearA := natAbs_nearestInteger_sub_le_of_le ha
  have hnearB := natAbs_nearestInteger_sub_le_of_le hb
  omega

end Number

/-! ## Comparisons of integers -/

namespace Comparison

/-- Whether a comparison holds between two integers. -/
def Relates (comparison : Comparison) (a b : Int) : Prop :=
  match comparison with
  | equal => a = b
  | different => a ≠ b
  | less => a < b
  | lessOrEqual => a ≤ b
  | greater => b < a
  | greaterOrEqual => b ≤ a

instance (comparison : Comparison) (a b : Int) : Decidable (comparison.Relates a b) :=
  match comparison with
  | equal => inferInstanceAs (Decidable (a = b))
  | different => inferInstanceAs (Decidable (a ≠ b))
  | less => inferInstanceAs (Decidable (a < b))
  | lessOrEqual => inferInstanceAs (Decidable (a ≤ b))
  | greater => inferInstanceAs (Decidable (b < a))
  | greaterOrEqual => inferInstanceAs (Decidable (b ≤ a))

theorem holds_number_iff (comparison : Comparison) (m n : Number) :
    comparison.holds (.number m) (.number n) = true ↔ comparison.Relates m.units n.units := by
  have hequals : (Value.number m).equals (.number n) = (m.units == n.units) := rfl
  have horder : (Value.number m).order? (.number n) = some (compare m.units n.units) := rfl
  rcases lt_trichotomy m.units n.units with h | h | h
  · have hcompare := compare_lt_iff_lt.2 h
    cases comparison <;> simp [holds, hequals, horder, hcompare, Relates] <;> omega
  · have hcompare := compare_eq_iff_eq.2 h
    cases comparison <;> simp [holds, hequals, horder, hcompare, Relates] <;> omega
  · have hcompare := compare_gt_iff_gt.2 h
    cases comparison <;> simp [holds, hequals, horder, hcompare, Relates] <;> omega

theorem relates_mul {c : Int} (hc : 0 < c) (comparison : Comparison) (a b : Int) :
    comparison.Relates (a * c) (b * c) ↔ comparison.Relates a b := by
  cases comparison <;> simp [Relates, hc, hc.ne']

/-- Comparisons cannot tell apart pairs of integers in the same order. -/
theorem relates_congr {a b p q : Int} (hless : p < q ↔ a < b) (hgreater : q < p ↔ b < a)
    (comparison : Comparison) : comparison.Relates p q ↔ comparison.Relates a b := by
  cases comparison <;> simp only [Relates] <;> omega

/-- Two operands with a comparison between them. -/
def between (comparison : Comparison) (left right : List Char) : List Char :=
  left ++ ' ' :: comparison.symbol ++ ' ' :: right

end Comparison

namespace Condition

variable {context : Value} {a b : Int}

theorem read_between (comparison : Comparison) :
    read (comparison.between ['x'] ['y']) =
      .ok ⟨⟨0, .comparison (.path ['x']) comparison (.path ['y'])⟩, []⟩ := by
  cases comparison <;> rfl

/-- Integers are compared by the doubles nearest to them. -/
theorem evaluate_between (hx : context.resolve? ['x'] = some (.number (.int a)))
    (hy : context.resolve? ['y'] = some (.number (.int b))) (comparison : Comparison) :
    evaluate (comparison.between ['x'] ['y']) context =
      .ok (decide (comparison.Relates (Number.nearestInteger a) (Number.nearestInteger b))) := by
  have hholds : Test.holds (.comparison (.path ['x']) comparison (.path ['y'])) context =
      comparison.holds (.number (.int a)) (.number (.int b)) := by
    simp only [Test.holds, Test.valueOf, Operand.value?, hx, hy, Option.getD_some]
  have hunits : 0 < (Double.unitsPerOne : Int) := Int.natCast_pos.2 Double.unitsPerOne_pos
  rw [evaluate, read_between]
  refine congrArg Except.ok ?_
  rw [holds, List.foldl_nil, Clause.holds_of_not_negated, hholds, Bool.eq_iff_iff,
    Comparison.holds_number_iff, Number.units_int, Number.units_int,
    Comparison.relates_mul hunits, decide_eq_true_iff]

/-- Integers compare as they should unless they are different and have the same nearest double. This
does not happen up to `2^53`, and not to integers of JSON data that are more than `2^11` apart. -/
theorem evaluate_integers (hx : context.resolve? ['x'] = some (.number (.int a)))
    (hy : context.resolve? ['y'] = some (.number (.int b))) :
    (∀ comparison : Comparison, evaluate (comparison.between ['x'] ['y']) context =
        .ok (decide (comparison.Relates (Number.nearestInteger a) (Number.nearestInteger b)))) ∧
      ((∀ comparison : Comparison, evaluate (comparison.between ['x'] ['y']) context =
          .ok (decide (comparison.Relates a b))) ↔
        (Number.nearestInteger a = Number.nearestInteger b → a = b)) ∧
      (a.natAbs ≤ 2 ^ 53 → b.natAbs ≤ 2 ^ 53 →
        ∀ comparison : Comparison, evaluate (comparison.between ['x'] ['y']) context =
          .ok (decide (comparison.Relates a b))) ∧
      (Number.minInt ≤ a ∧ a ≤ Number.maxInt → Number.minInt ≤ b ∧ b ≤ Number.maxInt →
        2 ^ 11 < (a - b).natAbs →
        ∀ comparison : Comparison, evaluate (comparison.between ['x'] ['y']) context =
          .ok (decide (comparison.Relates a b))) := by
  have hexact : (∀ comparison : Comparison, evaluate (comparison.between ['x'] ['y']) context =
      .ok (decide (comparison.Relates a b))) ↔
        (Number.nearestInteger a = Number.nearestInteger b → a = b) := by
    simp only [evaluate_between hx hy, Except.ok.injEq, decide_eq_decide]
    constructor
    · intro h
      exact (h .equal).1
    · intro h
      have hless := Number.nearestInteger_mono (a := a) (b := b)
      have hgreater := Number.nearestInteger_mono (a := b) (b := a)
      exact Comparison.relates_congr (by omega) (by omega)
  refine ⟨evaluate_between hx hy, hexact, fun ha hb => hexact.2 ?_, fun ha hb hfar => hexact.2 ?_⟩
  · rw [Number.nearestInteger_of_representable (Number.representable_of_natAbs_le ha),
      Number.nearestInteger_of_representable (Number.representable_of_natAbs_le hb)]
    exact id
  · have hsize {n : Int} (hn : Number.minInt ≤ n ∧ n ≤ Number.maxInt) : n.natAbs ≤ 2 ^ 64 := by
      simp only [Number.minInt, Number.maxInt, Nat.pow_eq] at hn
      push_cast at hn
      omega
    exact fun heq => absurd heq (Number.nearestInteger_ne_of_far (hsize ha) (hsize hb) hfar)

/-- The first of these integers is no double, and between two that are. -/
theorem evaluate_integers_neighbours :
    let context : Value := .object [("x", .number (.int (2 ^ 53 + 1))),
      ("y", .number (.int (2 ^ 53 + 2)))]
    (Number.nearestInteger (2 ^ 53 + 1) = Number.nearestInteger (2 ^ 53 + 2) →
        (2 ^ 53 + 1 : Int) = 2 ^ 53 + 2) ∧
      ∀ comparison : Comparison, evaluate (comparison.between ['x'] ['y']) context =
        .ok (decide (comparison.Relates (2 ^ 53 + 1) (2 ^ 53 + 2))) := by
  intro context
  have hnearest : Number.nearestInteger (2 ^ 53 + 1) = Number.nearestInteger (2 ^ 53 + 2) →
      (2 ^ 53 + 1 : Int) = 2 ^ 53 + 2 := by decide
  obtain ⟨-, hexact, -⟩ := @evaluate_integers context (2 ^ 53 + 1) (2 ^ 53 + 2) rfl rfl
  exact ⟨hnearest, hexact.2 hnearest⟩

/-- Two integers that are equal in a condition. -/
theorem evaluate_equal_neighbours :
    evaluate "x == y".toList (.object [("x", .number (.int (2 ^ 53))),
      ("y", .number (.int (2 ^ 53 + 1)))]) = .ok true ∧ (2 ^ 53 : Int) ≠ 2 ^ 53 + 1 := by
  refine ⟨(evaluate_between rfl rfl .equal).trans ?_, by decide⟩
  decide

end Condition

end Stencil
