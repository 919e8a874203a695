/-!
# Character classes given by ranges

A large character class is a list of closed ranges of code points.

## Main definitions

* `Text.inRanges`: whether a character is in a class.
* `Text.codePoints`: the code points of a class, one by one.
-/

namespace Stencil.Text

/-- Whether the code point of `c` lies in one of the closed `ranges`. -/
def inRanges (ranges : List (Nat × Nat)) (c : Char) : Bool :=
  ranges.any fun r => r.1 ≤ c.toNat && c.toNat ≤ r.2

/-- The code points in the closed `ranges`. -/
def codePoints (ranges : List (Nat × Nat)) : List Nat :=
  ranges.flatMap fun r => List.range' r.1 (r.2 + 1 - r.1)

/-- A small class can be searched through. -/
theorem inRanges_iff_mem_codePoints {ranges : List (Nat × Nat)} {c : Char} :
    inRanges ranges c = true ↔ c.toNat ∈ codePoints ranges := by
  simp only [inRanges, codePoints, List.any_eq_true, List.mem_flatMap, List.mem_range'_1,
    Bool.and_eq_true, decide_eq_true_eq]
  refine exists_congr fun r => and_congr_right fun _ => ?_
  omega

-- The type of characters is finite, and without this instance a condition on those of a text may
-- be decided by a search through all of them.
instance decidableForallMem (p : Char → Prop) [DecidablePred p] (s : List Char) :
    Decidable (∀ c ∈ s, p c) :=
  List.decidableBAll p s

end Stencil.Text
