import Stencil.Text.Alphanumeric

/-!
# White space and trimming

White space is the Unicode property White_Space: it holds of the no-break space and of the
ideographic space, but not of the zero-width space or of the byte order mark.

## Main definitions

* `Text.isBlank`: white space.
* `Text.trimLeft`, `Text.trimRight`, `Text.trim`: a text without the white space at its ends.
-/

namespace Stencil.Text

/-- The white-space code points. -/
def blankRanges : List (Nat × Nat) :=
  [(0x9, 0xD), (0x20, 0x20), (0x85, 0x85), (0xA0, 0xA0), (0x1680, 0x1680), (0x2000, 0x200A),
   (0x2028, 0x2029), (0x202F, 0x202F), (0x205F, 0x205F), (0x3000, 0x3000)]

def isBlank (c : Char) : Bool :=
  inRanges blankRanges c

def trimLeft (s : List Char) : List Char :=
  s.dropWhile isBlank

def trimRight (s : List Char) : List Char :=
  (s.reverse.dropWhile isBlank).reverse

/-- `s` without the white space at both ends. -/
def trim (s : List Char) : List Char :=
  trimRight (trimLeft s)

/-- White space is a small class, so that another class can be checked against it. -/
theorem isBlank_eq_false_of_disjoint {p : Char → Bool}
    (h : ∀ n ∈ codePoints blankRanges, p (Char.ofNat n) = false) {c : Char} (hc : p c = true) :
    isBlank c = false := by
  refine Bool.eq_false_iff.2 fun hblank => ?_
  have hmem := h _ (inRanges_iff_mem_codePoints.1 hblank)
  rw [Char.ofNat_toNat, hc] at hmem
  exact Bool.noConfusion hmem

theorem isBlank_eq_false_of_isAlphanumeric {c : Char} (h : isAlphanumeric c = true) :
    isBlank c = false :=
  isBlank_eq_false_of_disjoint (by decide +kernel) h

theorem trimLeft_eq_self {s : List Char} (h : ∀ c ∈ s.head?, isBlank c = false) :
    trimLeft s = s := by
  cases s with
  | nil => rfl
  | cons c s => rw [trimLeft, List.dropWhile_cons_of_neg (by simp [h c rfl])]

/-- A text without white space at its ends is trimmed. -/
theorem trim_eq_self_of_ends {s : List Char} (hfirst : ∀ c ∈ s.head?, isBlank c = false)
    (hlast : ∀ c ∈ s.getLast?, isBlank c = false) : trim s = s := by
  have hreverse : trimLeft s.reverse = s.reverse :=
    trimLeft_eq_self fun c hc => hlast c (by rwa [← List.head?_reverse])
  rw [trim, trimLeft_eq_self hfirst]
  exact (congrArg List.reverse hreverse).trans s.reverse_reverse

/-- A text without white space is trimmed. -/
theorem trim_eq_self {s : List Char} (h : ∀ c ∈ s, isBlank c = false) : trim s = s :=
  trim_eq_self_of_ends (fun c hc => h c (List.mem_of_head? hc))
    fun c hc => h c (List.mem_of_getLast? hc)

end Stencil.Text
