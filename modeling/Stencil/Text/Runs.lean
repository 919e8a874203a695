/-!
# Runs of characters

The maximal runs of characters of a class, as the words of a text or the segments of a path.
-/

namespace Stencil.Text

/-- The run that `s` starts with, possibly empty, and the runs after it. -/
def runsFrom (p : Char → Bool) : List Char → List Char × List (List Char)
  | [] => ([], [])
  | c :: s =>
    let (run, later) := runsFrom p s
    if p c then (c :: run, later)
    else ([], if run.isEmpty then later else run :: later)

/-- The maximal non-empty runs of characters that satisfy `p`, in order. -/
def runs (p : Char → Bool) (s : List Char) : List (List Char) :=
  let (run, later) := runsFrom p s
  if run.isEmpty then later else run :: later

@[simp] theorem runs_nil (p : Char → Bool) : runs p [] = [] := rfl

theorem runsFrom_cons_of_neg {p : Char → Bool} {c : Char} (h : p c = false) (s : List Char) :
    runsFrom p (c :: s) = ([], runs p s) := by
  simp only [runsFrom, runs, h, Bool.false_eq_true, if_false]

/-- A character outside the class does not count before a run. -/
theorem runs_cons_of_neg {p : Char → Bool} {c : Char} (h : p c = false) (s : List Char) :
    runs p (c :: s) = runs p s := by
  rw [runs, runsFrom_cons_of_neg h]
  rfl

/-- A character outside the class ends a run. -/
theorem runs_append_cons {p : Char → Bool} {c : Char} (h : p c = false) (s t : List Char) :
    runs p (s ++ c :: t) = runs p s ++ runs p t := by
  have key : ∀ s, runsFrom p (s ++ c :: t) = ((runsFrom p s).1, (runsFrom p s).2 ++ runs p t) := by
    intro s
    induction s with
    | nil => exact runsFrom_cons_of_neg h t
    | cons d s ih => grind [runsFrom]
  simp only [runs, key]
  grind

end Stencil.Text
