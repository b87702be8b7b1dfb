/-!
# FilterQuery.Text.Ranges

Sets of characters given by inclusive ranges of code points, the form in which
the Unicode properties of the neighbouring modules are tabulated.
-/

namespace FilterQuery.Text

/-- A character belongs to a table if one of the ranges covers its code point. -/
def inRanges (ranges : List (Nat × Nat)) (c : Char) : Bool :=
  ranges.any fun range => range.1 ≤ c.toNat && c.toNat ≤ range.2

/-- A character in a gap of the table does not belong to it. -/
theorem inRanges_of_gap (ranges : List (Nat × Nat)) {lo hi : Nat} {c : Char}
    (gap : ∀ range ∈ ranges, range.2 < lo ∨ hi ≤ range.1) (hlo : lo ≤ c.toNat)
    (hhi : c.toNat < hi) : inRanges ranges c = false := by
  simp only [inRanges, List.any_eq_false, Bool.and_eq_true, decide_eq_true_eq]
  intro range hmem
  have := gap range hmem
  omega

end FilterQuery.Text
