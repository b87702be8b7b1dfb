import FilterQuery.Binary64

/-!
# FilterQuery.Binary64.Nearest

The binary64 number nearest to a fraction.  Consecutive magnitudes `2 ^ 52` to
`2 ^ 53` of one scale are evenly spaced, so rounding the fraction on the grid of
its scale gives the magnitude at once: the carry of a mantissa that rounds up to
`2 ^ 53` is the first magnitude of the next scale.
-/

namespace FilterQuery.Binary64

/-- The whole number nearest to `num / den`; of two equally near, the even one. -/
def roundHalfEven (num den : Nat) : Nat :=
  let below := num / den
  let rest := num % den
  if 2 * rest < den then below
  else if den < 2 * rest then below + 1
  else below + below % 2

/-- The magnitude nearest to `num / den`, infinity if that is too large. -/
def nearest (num den : Nat) : Nat :=
  let scaled := num * 2 ^ 1074
  let scale := Nat.log2 (scaled / den) - 52
  min (scale * 2 ^ 52 + roundHalfEven scaled (den * 2 ^ scale)) infinity

theorem nearest_le_infinity (num den : Nat) : nearest num den ≤ infinity :=
  Nat.min_le_right _ _

/-- The number nearest to `num / den` with the given sign. -/
def ofRatio (negative : Bool) (num den : Nat) : Binary64 where
  negative := negative
  magnitude := ⟨nearest num den, Nat.lt_of_le_of_lt (nearest_le_infinity num den) (by decide)⟩

end FilterQuery.Binary64
