import FilterQuery.Binary64.Shortest
import FilterQuery.Proofs.Rounding

/-!
# FilterQuery.Proofs.Shortest

The shortest decimal of a binary64 number reads back as that number.

* `nearest_mul_mul`, `nearest_congr` — equal ratios round alike;
* `nearest_units` — a number is the nearest to itself;
* `nearest_shortest` — and to its shortest decimal.
-/

namespace FilterQuery

/-- A decimal is a ratio of whole numbers. -/
def Decimal.numerator (d : Decimal) : Nat := d.digits * 10 ^ d.exponent.toNat

/-- The power of ten below the bar. -/
def Decimal.denominator (d : Decimal) : Nat := 10 ^ (-d.exponent).toNat

theorem Decimal.denominator_pos (d : Decimal) : 0 < d.denominator := Nat.pow_pos (by decide)

namespace Binary64

/-! ## ratios -/

/-- Rounding looks at the ratio only. -/
theorem roundHalfEven_mul_mul (num den : Nat) {k : Nat} (hk : 0 < k) :
    roundHalfEven (num * k) (den * k) = roundHalfEven num den := by
  have hbelow : num * k / (den * k) = num / den := Nat.mul_div_mul_right num den hk
  have hrest : num * k % (den * k) = num % den * k := Nat.mul_mod_mul_right k num den
  have hless : 2 * (num % den * k) < den * k ↔ 2 * (num % den) < den := by
    rw [← Nat.mul_assoc]
    exact Nat.mul_lt_mul_right hk
  have hmore : den * k < 2 * (num % den * k) ↔ den < 2 * (num % den) := by
    rw [← Nat.mul_assoc]
    exact Nat.mul_lt_mul_right hk
  simp only [roundHalfEven, hbelow, hrest, hless, hmore]

/-- The nearest number is the same however the ratio is written. -/
theorem nearest_mul_mul (num den : Nat) {k : Nat} (hk : 0 < k) :
    nearest (num * k) (den * k) = nearest num den := by
  have hscaled : num * k * 2 ^ 1074 = num * 2 ^ 1074 * k := Nat.mul_right_comm ..
  have hden (scale : Nat) : den * k * 2 ^ scale = den * 2 ^ scale * k := Nat.mul_right_comm ..
  simp only [nearest, hscaled, hden, Nat.mul_div_mul_right _ _ hk, roundHalfEven_mul_mul _ _ hk]

/-- Equal ratios have the same nearest number. -/
theorem nearest_congr {num den num' den' : Nat} (hden : 0 < den) (hden' : 0 < den')
    (h : num * den' = num' * den) : nearest num den = nearest num' den' := by
  rw [← nearest_mul_mul num den hden', h, Nat.mul_comm den, nearest_mul_mul num' den' hden]

/-! ## numbers themselves -/

/-- A number is the nearest to itself. -/
theorem nearest_units {magnitude : Nat} (h : magnitude < infinity) :
    nearest (units magnitude) (2 ^ 1074) = magnitude := by
  have hone : 0 < 2 ^ 1074 := Nat.two_pow_pos 1074
  have hself := distance_self (2 ^ 1074) magnitude
  have hrounds : Rounds (units magnitude) (2 ^ 1074) magnitude := by
    refine ⟨Nat.le_of_lt h, fun other _ => ?_, fun other _ hne heq => ?_⟩
    · rw [hself]
      exact Nat.zero_le _
    · exact absurd (heq.trans hself) (distance_ne_zero hone hne)
  exact ((rounds_iff hone).mp hrounds).symm

/-! ## decimals -/

/-- A point of a grid, as a ratio. -/
theorem nearest_point (n places drop : Nat) :
    nearest (Decimal.mk n (places - drop)).numerator (Decimal.mk n (places - drop)).denominator =
      nearest (n * 10 ^ places) (10 ^ drop) := by
  refine nearest_congr (Nat.pow_pos (by decide)) (Nat.pow_pos (by decide)) ?_
  have hexponents : ((places : Int) - drop).toNat + drop =
      places + (-((places : Int) - drop)).toNat := by omega
  rw [Decimal.numerator, Decimal.denominator, Nat.mul_assoc, Nat.mul_assoc, ← Nat.pow_add,
    ← Nat.pow_add, hexponents]

/-- A point that is tried and passes reads back. -/
theorem nearest_of_point? {tie : Tie} {magnitude places drop : Nat} {d : Decimal}
    (h : point? tie magnitude places drop = some d) :
    nearest d.numerator d.denominator = magnitude := by
  obtain ⟨n, hpoint, rfl⟩ := Option.map_eq_some_iff.mp h
  have htest := test_of_passingNeighbour hpoint
  rw [beq_iff_eq] at htest
  rw [nearest_point, htest]

/-- A power of two below the bar is as many decimal places. -/
theorem ten_pow_add (places k : Nat) : 10 ^ (places + k) = 5 ^ k * (2 ^ k * 10 ^ places) := by
  have hten : 10 ^ k = 5 ^ k * 2 ^ k := by rw [← Nat.mul_pow]
  rw [Nat.add_comm, Nat.pow_add, hten, Nat.mul_assoc]

/-- A whole number of steps `2 ^ -k` has `k` decimal places. -/
theorem mul_ten_pow_div (n places k : Nat) :
    n * 10 ^ (places + k) / (2 ^ k * 10 ^ places) = n * 5 ^ k := by
  have hpos : 0 < 2 ^ k * 10 ^ places :=
    Nat.mul_pos (Nat.two_pow_pos k) (Nat.pow_pos (by decide))
  rw [ten_pow_add, ← Nat.mul_assoc, Nat.mul_div_cancel _ hpos]

/-- Those decimal places denote the number. -/
theorem nearest_mul_five_pow (n places k : Nat) :
    nearest (n * 5 ^ k * 10 ^ places) (10 ^ (places + k)) = nearest n (2 ^ k) := by
  refine nearest_congr (Nat.pow_pos (by decide)) (Nat.two_pow_pos k) ?_
  rw [ten_pow_add, Nat.mul_assoc, Nat.mul_assoc, Nat.mul_comm (10 ^ places)]

/-- The last grid holds the number itself. -/
theorem nearest_pointBelow {magnitude : Nat} (h : magnitude < infinity) (places : Nat) :
    nearest (pointBelow magnitude places (places + 1074)).numerator
      (pointBelow magnitude places (places + 1074)).denominator = magnitude := by
  rw [pointBelow, nearest_point, mul_ten_pow_div _ places 1074, nearest_mul_five_pow _ places 1074,
    nearest_units h]

/-- **The shortest decimal of a number reads back as that number.** -/
theorem nearest_shortest {magnitude : Nat} (h : magnitude < infinity) (tie : Tie) :
    nearest (shortest tie magnitude).numerator (shortest tie magnitude).denominator =
      magnitude :=
  search_of_points (P := fun d => nearest d.numerator d.denominator = magnitude)
    (fun _ _ => nearest_of_point?) (nearest_pointBelow h _)

end Binary64

end FilterQuery
