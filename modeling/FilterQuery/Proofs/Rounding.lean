import FilterQuery.Binary64.Nearest
import FilterQuery.Decimal

/-!
# FilterQuery.Proofs.Rounding

Fractions are rounded correctly.  `Rounds` says which magnitude a fraction rounds to
without saying how it is found: no magnitude is nearer, and of two that are equally near
it is the even one.  Infinity takes part as the number `2 ^ 1024`, which would be the next
one if there were larger exponents; so a fraction is infinite from half a step below it.

* `exists_scale`, `units_of_scale` — a magnitude is a scale and a number of its steps, and
  the next magnitude is one step more;
* `units_lt_units` — so larger magnitudes mean larger numbers;
* `exists_bracket` — the two magnitudes around a fraction, and which of them is taken;
* `rounds_iff` — the nearest magnitude is the only one to which the fraction rounds.
-/

namespace FilterQuery.Binary64

/-! ## correct rounding -/

/-- How far the magnitude is from the fraction `steps / den`, where both count in steps of
`2 ^ -1074`; to avoid fractions the distance is `den` times as large. -/
def distance (steps den magnitude : Nat) : Nat :=
  ((units magnitude * den : Nat) - (steps : Int)).natAbs

/-- The magnitude to which `num / den` rounds. -/
structure Rounds (num den magnitude : Nat) : Prop where
  le_infinity : magnitude ≤ infinity
  nearest : ∀ other ≤ infinity,
    distance (num * 2 ^ 1074) den magnitude ≤ distance (num * 2 ^ 1074) den other
  even : ∀ other ≤ infinity, other ≠ magnitude →
    distance (num * 2 ^ 1074) den other = distance (num * 2 ^ 1074) den magnitude →
      magnitude % 2 = 0

/-! ## consecutive magnitudes -/

/-- Every magnitude is a scale and a number of steps, at most 53 bits of them and no fewer
unless the scale is the first. -/
theorem exists_scale (magnitude : Nat) : ∃ scale steps, magnitude = scale * 2 ^ 52 + steps ∧
    steps < 2 ^ 53 ∧ (scale = 0 ∨ 2 ^ 52 ≤ steps) := by
  by_cases hfirst : magnitude < 2 ^ 52
  · exact ⟨0, magnitude, by omega, by omega, .inl rfl⟩
  · exact ⟨magnitude / 2 ^ 52 - 1, 2 ^ 52 + magnitude % 2 ^ 52, by omega, by omega,
      .inr (by omega)⟩

/-- The size of a magnitude; the steps may be one too many for the scale. -/
theorem units_of_scale {scale steps : Nat} (hhigh : steps ≤ 2 ^ 53)
    (hlow : scale = 0 ∨ 2 ^ 52 ≤ steps) : units (scale * 2 ^ 52 + steps) = steps * 2 ^ scale := by
  have hcases : (scale = 0 ∧ steps < 2 ^ 52) ∨ (2 ^ 52 ≤ steps ∧ steps < 2 ^ 53) ∨
      steps = 2 ^ 53 := by omega
  obtain ⟨rfl, hsteps⟩ | ⟨hsteps, hfits⟩ | rfl := hcases
  · have hexponent : (0 * 2 ^ 52 + steps) / 2 ^ 52 = 0 := by omega
    have hfraction : (0 * 2 ^ 52 + steps) % 2 ^ 52 = steps := by omega
    simp only [units, hexponent, hfraction, if_true, Nat.pow_zero, Nat.mul_one]
  · have hexponent : (scale * 2 ^ 52 + steps) / 2 ^ 52 = scale + 1 := by omega
    have hfraction : 2 ^ 52 + (scale * 2 ^ 52 + steps) % 2 ^ 52 = steps := by omega
    simp only [units, hexponent, hfraction, Nat.succ_ne_zero, if_false, Nat.add_sub_cancel]
  · -- These are the first steps of the next scale.
    have hexponent : (scale * 2 ^ 52 + 2 ^ 53) / 2 ^ 52 = scale + 1 + 1 := by omega
    have hfraction : 2 ^ 52 + (scale * 2 ^ 52 + 2 ^ 53) % 2 ^ 52 = 2 ^ 52 := by omega
    simp only [units, hexponent, hfraction, Nat.succ_ne_zero, if_false, Nat.add_sub_cancel,
      Nat.pow_succ 2 scale]
    omega

/-- The next magnitude means a larger number. -/
theorem units_lt_succ (magnitude : Nat) : units magnitude < units (magnitude + 1) := by
  obtain ⟨scale, steps, rfl, hhigh, hlow⟩ := exists_scale magnitude
  rw [Nat.add_assoc, units_of_scale (by omega) hlow, units_of_scale (by omega) (by omega)]
  exact Nat.mul_lt_mul_of_pos_right (Nat.lt_succ_self steps) (Nat.two_pow_pos scale)

/-- Larger magnitudes mean larger numbers. -/
theorem units_lt_units {m n : Nat} (h : m < n) : units m < units n := by
  induction h with
  | refl => exact units_lt_succ m
  | step _ ih => exact Nat.lt_trans ih (units_lt_succ _)

theorem units_le_units {m n : Nat} (h : m ≤ n) : units m ≤ units n := by
  obtain h | rfl := Nat.lt_or_eq_of_le h
  · exact Nat.le_of_lt (units_lt_units h)
  · exact Nat.le_refl _

/-! ## the magnitudes around a fraction -/

/-- One of the two whole numbers around a fraction is taken: the nearer one, and of two
equally near the even one. -/
theorem roundHalfEven_cases (num den : Nat) :
    (roundHalfEven num den = num / den ∧ 2 * (num % den) ≤ den ∧
        (2 * (num % den) = den → num / den % 2 = 0)) ∨
      (roundHalfEven num den = num / den + 1 ∧ den ≤ 2 * (num % den) ∧
        (2 * (num % den) = den → (num / den + 1) % 2 = 0)) := by
  unfold roundHalfEven
  grind

/-- The bits of a number, cut down to 53 if it has more. -/
theorem shift_bounds (n : Nat) :
    let scale := Nat.log2 n - 52
    n / 2 ^ scale < 2 ^ 53 ∧ (scale = 0 ∨ 2 ^ 52 ≤ n / 2 ^ scale) := by
  intro scale
  have hpos := Nat.two_pow_pos scale
  have hlt : n < 2 ^ (Nat.log2 n + 1) := Nat.lt_log2_self
  constructor
  · have hle : 2 ^ (Nat.log2 n + 1) ≤ 2 ^ (53 + scale) :=
      Nat.pow_le_pow_right (by decide) (by omega)
    rw [Nat.div_lt_iff_lt_mul hpos, ← Nat.pow_add]
    exact Nat.lt_of_lt_of_le hlt hle
  · by_cases hscale : scale = 0
    · exact .inl hscale
    · right
      have hlog : 52 + scale = Nat.log2 n := by omega
      have hne : n ≠ 0 := by
        rintro rfl
        simp [scale] at hscale
      rw [Nat.le_div_iff_mul_le hpos, ← Nat.pow_add, hlog]
      exact Nat.log2_self_le hne

/-- The fraction `steps / den` lies between `low` and the next magnitude, and `magnitude` is
the one on its side of the middle; in the middle it is the even one. -/
structure Bracket (steps den low magnitude : Nat) : Prop where
  low_le : units low * den ≤ steps
  lt_high : steps < units (low + 1) * den
  side : magnitude = low ∧ 2 * steps ≤ units low * den + units (low + 1) * den ∨
    magnitude = low + 1 ∧ units low * den + units (low + 1) * den ≤ 2 * steps
  even : 2 * steps = units low * den + units (low + 1) * den → magnitude % 2 = 0

/-- Where there is no infinity the nearest magnitude is one of the two around the fraction. -/
theorem exists_bracket (num : Nat) {den : Nat} (hden : 0 < den) : ∃ low magnitude,
    nearest num den = min magnitude infinity ∧ Bracket (num * 2 ^ 1074) den low magnitude := by
  simp only [nearest]
  generalize num * 2 ^ 1074 = steps
  obtain ⟨hhigh, hlow⟩ := shift_bounds (steps / den)
  generalize Nat.log2 (steps / den) - 52 = scale at hhigh hlow ⊢
  rw [Nat.div_div_eq_div_mul] at hhigh hlow
  have hsize {count : Nat} (hhigh : count ≤ 2 ^ 53) (hlow : scale = 0 ∨ 2 ^ 52 ≤ count) :
      units (scale * 2 ^ 52 + count) * den = count * (den * 2 ^ scale) := by
    rw [units_of_scale hhigh hlow, Nat.mul_assoc, Nat.mul_comm (2 ^ scale)]
  have hwidth : 0 < den * 2 ^ scale := Nat.mul_pos hden (Nat.two_pow_pos scale)
  generalize den * 2 ^ scale = width at *
  have hsplit := Nat.div_add_mod' steps width
  have hrest := Nat.mod_lt steps hwidth
  have hlowsize := hsize (Nat.le_of_lt hhigh) hlow
  have hhighsize := @hsize (steps / width + 1) hhigh (by omega)
  rw [← Nat.add_assoc, Nat.add_one_mul] at hhighsize
  refine ⟨scale * 2 ^ 52 + steps / width, _, rfl, by omega, by omega, ?_, ?_⟩
  · obtain ⟨hround, hside, -⟩ | ⟨hround, hside, -⟩ := roundHalfEven_cases steps width
    · exact .inl ⟨by rw [hround], by omega⟩
    · exact .inr ⟨by rw [hround, Nat.add_assoc], by omega⟩
  · intro hmiddle
    obtain ⟨hround, -, heven⟩ | ⟨hround, -, heven⟩ := roundHalfEven_cases steps width
    · have := heven (by omega)
      omega
    · have := heven (by omega)
      omega

/-- Larger magnitudes are larger fractions of the same denominator. -/
theorem size_lt_size {den m n : Nat} (hden : 0 < den) (h : m < n) :
    units m * den < units n * den :=
  Nat.mul_lt_mul_of_pos_right (units_lt_units h) hden

/-- How the other magnitudes lie around two consecutive ones. -/
theorem size_cases {den : Nat} (hden : 0 < den) (low other : Nat) :
    units other * den < units low * den ∨ other = low ∨ other = low + 1 ∨
      units (low + 1) * den < units other * den := by
  obtain h | h | h | h : other < low ∨ other = low ∨ other = low + 1 ∨ low + 1 < other := by omega
  · exact .inl (size_lt_size hden h)
  · exact .inr (.inl h)
  · exact .inr (.inr (.inl h))
  · exact .inr (.inr (.inr (size_lt_size hden h)))

namespace Bracket

variable {steps den low magnitude : Nat}

/-- No other magnitude is nearer. -/
theorem nearest (h : Bracket steps den low magnitude) (hden : 0 < den) (other : Nat) :
    distance steps den magnitude ≤ distance steps den other := by
  obtain ⟨hlow, hhigh, hside, -⟩ := h
  have hother := size_cases hden low other
  unfold distance
  obtain ⟨rfl, hside⟩ | ⟨rfl, hside⟩ := hside <;> obtain h | rfl | rfl | h := hother <;> omega

/-- If another one is equally near, this one is even. -/
theorem even_of_eq (h : Bracket steps den low magnitude) (hden : 0 < den) {other : Nat}
    (hne : other ≠ magnitude) (heq : distance steps den other = distance steps den magnitude) :
    magnitude % 2 = 0 := by
  obtain ⟨hlow, hhigh, hside, heven⟩ := h
  have hother := size_cases hden low other
  refine heven ?_
  unfold distance at heq
  obtain ⟨rfl, hside⟩ | ⟨rfl, hside⟩ := hside <;> obtain h | rfl | rfl | h := hother <;> omega

end Bracket

/-- Below a fraction the larger magnitude is the nearer one. -/
theorem distance_lt_distance {steps den m n : Nat} (hden : 0 < den) (h : m < n)
    (hbelow : units n * den ≤ steps) : distance steps den n < distance steps den m := by
  have hsize := size_lt_size hden h
  unfold distance
  omega

/-- A magnitude is not far from itself. -/
theorem distance_self (den magnitude : Nat) :
    distance (units magnitude * den) den magnitude = 0 := by
  rw [distance, Int.sub_self, Int.natAbs_zero]

/-- No other magnitude is the same number. -/
theorem distance_ne_zero {den m n : Nat} (hden : 0 < den) (hne : n ≠ m) :
    distance (units m * den) den n ≠ 0 := by
  unfold distance
  obtain h | h := Nat.lt_or_gt_of_ne hne
  · have hsize := size_lt_size hden h
    omega
  · have hsize := size_lt_size hden h
    omega

/-- **The nearest magnitude is one to which the fraction rounds.** -/
theorem rounds_nearest (num : Nat) {den : Nat} (hden : 0 < den) :
    Rounds num den (nearest num den) := by
  obtain ⟨low, magnitude, hnearest, hbracket⟩ := exists_bracket num hden
  by_cases hlow : low < infinity
  · have hle : magnitude ≤ infinity := by
      obtain ⟨rfl, -⟩ | ⟨rfl, -⟩ := hbracket.side <;> omega
    rw [hnearest, Nat.min_eq_left hle]
    exact ⟨hle, fun other _ => hbracket.nearest hden other,
      fun other _ => hbracket.even_of_eq hden⟩
  · -- Both magnitudes around the fraction are beyond infinity, or the lower one is infinity.
    have hle : infinity ≤ magnitude := by
      obtain ⟨rfl, -⟩ | ⟨rfl, -⟩ := hbracket.side <;> omega
    have hbelow : units infinity * den ≤ num * 2 ^ 1074 :=
      Nat.le_trans (Nat.mul_le_mul_right den (units_le_units (by omega))) hbracket.low_le
    rw [hnearest, Nat.min_eq_right hle]
    refine ⟨Nat.le_refl _, fun other hother => ?_, fun other hother hne heq => ?_⟩
    · obtain h | rfl := Nat.lt_or_eq_of_le hother
      · exact Nat.le_of_lt (distance_lt_distance hden h hbelow)
      · exact Nat.le_refl _
    · have hlt := distance_lt_distance hden (Nat.lt_of_le_of_ne hother hne) hbelow
      exact absurd heq (Nat.ne_of_gt hlt)

/-- A fraction does not round to two magnitudes, as one of two that are equally near would
be odd or would have a nearer one above it. -/
theorem Rounds.not_lt {num den m n : Nat} (hden : 0 < den) (hm : Rounds num den m)
    (hn : Rounds num den n) : ¬ m < n := by
  intro h
  have heq := Nat.le_antisymm (hm.nearest n hn.le_infinity) (hn.nearest m hm.le_infinity)
  have hmeven := hm.even n hn.le_infinity (Nat.ne_of_gt h) heq.symm
  have hneven := hn.even m hm.le_infinity (Nat.ne_of_lt h) heq
  have hnext := hm.nearest (m + 1) (Nat.le_trans h hn.le_infinity)
  have hbelow : units m * den < units (m + 1) * den := size_lt_size hden (Nat.lt_succ_self m)
  have habove : units (m + 1) * den < units n * den := size_lt_size hden (by omega)
  unfold distance at heq hnext
  generalize num * 2 ^ 1074 = steps at heq hnext
  omega

/-- The fraction rounds to the nearest magnitude and to no other. -/
theorem rounds_iff {num den magnitude : Nat} (hden : 0 < den) :
    Rounds num den magnitude ↔ magnitude = nearest num den := by
  have hnearest := rounds_nearest num hden
  refine ⟨fun h => ?_, fun h => h ▸ hnearest⟩
  have hless := h.not_lt hden hnearest
  have hmore := hnearest.not_lt hden h
  omega

end FilterQuery.Binary64
