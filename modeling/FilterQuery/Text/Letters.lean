/-!
# FilterQuery.Text.Letters

Comparison of words without regard to the case of ASCII letters.  Only `A` to
`Z` have a lower case here: no other character is ever equal to a letter.
-/

namespace FilterQuery.Text

/-! ## codes -/

/-- The codes of the small letters. -/
theorem isLower_iff_code {c : Char} : c.isLower = true ↔ 0x61 ≤ c.toNat ∧ c.toNat ≤ 0x7A :=
  Bool.and_eq_true_iff.trans (and_congr decide_eq_true_iff decide_eq_true_iff)

/-- The codes of the ASCII letters. -/
theorem isAlpha_iff_code {c : Char} : c.isAlpha = true ↔
    (0x41 ≤ c.toNat ∧ c.toNat ≤ 0x5A) ∨ (0x61 ≤ c.toNat ∧ c.toNat ≤ 0x7A) := by
  have hupper : c.isUpper = true ↔ 0x41 ≤ c.toNat ∧ c.toNat ≤ 0x5A := decide_eq_true_iff
  rw [← hupper, ← isLower_iff_code]
  exact Bool.or_eq_true_iff

/-- A capital and its small letter are 32 places apart. -/
theorem toNat_toLower (c : Char) : c.toLower.toNat =
    if 0x41 ≤ c.toNat ∧ c.toNat ≤ 0x5A then c.toNat + 0x20 else c.toNat := by
  unfold Char.toLower
  split
  · next hupper =>
    have hcode : 0x41 ≤ c.toNat ∧ c.toNat ≤ 0x5A := hupper
    have hshift : ('a'.val - 'A'.val).toNat = 0x20 := by decide
    have hsum : (c.val + ('a'.val - 'A'.val)).toNat = (c.toNat + 0x20) % 2 ^ 32 := by
      rw [UInt32.toNat_add, hshift]
      rfl
    rw [if_pos hcode]
    refine Eq.trans hsum ?_
    omega
  · next hupper => exact (if_neg hupper).symm

/-- And a small letter and its capital. -/
theorem toNat_toUpper (c : Char) : c.toUpper.toNat =
    if 0x61 ≤ c.toNat ∧ c.toNat ≤ 0x7A then c.toNat - 0x20 else c.toNat := by
  unfold Char.toUpper
  split
  · next hlower =>
    have hcode : 0x61 ≤ c.toNat ∧ c.toNat ≤ 0x7A := hlower
    have hshift : ('A'.val - 'a'.val).toNat = 2 ^ 32 - 0x20 := by decide
    have hsum : (c.val + ('A'.val - 'a'.val)).toNat = (c.toNat + (2 ^ 32 - 0x20)) % 2 ^ 32 := by
      rw [UInt32.toNat_add, hshift]
      rfl
    rw [if_pos hcode]
    refine Eq.trans hsum ?_
    omega
  · next hlower => exact (if_neg hlower).symm

/-- A character becomes a small letter if it is that letter or its capital. -/
theorem toLower_eq_small_iff {c small : Char} (h : small.isLower = true) :
    c.toLower = small ↔ c = small ∨ c = small.toUpper := by
  have hcode := isLower_iff_code.mp h
  rw [← Char.toNat_inj, ← Char.toNat_inj, ← Char.toNat_inj, toNat_toLower, toNat_toUpper,
    if_pos hcode]
  split <;> omega

/-! ## words -/

/-- The text with its ASCII capitals made small. -/
def lowerCase (cs : List Char) : List Char := cs.map Char.toLower

/-- Does the text spell `word`, given in small letters, in any letter case? -/
def spells (word : String) (cs : List Char) : Bool :=
  lowerCase cs == word.toList

/-- Spelling is a matter of the lower-case form alone. -/
theorem spells_congr {word : String} {cs ds : List Char} (h : lowerCase cs = lowerCase ds) :
    spells word cs = spells word ds := by
  simp [spells, h]

/-- A text spells at most one word. -/
theorem eq_of_spells {v w : String} {cs : List Char} (hv : spells v cs = true)
    (hw : spells w cs = true) : v = w := by
  simp only [spells, beq_iff_eq] at hv hw
  exact String.toList_inj.mp (hv.symm.trans hw)

end FilterQuery.Text
