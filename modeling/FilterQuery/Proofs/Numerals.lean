import FilterQuery.Literal.Canonical
import FilterQuery.Proofs.Shortest
import FilterQuery.Token.Scan

/-!
# FilterQuery.Proofs.Numerals

Numerals read back: the text of a number denotes that number.

* `Decimal.positional_eq` — the digits before and behind the point, put
  together, are the decimal;
* `Number.ofNumeral?_integer`, `Number.ofNumeral?_float` — a numeral is read as
  the number that it was written for;
* `Number.isNumeralPart_of_mem_text` — a numeral holds nothing that would end an
  unquoted value;
* `Literal.ofUnquoted_text` — and it is no constant.
-/

namespace FilterQuery

/-! ## digits -/

namespace Decimal

/-- Digits of a number denote it. -/
theorem ofDigits_toDigits (n : Nat) : ofDigits (Nat.toDigits 10 n) = n := by
  rw [ofDigits_eq, Nat.ofDigitChars_ten_toDigits]

/-- The digits of a fraction are as many as its places. -/
theorem length_fractionDigits {places n : Nat} (hplaces : 0 < places) (h : n < 10 ^ places) :
    (fractionDigits places n).length = places := by
  have hlength := (Nat.length_toDigits_le_iff (by decide) hplaces).mpr h
  simp only [fractionDigits, List.leftpad, List.length_append, List.length_replicate]
  omega

/-- The digits of a whole part and of a fraction, put together. -/
theorem ofDigits_append_fractionDigits (whole : Nat) {places n : Nat} (hplaces : 0 < places)
    (h : n < 10 ^ places) :
    ofDigits (Nat.toDigits 10 whole ++ fractionDigits places n) = 10 ^ places * whole + n := by
  have hfraction : Nat.ofDigitChars 10 (fractionDigits places n) 0 = n := by
    rw [fractionDigits, List.leftpad, Nat.ofDigitChars_append, Nat.ofDigitChars_replicate_zero,
      Nat.mul_zero, Nat.ofDigitChars_ten_toDigits]
  rw [ofDigits_eq, ofDigitChars_append_zero, hfraction, Nat.ofDigitChars_ten_toDigits,
    length_fractionDigits hplaces h]

/-- Only digits are written. -/
theorem isDigit_of_mem_toDigits {n : Nat} {c : Char} (h : c ∈ Nat.toDigits 10 n) :
    c.isDigit = true :=
  Nat.isDigit_of_mem_toDigits (by decide) (by decide) h

/-- Also behind the point. -/
theorem isDigit_of_mem_fractionDigits {places n : Nat} {c : Char}
    (h : c ∈ fractionDigits places n) : c.isDigit = true := by
  obtain hzero | hdigit := List.mem_append.mp h
  · rw [List.eq_of_mem_replicate hzero]
    decide
  · exact isDigit_of_mem_toDigits hdigit

/-- A decimal is written as a whole number, a point and a fraction. -/
theorem positional_eq (d : Decimal) : ∃ whole places n,
    d.positional = Nat.toDigits 10 whole ++ '.' :: fractionDigits places n ∧
      0 < places ∧ n < 10 ^ places ∧
      (10 ^ places * whole + n) * d.denominator = d.numerator * 10 ^ places := by
  unfold positional
  split
  · next hexponent =>
    refine ⟨d.digits * 10 ^ d.exponent.toNat, 1, 0, rfl, by decide, by decide, ?_⟩
    have hnegative : (-d.exponent).toNat = 0 := by omega
    rw [denominator, hnegative, Nat.pow_zero, Nat.mul_one, Nat.add_zero, Nat.mul_comm]
    rfl
  · next hexponent =>
    have hplaces : 0 < (-d.exponent).toNat := by omega
    have hpositive : d.exponent.toNat = 0 := by omega
    refine ⟨_, _, _, rfl, hplaces, Nat.mod_lt _ (Nat.pow_pos (by decide)), ?_⟩
    rw [Nat.div_add_mod, denominator, numerator, hpositive, Nat.pow_zero, Nat.mul_one]

/-- The first character is a digit. -/
theorem isDigit_of_mem_head?_positional (d : Decimal) :
    ∀ c ∈ d.positional.head?, c.isDigit = true := by
  obtain ⟨whole, places, n, htext, -⟩ := d.positional_eq
  intro c hc
  obtain ⟨first, digits, hwhole⟩ := List.exists_cons_of_ne_nil (@Nat.toDigits_ne_nil whole 10)
  rw [htext, hwhole] at hc
  cases hc
  exact isDigit_of_mem_toDigits (hwhole ▸ List.mem_cons_self)

/-- A decimal in positional form is digits and a point. -/
theorem mem_positional {d : Decimal} {c : Char} (hc : c ∈ d.positional) :
    c.isDigit = true ∨ c = '.' := by
  obtain ⟨whole, places, n, htext, -⟩ := d.positional_eq
  rw [htext] at hc
  obtain hc | hc := List.mem_append.mp hc
  · exact .inl (isDigit_of_mem_toDigits hc)
  obtain rfl | hc := List.mem_cons.mp hc
  · exact .inr rfl
  · exact .inl (isDigit_of_mem_fractionDigits hc)

end Decimal

namespace Number

/-! ## reading numerals -/

/-- Digits alone are read as an integer. -/
theorem ofUnsigned?_digits (negative : Bool) {digits : List Char} (hne : digits ≠ [])
    (hdigits : ∀ c ∈ digits, c.isDigit = true) :
    ofUnsigned? negative digits =
      ofInt? (if negative then -(Decimal.ofDigits digits : Int) else Decimal.ofDigits digits) := by
  have hwhole : digits.takeWhile Char.isDigit = digits := by
    rw [← List.append_nil digits, List.takeWhile_append_of_pos hdigits, List.takeWhile_nil]
  have hrest : digits.dropWhile Char.isDigit = [] := by
    rw [← List.append_nil digits, List.dropWhile_append_of_pos hdigits, List.dropWhile_nil]
  obtain ⟨c, cs, rfl⟩ := List.exists_cons_of_ne_nil hne
  simp only [ofUnsigned?, hwhole, hrest]

/-- Digits, a point and digits are read as a float. -/
theorem ofUnsigned?_point (negative : Bool) {whole fraction : List Char} (hwhole : whole ≠ [])
    (hfraction : fraction ≠ []) (hdigits : ∀ c ∈ whole, c.isDigit = true)
    (hdigits' : ∀ c ∈ fraction, c.isDigit = true) :
    ofUnsigned? negative (whole ++ '.' :: fraction) =
      ofDecimal? negative (Decimal.ofDigits (whole ++ fraction)) fraction.length := by
  have htake : (whole ++ '.' :: fraction).takeWhile Char.isDigit = whole := by
    rw [List.takeWhile_append_of_pos hdigits]
    simp
  have hdrop : (whole ++ '.' :: fraction).dropWhile Char.isDigit = '.' :: fraction := by
    rw [List.dropWhile_append_of_pos hdigits]
    simp
  obtain ⟨c, cs, rfl⟩ := List.exists_cons_of_ne_nil hwhole
  have hcond : fraction ≠ [] ∧ fraction.all Char.isDigit = true :=
    ⟨hfraction, List.all_eq_true.mpr hdigits'⟩
  simp only [ofUnsigned?, htake, hdrop, if_pos hcond]

/-- The positional form of a decimal is read as the number nearest to it. -/
theorem ofUnsigned?_positional {magnitude : Fin (2 ^ 63)} (negative : Bool) {d : Decimal}
    (hfinite : magnitude.val < Binary64.infinity)
    (h : Binary64.nearest d.numerator d.denominator = magnitude) :
    ofUnsigned? negative d.positional = some (.float ⟨negative, magnitude⟩) := by
  obtain ⟨whole, places, n, htext, hplaces, hn, hratio⟩ := d.positional_eq
  have hlength := Decimal.length_fractionDigits hplaces hn
  have hne : Decimal.fractionDigits places n ≠ [] :=
    List.length_pos_iff.mp (by rwa [hlength])
  have hnearest : Binary64.nearest (10 ^ places * whole + n) (10 ^ places) = magnitude :=
    (Binary64.nearest_congr (Nat.pow_pos (by decide)) (Nat.pow_pos (by decide)) hratio).trans h
  have hread : Binary64.ofRatio negative (10 ^ places * whole + n) (10 ^ places) =
      ⟨negative, magnitude⟩ := by
    rw [Binary64.ofRatio, Binary64.mk.injEq]
    exact ⟨rfl, Fin.ext hnearest⟩
  rw [htext, ofUnsigned?_point negative Nat.toDigits_ne_nil hne
    (fun c => Decimal.isDigit_of_mem_toDigits) (fun c => Decimal.isDigit_of_mem_fractionDigits),
    Decimal.ofDigits_append_fractionDigits whole hplaces hn, hlength]
  simp only [ofDecimal?, hread, Binary64.isFinite, hfinite, decide_true, if_true]

/-- A sign is read off the digits behind it. -/
theorem ofNumeral?_sign (negative : Bool) {numeral : List Char}
    (hdigit : ∀ c ∈ numeral.head?, c.isDigit = true) :
    ofNumeral? ((if negative then ['-'] else []) ++ numeral) = ofUnsigned? negative numeral := by
  cases negative with
  | true => rfl
  | false =>
    rw [if_neg (by decide), List.nil_append]
    unfold ofNumeral?
    split
    · exact absurd (hdigit '-' rfl) (by decide)
    · rfl

/-! ## integers -/

/-- A number of 64 bits is within their bounds. -/
theorem ofInt?_toInt (n : Int64) : ofInt? n.toInt = some (.integer n) := by
  rw [ofInt?, if_pos ⟨n.le_toInt, n.toInt_lt⟩, Int64.ofInt_toInt]

/-- The sign of an integer and its digits. -/
theorem toList_repr (n : Int) : (Int.repr n).toList =
    (if decide (n < 0) then ['-'] else []) ++ Nat.toDigits 10 n.natAbs := by
  cases n with
  | ofNat n =>
    have hpositive : decide (Int.ofNat n < 0) = false := by simp
    rw [hpositive]
    exact Nat.toList_repr
  | negSucc n =>
    simp [Int.repr, Nat.toList_repr, Int.negSucc_lt_zero]

/-- An integer reads back. -/
theorem ofNumeral?_integer (n : Int64) :
    ofNumeral? (Number.integer n).text = some (.integer n) := by
  have hdigit : ∀ c ∈ (Nat.toDigits 10 n.toInt.natAbs).head?, c.isDigit = true :=
    fun c hc => Decimal.isDigit_of_mem_toDigits (List.mem_of_head? hc)
  have hvalue : (if decide (n.toInt < 0) then -(n.toInt.natAbs : Int) else n.toInt.natAbs) =
      n.toInt := by
    by_cases hnegative : n.toInt < 0
    · rw [if_pos (decide_eq_true hnegative)]
      omega
    · rw [if_neg (by simp [hnegative])]
      omega
  rw [text, toList_repr, ofNumeral?_sign _ hdigit, ofUnsigned?_digits _ Nat.toDigits_ne_nil
    (fun c => Decimal.isDigit_of_mem_toDigits), Decimal.ofDigits_toDigits, hvalue, ofInt?_toInt]

/-! ## floats -/

/-- The magnitude of a finite float is below that of infinity. -/
theorem lt_infinity {x : Binary64} (h : x.isFinite = true) : x.magnitude.val < Binary64.infinity :=
  of_decide_eq_true h

/-- A finite float is written as its sign and its shortest decimal. -/
theorem text_of_isFinite {x : Binary64} (h : x.isFinite = true) (form : Binary64.Layout) :
    x.text form = (if x.negative then ['-'] else []) ++
      form.decimal (Binary64.shortest form.tie x.magnitude.val) := by
  simp [Binary64.text, Binary64.isNaN_of_isFinite h, h]

/-- The numeral of a finite float. -/
theorem text_float {x : Binary64} (h : x.isFinite = true) : (Number.float x).text =
    (if x.negative then ['-'] else []) ++
      (Binary64.shortest layout.tie x.magnitude.val).positional := by
  rw [text, text_of_isFinite h]
  simp [Binary64.Layout.decimal, Binary64.Layout.isPositional, layout]

/-- A finite float reads back. -/
theorem ofNumeral?_float {x : Binary64} (h : x.isFinite = true) :
    ofNumeral? (Number.float x).text = some (.float x) := by
  have hread := ofUnsigned?_positional x.negative (lt_infinity h)
    (Binary64.nearest_shortest (lt_infinity h) layout.tie)
  rw [text_float h, ofNumeral?_sign _ (Decimal.isDigit_of_mem_head?_positional _), hread]

/-! ## characters of numerals -/

/-- Digits, the point and the sign make up numerals. -/
def isNumeralPart (c : Char) : Bool := c.isDigit || c == '.' || c == '-'

/-- The code of a character in a numeral. -/
theorem code_of_isNumeralPart {c : Char} (h : isNumeralPart c = true) :
    0x2D ≤ c.toNat ∧ c.toNat ≤ 0x39 := by
  simp only [isNumeralPart, Char.isDigit, Bool.or_eq_true, Bool.and_eq_true, decide_eq_true_eq,
    beq_iff_eq, ge_iff_le, UInt32.le_iff_toNat_le] at h
  obtain (h | rfl) | rfl := h
  · simp at h
    omega
  · decide
  · decide

/-- A numeral holds no blank and no `)`. -/
theorem isValuePart_of_isNumeralPart {c : Char} (h : isNumeralPart c = true) :
    Token.isValuePart c = true := by
  obtain ⟨hlow, hhigh⟩ := code_of_isNumeralPart h
  exact Token.isValuePart_of_code (by omega) (by omega)

/-- A numeral is no word. -/
theorem isIdentifierStart_of_isNumeralPart {c : Char} (h : isNumeralPart c = true) :
    isIdentifierStart c = false := by
  obtain ⟨hlow, hhigh⟩ := code_of_isNumeralPart h
  have halpha : c.isAlpha = false := by
    rw [← Bool.not_eq_true, Text.isAlpha_iff_code]
    omega
  have hunderscore : c ≠ '_' := by
    intro hc
    subst hc
    exact absurd hhigh (by decide)
  simp [isIdentifierStart, halpha, hunderscore]

/-- Whether a number has a numeral: infinities and NaN do not. -/
def isFinite : Number → Bool
  | .integer _ => true
  | .float x => x.isFinite

/-- A numeral is its sign and a digit, and more digits and perhaps a point. -/
theorem text_eq {n : Number} (h : n.isFinite = true) : ∃ (negative : Bool) (numeral : List Char),
    n.text = (if negative then ['-'] else []) ++ numeral ∧ numeral ≠ [] ∧
      ∀ c ∈ numeral, c.isDigit = true ∨ c = '.' := by
  cases n with
  | integer n =>
    exact ⟨_, _, toList_repr n.toInt, Nat.toDigits_ne_nil,
      fun c hc => .inl (Decimal.isDigit_of_mem_toDigits hc)⟩
  | float x =>
    have hne : (Binary64.shortest layout.tie x.magnitude.val).positional ≠ [] := by
      obtain ⟨whole, places, fraction, htext, -⟩ :=
        (Binary64.shortest layout.tie x.magnitude.val).positional_eq
      simp [htext]
    exact ⟨x.negative, _, text_float h, hne, fun c => Decimal.mem_positional⟩

/-- No numeral is empty. -/
theorem text_ne_nil {n : Number} (h : n.isFinite = true) : n.text ≠ [] := by
  obtain ⟨negative, numeral, htext, hne, -⟩ := text_eq h
  simp [htext, hne]

/-- Nothing else is in a numeral. -/
theorem isNumeralPart_of_mem_text {n : Number} (h : n.isFinite = true) {c : Char}
    (hc : c ∈ n.text) : isNumeralPart c = true := by
  obtain ⟨negative, numeral, htext, -, hnumeral⟩ := text_eq h
  rw [htext] at hc
  obtain hc | hc := List.mem_append.mp hc
  · cases negative <;> simp_all [isNumeralPart]
  · obtain h | rfl := hnumeral c hc <;> simp_all [isNumeralPart]

/-- Every number that has a numeral is read back from it. -/
theorem ofNumeral?_text {n : Number} (h : n.isFinite = true) : ofNumeral? n.text = some n := by
  cases n with
  | integer n => exact ofNumeral?_integer n
  | float x => exact ofNumeral?_float h

end Number

/-! ## constants -/

/-- Only a letter becomes a small letter. -/
theorem Text.isAlpha_of_toLower {c : Char} (h : c.toLower.isAlpha = true) : c.isAlpha = true := by
  unfold Char.toLower at h
  split at h
  · next hupper => exact isAlpha_iff_code.mpr (.inl hupper)
  · exact h

/-- What spells a word that starts with a letter starts with a letter. -/
theorem Text.isAlpha_of_spells {word : String} {c : Char} {cs : List Char}
    (hword : word.toList.head?.all Char.isAlpha = true) (h : spells word (c :: cs) = true) :
    c.isAlpha = true := by
  rw [spells, beq_iff_eq] at h
  rw [← h] at hword
  exact isAlpha_of_toLower hword

/-- A constant starts with a letter. -/
theorem Literal.constant?_eq_none {c : Char} (hc : isIdentifierStart c = false) (cs : List Char) :
    constant? (c :: cs) = none := by
  have hspells {word : String} (hword : word.toList.head?.all Char.isAlpha = true) :
      Text.spells word (c :: cs) = false := by
    refine Bool.eq_false_iff.mpr fun h => ?_
    simp [isIdentifierStart, Text.isAlpha_of_spells hword h] at hc
  rw [constant?, hspells (by decide), hspells (by decide), hspells (by decide)]
  rfl

/-- **A numeral denotes its number.** -/
theorem Literal.ofUnquoted_text {n : Number} (h : n.isFinite = true) :
    ofUnquoted (String.ofList n.text) = .number n := by
  obtain ⟨c, cs, htext⟩ := List.exists_cons_of_ne_nil (Number.text_ne_nil h)
  have hc : isIdentifierStart c = false := Number.isIdentifierStart_of_isNumeralPart
    (Number.isNumeralPart_of_mem_text h (htext ▸ List.mem_cons_self))
  have hconstant : constant? n.text = none := htext ▸ constant?_eq_none hc cs
  simp only [ofUnquoted, String.toList_ofList, hconstant, Number.ofNumeral?_text h]

end FilterQuery
