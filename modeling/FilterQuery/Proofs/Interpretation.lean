import FilterQuery.Proofs.Numerals
import FilterQuery.Proofs.Rounding
import FilterQuery.Proofs.Words

/-!
# FilterQuery.Proofs.Interpretation

What an unquoted text denotes, and that the text of a value other than a string denotes
that value again.

* `IntegerNumeral`, `FloatNumeral` — the two forms of numerals and their exact values;
* `Number.ofUnsigned?_cases` — nothing else is read as a number;
* `Number.ofNumeral?_eq_integer_iff`, `Number.ofNumeral?_eq_float_iff` — an integer is read
  if 64 bits hold it, a float if it does not round to infinity;
* `Literal.denotes` — what is no constant and no such number is a string;
* `Literal.ofUnquoted_exact` — and no value but a string is lost when it is written.
-/

namespace FilterQuery

/-! ## numerals -/

/-- ASCII digits, and at least one of them. -/
def IsDigits (cs : List Char) : Prop := cs ≠ [] ∧ ∀ c ∈ cs, c.isDigit = true

/-- A digit stands in front. -/
theorem IsDigits.exists_cons {digits : List Char} (h : IsDigits digits) :
    ∃ c cs, digits = c :: cs ∧ c.isDigit = true := by
  obtain ⟨hne, hall⟩ := h
  obtain ⟨c, cs, rfl⟩ := List.exists_cons_of_ne_nil hne
  exact ⟨c, cs, rfl, hall c List.mem_cons_self⟩

/-- Also if something follows. -/
theorem IsDigits.isDigit_head? {digits : List Char} (h : IsDigits digits) (rest : List Char) :
    ∀ c ∈ (digits ++ rest).head?, c.isDigit = true := by
  obtain ⟨c, cs, rfl, hc⟩ := h.exists_cons
  intro d hd
  cases hd
  exact hc

/-- The text is a numeral without a point and denotes exactly `v`. -/
def IntegerNumeral (cs : List Char) (v : Int) : Prop :=
  ∃ (negative : Bool) (digits : List Char), cs = (if negative then ['-'] else []) ++ digits ∧
    IsDigits digits ∧
    v = if negative then -(Nat.ofDigitChars 10 digits 0 : Int) else Nat.ofDigitChars 10 digits 0

/-- The text is a numeral with a point and denotes a fraction that rounds to `x`. -/
def FloatNumeral (cs : List Char) (x : Binary64) : Prop :=
  ∃ whole fraction : List Char,
    cs = (if x.negative then ['-'] else []) ++ (whole ++ '.' :: fraction) ∧
      IsDigits whole ∧ IsDigits fraction ∧
      Binary64.Rounds (Nat.ofDigitChars 10 (whole ++ fraction) 0) (10 ^ fraction.length)
        x.magnitude

namespace Number

variable {negative : Bool} {cs : List Char} {n : Number}

/-- What is read as a number without its sign are digits, with a point among them or
without. -/
theorem ofUnsigned?_cases (h : ofUnsigned? negative cs = some n) :
    (IsDigits cs ∧ ofInt? (if negative then -(Decimal.ofDigits cs : Int) else
        Decimal.ofDigits cs) = some n) ∨
      ∃ whole fraction, cs = whole ++ '.' :: fraction ∧ IsDigits whole ∧ IsDigits fraction ∧
        ofDecimal? negative (Decimal.ofDigits (whole ++ fraction)) fraction.length = some n := by
  have hsplit := List.takeWhile_append_dropWhile (p := Char.isDigit) (l := cs)
  have hdigits : ∀ c ∈ cs.takeWhile Char.isDigit, c.isDigit = true :=
    List.all_eq_true.mp List.all_takeWhile
  simp only [ofUnsigned?] at h
  generalize cs.takeWhile Char.isDigit = whole at *
  generalize cs.dropWhile Char.isDigit = rest at *
  split at h
  case h_1 => cases h
  case h_2 hne =>
    rw [List.append_nil] at hsplit
    subst hsplit
    exact .inl ⟨⟨hne, hdigits⟩, h⟩
  case h_3 fraction hne =>
    obtain ⟨⟨hfraction, hall⟩, hdecimal⟩ := Option.ite_none_right_eq_some.mp h
    exact .inr ⟨whole, fraction, hsplit.symm, ⟨hne, hdigits⟩,
      ⟨hfraction, List.all_eq_true.mp hall⟩, hdecimal⟩
  case h_4 => cases h

/-- A number is read behind its sign. -/
theorem exists_sign (h : ofNumeral? cs = some n) : ∃ (negative : Bool) (numeral : List Char),
    cs = (if negative then ['-'] else []) ++ numeral ∧ ofUnsigned? negative numeral = some n := by
  unfold ofNumeral? at h
  split at h
  · next numeral => exact ⟨true, numeral, rfl, h⟩
  · exact ⟨false, cs, rfl, h⟩

/-- An integer is made of a whole number if 64 bits can hold that. -/
theorem ofInt?_eq_some_iff {v : Int} : ofInt? v = some n ↔
    ∃ m : Int64, m.toInt = v ∧ n = .integer m := by
  constructor
  · intro h
    obtain ⟨⟨hlow, hhigh⟩, hn⟩ := Option.ite_none_right_eq_some.mp h
    exact ⟨Int64.ofInt v, Int64.toInt_ofInt_of_le hlow hhigh, (Option.some.inj hn).symm⟩
  · rintro ⟨m, rfl, rfl⟩
    exact ofInt?_toInt m

/-- A float is made of a fraction if that does not round to infinity. -/
theorem ofDecimal?_eq_some_iff {digits places : Nat} : ofDecimal? negative digits places = some n ↔
    ∃ x : Binary64, (x.negative = negative ∧
      Binary64.Rounds digits (10 ^ places) x.magnitude ∧ x.isFinite = true) ∧ n = .float x := by
  have hden : 0 < 10 ^ places := Nat.pow_pos (by decide)
  constructor
  · intro h
    obtain ⟨hfinite, hn⟩ := Option.ite_none_right_eq_some.mp h
    exact ⟨_, ⟨rfl, Binary64.rounds_nearest digits hden, hfinite⟩, (Option.some.inj hn).symm⟩
  · rintro ⟨x, ⟨rfl, hrounds, hfinite⟩, rfl⟩
    have hx : Binary64.ofRatio x.negative digits (10 ^ places) = x := by
      rw [Binary64.ofRatio, Binary64.mk.injEq]
      exact ⟨rfl, Fin.ext ((Binary64.rounds_iff hden).mp hrounds).symm⟩
    simp only [ofDecimal?, hx, hfinite, if_true]

/-- The numerals of integers. -/
theorem ofNumeral?_eq_integer_iff {m : Int64} :
    ofNumeral? cs = some (.integer m) ↔ IntegerNumeral cs m.toInt := by
  constructor
  · intro h
    obtain ⟨negative, numeral, rfl, hnumeral⟩ := exists_sign h
    obtain ⟨hdigits, hint⟩ | ⟨_, _, -, -, -, hdecimal⟩ := ofUnsigned?_cases hnumeral
    · obtain ⟨m', hvalue, hm⟩ := ofInt?_eq_some_iff.mp hint
      cases hm
      rw [Decimal.ofDigits_eq] at hvalue
      exact ⟨negative, numeral, rfl, hdigits, hvalue⟩
    · obtain ⟨x, -, hx⟩ := ofDecimal?_eq_some_iff.mp hdecimal
      cases hx
  · rintro ⟨negative, digits, rfl, hdigits, hvalue⟩
    have hhead := hdigits.isDigit_head? []
    rw [List.append_nil] at hhead
    rw [ofNumeral?_sign negative hhead, ofUnsigned?_digits negative hdigits.1 hdigits.2,
      Decimal.ofDigits_eq, ← hvalue, ofInt?_toInt]

/-- The numerals of floats. -/
theorem ofNumeral?_eq_float_iff {x : Binary64} :
    ofNumeral? cs = some (.float x) ↔ FloatNumeral cs x ∧ x.isFinite = true := by
  constructor
  · intro h
    obtain ⟨negative, numeral, rfl, hnumeral⟩ := exists_sign h
    obtain ⟨-, hint⟩ | ⟨whole, fraction, rfl, hwhole, hfraction, hdecimal⟩ :=
      ofUnsigned?_cases hnumeral
    · obtain ⟨m, -, hm⟩ := ofInt?_eq_some_iff.mp hint
      cases hm
    · obtain ⟨y, ⟨rfl, hrounds, hfinite⟩, hy⟩ := ofDecimal?_eq_some_iff.mp hdecimal
      cases hy
      rw [Decimal.ofDigits_eq] at hrounds
      exact ⟨⟨whole, fraction, rfl, hwhole, hfraction, hrounds⟩, hfinite⟩
  · rintro ⟨⟨whole, fraction, rfl, hwhole, hfraction, hrounds⟩, hfinite⟩
    rw [← Decimal.ofDigits_eq] at hrounds
    rw [ofNumeral?_sign _ (hwhole.isDigit_head? _),
      ofUnsigned?_point _ hwhole.1 hfraction.1 hwhole.2 hfraction.2]
    exact ofDecimal?_eq_some_iff.mpr ⟨x, ⟨rfl, hrounds, hfinite⟩, rfl⟩

/-- A number does not start like a word. -/
theorem isIdentifierStart_of_ofNumeral? (h : ofNumeral? cs = some n) :
    ∃ c rest, cs = c :: rest ∧ isIdentifierStart c = false := by
  obtain ⟨negative, numeral, rfl, hnumeral⟩ := exists_sign h
  have hdigit : ∃ c rest, numeral = c :: rest ∧ c.isDigit = true := by
    obtain ⟨hdigits, -⟩ | ⟨whole, fraction, rfl, hwhole, -⟩ := ofUnsigned?_cases hnumeral
    · exact hdigits.exists_cons
    · obtain ⟨c, rest, rfl, hc⟩ := hwhole.exists_cons
      exact ⟨c, _, rfl, hc⟩
  obtain ⟨c, rest, rfl, hc⟩ := hdigit
  cases negative with
  | true => exact ⟨'-', c :: rest, rfl, by decide⟩
  | false => exact ⟨c, rest, rfl, isIdentifierStart_of_isNumeralPart (by simp [isNumeralPart, hc])⟩

end Number

/-! ## values -/

namespace Literal

variable {raw : String}

/-- The words for constants, each of them for one. -/
theorem constant?_eq_some_iff {word : List Char} {value : Literal} :
    constant? word = some value ↔
      (∃ b : Bool, Text.spells (if b then "true" else "false") word = true ∧
        value = .boolean b) ∨ Text.spells "null" word = true ∧ value = .null := by
  have hdistinct {v w : String} (hne : v ≠ w) (h : Text.spells v word = true) :
      Text.spells w word = false :=
    Bool.eq_false_iff.mpr fun hw => hne (Text.eq_of_spells h hw)
  constructor
  · intro h
    unfold constant? at h
    split at h
    · next htrue => exact .inl ⟨true, htrue, (Option.some.inj h).symm⟩
    split at h
    · next hfalse => exact .inl ⟨false, hfalse, (Option.some.inj h).symm⟩
    obtain ⟨hnull, hvalue⟩ := Option.ite_none_right_eq_some.mp h
    exact .inr ⟨hnull, (Option.some.inj hvalue).symm⟩
  · rintro (⟨b, hb, rfl⟩ | ⟨hnull, rfl⟩)
    · cases b with
      | true => exact if_pos hb
      | false =>
        have htrue : Text.spells "true" word = false := hdistinct (by decide) hb
        rw [constant?, htrue, if_neg (by decide)]
        exact if_pos hb
    · have htrue : Text.spells "true" word = false := hdistinct (by decide) hnull
      have hfalse : Text.spells "false" word = false := hdistinct (by decide) hnull
      simp [constant?, htrue, hfalse, hnull]

/-- A text is a constant or a number or, if it is neither, denotes itself.  No text is both,
so the order in which these are tried does not matter. -/
theorem ofUnquoted_eq_iff {value : Literal} : ofUnquoted raw = value ↔
    constant? raw.toList = some value ∨
      (∃ n, Number.ofNumeral? raw.toList = some n ∧ value = .number n) ∨
      (constant? raw.toList = none ∧ Number.ofNumeral? raw.toList = none ∧
        value = .string raw) := by
  unfold ofUnquoted
  cases hconstant : constant? raw.toList with
  | some constant =>
    have hnumeral : Number.ofNumeral? raw.toList = none := by
      refine Option.eq_none_iff_forall_ne_some.mpr fun n hn => ?_
      obtain ⟨c, rest, hraw, hc⟩ := Number.isIdentifierStart_of_ofNumeral? hn
      rw [hraw, constant?_eq_none hc rest] at hconstant
      cases hconstant
    simp [hnumeral]
  | none =>
    cases hnumeral : Number.ofNumeral? raw.toList with
    | some n => simp [eq_comm]
    | none => simp [eq_comm]

theorem ofUnquoted_eq_number_iff {n : Number} :
    ofUnquoted raw = .number n ↔ Number.ofNumeral? raw.toList = some n := by
  simp [ofUnquoted_eq_iff, constant?_eq_some_iff]

theorem ofUnquoted_eq_boolean_iff {b : Bool} :
    ofUnquoted raw = .boolean b ↔ InAnyCase (if b then "true" else "false") raw.toList := by
  rw [← Text.spells_iff_inAnyCase (by cases b <;> decide)]
  simp [ofUnquoted_eq_iff, constant?_eq_some_iff]

theorem ofUnquoted_eq_null_iff : ofUnquoted raw = .null ↔ InAnyCase "null" raw.toList := by
  rw [← Text.spells_iff_inAnyCase (by decide)]
  simp [ofUnquoted_eq_iff, constant?_eq_some_iff]

theorem ofUnquoted_eq_string_iff {text : String} : ofUnquoted raw = .string text ↔
    constant? raw.toList = none ∧ Number.ofNumeral? raw.toList = none ∧ text = raw := by
  simp [ofUnquoted_eq_iff, constant?_eq_some_iff]

end Literal

/-- What an unquoted text denotes. -/
structure Denotes (raw : String) (value : Literal) : Prop where
  /-- An integer of 64 bits, by its exact value. -/
  integer : ∀ v : Int, (∃ n : Int64, n.toInt = v ∧ value = .number (.integer n)) ↔
    IntegerNumeral raw.toList v ∧ -2 ^ 63 ≤ v ∧ v ≤ 2 ^ 63 - 1
  /-- A float that the numeral rounds to, unless that is infinite. -/
  float : ∀ x : Binary64, value = .number (.float x) ↔
    FloatNumeral raw.toList x ∧ x.isFinite = true
  boolean : ∀ b : Bool, value = .boolean b ↔
    InAnyCase (if b then "true" else "false") raw.toList
  null : value = .null ↔ InAnyCase "null" raw.toList
  /-- The text itself, if it is none of these, numerals out of range included. -/
  string : ∀ text : String, value = .string text ↔
    (∀ constant ∈ constantWords, ¬ InAnyCase constant raw.toList) ∧
    (∀ v : Int, IntegerNumeral raw.toList v → v < -2 ^ 63 ∨ 2 ^ 63 - 1 < v) ∧
    (∀ x : Binary64, FloatNumeral raw.toList x → x.isFinite = false) ∧ text = raw

namespace Literal

variable {raw : String}

/-- The integers that can be read. -/
theorem exists_integer_iff {cs : List Char} {v : Int} :
    (∃ n : Int64, n.toInt = v ∧ Number.ofNumeral? cs = some (.integer n)) ↔
      IntegerNumeral cs v ∧ -2 ^ 63 ≤ v ∧ v ≤ 2 ^ 63 - 1 := by
  constructor
  · rintro ⟨n, rfl, hn⟩
    have hlow := n.le_toInt
    have hhigh := n.toInt_lt
    exact ⟨Number.ofNumeral?_eq_integer_iff.mp hn, hlow, by omega⟩
  · rintro ⟨hnumeral, hlow, hhigh⟩
    have hvalue : (Int64.ofInt v).toInt = v := Int64.toInt_ofInt_of_le hlow (by omega)
    exact ⟨Int64.ofInt v, hvalue, Number.ofNumeral?_eq_integer_iff.mpr (hvalue.symm ▸ hnumeral)⟩

/-- What is no numeral in range is not read as a number. -/
theorem ofNumeral?_eq_none_iff {cs : List Char} : Number.ofNumeral? cs = none ↔
    (∀ v : Int, IntegerNumeral cs v → v < -2 ^ 63 ∨ 2 ^ 63 - 1 < v) ∧
      ∀ x : Binary64, FloatNumeral cs x → x.isFinite = false := by
  constructor
  · intro h
    refine ⟨fun v hnumeral => ?_, fun x hnumeral => Bool.eq_false_iff.mpr fun hfinite => ?_⟩
    · by_cases hrange : -2 ^ 63 ≤ v ∧ v ≤ 2 ^ 63 - 1
      · obtain ⟨n, -, hn⟩ := exists_integer_iff.mpr ⟨hnumeral, hrange⟩
        rw [h] at hn
        cases hn
      · omega
    · rw [Number.ofNumeral?_eq_float_iff.mpr ⟨hnumeral, hfinite⟩] at h
      cases h
  · rintro ⟨hintegers, hfloats⟩
    refine Option.eq_none_iff_forall_ne_some.mpr fun n hn => ?_
    cases n with
    | integer n =>
      obtain ⟨hnumeral, hrange⟩ := exists_integer_iff.mp ⟨n, rfl, hn⟩
      have hout := hintegers _ hnumeral
      omega
    | float x =>
      obtain ⟨hnumeral, hfinite⟩ := Number.ofNumeral?_eq_float_iff.mp hn
      rw [hfloats x hnumeral] at hfinite
      cases hfinite

/-- A text that spells no constant is none. -/
theorem constant?_eq_none_iff {word : List Char} : constant? word = none ↔
    ∀ constant ∈ constantWords, ¬ InAnyCase constant word := by
  have hsmall : ∀ constant ∈ constantWords, constant.toList.all Char.isLower = true := by decide
  rw [← Option.not_isSome_iff_eq_none, isSome_constant?_iff, not_exists]
  refine forall_congr' fun constant => ?_
  rw [not_and]
  exact forall_congr' fun hmem => not_congr (Text.spells_iff_inAnyCase (hsmall constant hmem))

/-- The value of an unquoted text is the one that the text denotes. -/
theorem denotes (raw : String) : Denotes raw (ofUnquoted raw) where
  integer v := by
    simp only [ofUnquoted_eq_number_iff]
    exact exists_integer_iff
  float x := ofUnquoted_eq_number_iff.trans Number.ofNumeral?_eq_float_iff
  boolean b := ofUnquoted_eq_boolean_iff
  null := ofUnquoted_eq_null_iff
  string text := by
    rw [ofUnquoted_eq_string_iff, constant?_eq_none_iff, ofNumeral?_eq_none_iff, and_assoc]

/-- Every value but a string is written as a text that denotes it. -/
theorem ofUnquoted_text_of_ne_string (h : ∀ text, ofUnquoted raw ≠ .string text) :
    ofUnquoted (ofUnquoted raw).text = ofUnquoted raw := by
  cases hvalue : ofUnquoted raw with
  | string text => exact absurd hvalue (h text)
  | number n =>
    have hnumber := ofUnquoted_eq_number_iff.mp hvalue
    cases n with
    | integer n => exact ofUnquoted_text rfl
    | float x => exact ofUnquoted_text (Number.ofNumeral?_eq_float_iff.mp hnumber).2
  | boolean b =>
    rw [ofUnquoted_eq_boolean_iff]
    cases b <;> decide
  | null =>
    rw [ofUnquoted_eq_null_iff]
    decide

/-- **An unquoted text denotes exactly what is written**: a number by the exact value of its
digits where that is in range, a constant in any letter case, or else the text itself.  No
value but a string is lost when it is written and read again. -/
theorem ofUnquoted_exact (raw : String) : Denotes raw (ofUnquoted raw) ∧
    ((∀ text, ofUnquoted raw ≠ .string text) →
      ofUnquoted (ofUnquoted raw).text = ofUnquoted raw) :=
  ⟨denotes raw, ofUnquoted_text_of_ne_string⟩

/-- The least integer, a numeral one above the greatest, a float with zeros that need not
be written, and a constant in capitals. -/
theorem ofUnquoted_exact_bounds :
    Denotes "-09223372036854775808" (.number (.integer Int64.minValue)) ∧
      Denotes "9223372036854775808" (.string "9223372036854775808") ∧
      Denotes "-00.50" (.number (.float (.ofBits 0xBFE0000000000000))) ∧
      Denotes "TrUE" (.boolean true) ∧
      (Literal.number (.float (.ofBits 0xBFE0000000000000))).text = "-0.5" ∧
      ofUnquoted "-0.5" = .number (.float (.ofBits 0xBFE0000000000000)) ∧
      ofUnquoted "true" = .boolean true := by
  have hleast : ofUnquoted "-09223372036854775808" = .number (.integer Int64.minValue) := by
    decide +kernel
  have hbeyond : ofUnquoted "9223372036854775808" = .string "9223372036854775808" := by
    decide +kernel
  have hfloat : ofUnquoted "-00.50" = .number (.float (.ofBits 0xBFE0000000000000)) := by
    decide +kernel
  have hconstant : ofUnquoted "TrUE" = .boolean true := by decide +kernel
  have htext : (Literal.number (.float (.ofBits 0xBFE0000000000000))).text = "-0.5" := by
    decide +kernel
  have hread := (ofUnquoted_exact "-00.50").2 (by simp [hfloat])
  have hread' := (ofUnquoted_exact "TrUE").2 (by simp [hconstant])
  rw [hfloat, htext] at hread
  rw [hconstant] at hread'
  exact ⟨hleast ▸ (ofUnquoted_exact _).1, hbeyond ▸ (ofUnquoted_exact _).1,
    hfloat ▸ (ofUnquoted_exact _).1, hconstant ▸ (ofUnquoted_exact _).1, htext, hread, hread'⟩

end Literal

end FilterQuery
