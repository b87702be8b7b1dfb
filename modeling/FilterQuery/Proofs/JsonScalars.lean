import FilterQuery.Proofs.JsonLaws

/-!
# FilterQuery.Proofs.JsonScalars

Numbers and strings are written in JSON by the laws of compact writers.

* `Json.integerNumeral_repr` — integers;
* `Json.isFloatText_floatText` — floats: the shortest decimal rounds to the float, be it
  written positionally or with a power of ten;
* `Json.isStringText_quote` — strings.
-/

namespace FilterQuery

/-! ## digits -/

/-- The digits of a number. -/
theorem isDigits_toDigits (n : Nat) : IsDigits (Nat.toDigits 10 n) :=
  ⟨Nat.toDigits_ne_nil, fun _ => Decimal.isDigit_of_mem_toDigits⟩

/-- The digits of a fraction are at least as many as its places. -/
theorem isDigits_fractionDigits {places n : Nat} (hplaces : 0 < places) (h : n < 10 ^ places) :
    IsDigits (Decimal.fractionDigits places n) := by
  refine ⟨?_, fun _ => Decimal.isDigit_of_mem_fractionDigits⟩
  rw [← List.length_pos_iff, Decimal.length_fractionDigits hplaces h]
  exact hplaces

namespace Json

/-! ## numbers -/

/-- An integer is decimal. -/
theorem integerNumeral_repr (n : Int) : IntegerNumeral (Int.repr n).toList n := by
  refine ⟨decide (n < 0), Nat.toDigits 10 n.natAbs, Number.toList_repr n,
    isDigits_toDigits n.natAbs, ?_⟩
  rw [Nat.ofDigitChars_ten_toDigits]
  by_cases hnegative : n < 0
  · rw [if_pos (decide_eq_true hnegative)]
    omega
  · rw [if_neg (by simp [hnegative])]
    omega

/-- A decimal in positional form has digits on both sides of its point. -/
theorem isFloatText_positional {x : Binary64} {d : Decimal}
    (h : Binary64.nearest d.numerator d.denominator = x.magnitude) :
    IsFloatText x ((if x.negative then ['-'] else []) ++ d.positional) := by
  obtain ⟨whole, places, n, htext, hplaces, hn, hratio⟩ := d.positional_eq
  have hdigits := isDigits_fractionDigits hplaces hn
  have hvalue := Decimal.ofDigits_append_fractionDigits whole hplaces hn
  rw [Decimal.ofDigits_eq] at hvalue
  refine ⟨_, _, [], _, 0, by rw [htext, List.append_nil], isDigits_toDigits whole, .point hdigits,
    .absent, .inl (by simp), ?_⟩
  rw [Decimal.length_fractionDigits hplaces hn, hvalue]
  refine (Binary64.rounds_iff (Decimal.denominator_pos _)).mpr (h.symm.trans ?_)
  -- The places count as a power of ten below the bar.
  have hnumerator : (Decimal.mk (10 ^ places * whole + n) (0 - places)).numerator =
      10 ^ places * whole + n := by
    have hexponent : (0 - (places : Int)).toNat = 0 := by omega
    rw [Decimal.numerator, hexponent, Nat.pow_zero, Nat.mul_one]
  have hdenominator : (Decimal.mk (10 ^ places * whole + n) (0 - places)).denominator =
      10 ^ places := by
    have hexponent : (-(0 - (places : Int))).toNat = places := by omega
    rw [Decimal.denominator, hexponent]
  rw [hnumerator, hdenominator]
  exact Binary64.nearest_congr d.denominator_pos (Nat.pow_pos (by decide)) hratio.symm

/-- The order of a decimal is its power of ten in scientific form. -/
theorem isPower_order (order : Int) : IsPower ('e' :: ((if order < 0 then ['-'] else ['+']) ++
    Nat.toDigits 10 order.natAbs)) order := by
  have hdigits := isDigits_toDigits order.natAbs
  by_cases hnegative : order < 0
  · have hvalue : -(order.natAbs : Int) = order := by omega
    have hminus := IsPower.minus (.inl rfl) hdigits
    rw [Nat.ofDigitChars_ten_toDigits, hvalue] at hminus
    rwa [if_pos hnegative]
  · have hvalue : (order.natAbs : Int) = order := by omega
    have hplus := IsPower.plus (.inl rfl) hdigits
    rw [Nat.ofDigitChars_ten_toDigits, hvalue] at hplus
    rwa [if_neg hnegative]

/-- A decimal in scientific form has a power of ten, and a point if it has several
digits. -/
theorem isFloatText_scientific {x : Binary64} {d : Decimal}
    (h : Binary64.nearest d.numerator d.denominator = x.magnitude) :
    IsFloatText x ((if x.negative then ['-'] else []) ++ d.scientific ['+']) := by
  obtain ⟨c, cs, hcs⟩ := List.exists_cons_of_ne_nil (@Nat.toDigits_ne_nil d.digits 10)
  have hdigits := (isDigits_toDigits d.digits).2
  rw [hcs] at hdigits
  obtain ⟨hc, hfraction⟩ := List.forall_mem_cons.mp hdigits
  have hvalue : Nat.ofDigitChars 10 ([c] ++ cs) 0 = d.digits := by
    rw [List.singleton_append, ← hcs, Nat.ofDigitChars_ten_toDigits]
  have hexponent : d.order - cs.length = d.exponent := by
    rw [Decimal.order, hcs, List.length_cons]
    omega
  refine ⟨[c], if cs = [] then [] else '.' :: cs, _, cs, d.order, ?_, ⟨by simp, by simpa using hc⟩,
    ?_, isPower_order d.order, .inr (by simp), ?_⟩
  · simp [Decimal.scientific, hcs]
  · split
    · next h => exact h ▸ .absent
    · next h => exact .point ⟨h, hfraction⟩
  · rw [hvalue, hexponent]
    exact (Binary64.rounds_iff (Decimal.denominator_pos _)).mpr h.symm

/-- A finite float is written as a decimal that rounds to it. -/
theorem isFloatText_floatText {x : Binary64} (h : x.isFinite = true) :
    IsFloatText x (floatText x).toList := by
  have hround := Binary64.nearest_shortest (Number.lt_infinity h) floatLayout.tie
  rw [floatText, if_pos h, String.toList_ofList, Number.text_of_isFinite h,
    Binary64.Layout.decimal]
  by_cases hform : floatLayout.isPositional (Binary64.shortest floatLayout.tie x.magnitude).order
  · rw [if_pos hform]
    exact isFloatText_positional hround
  · rw [if_neg hform]
    exact isFloatText_scientific hround

/-! ## strings -/

/-- The escape sequence of a character. -/
theorem escapes_escapeChar (c : Char) : Escapes c (escapeChar c) := by
  have hshort : ∀ p ∈ shortEscapes, escapeChar p.1 = ['\\', p.2] := by decide
  by_cases h : ∃ letter, (c, letter) ∈ shortEscapes
  · obtain ⟨letter, h⟩ := h
    rw [hshort _ h]
    exact .short h
  · have hne : ∀ p ∈ shortEscapes, c ≠ p.1 := by
      rintro ⟨d, letter⟩ hmem rfl
      exact h ⟨letter, hmem⟩
    simp only [shortEscapes, List.forall_mem_cons] at hne
    obtain ⟨hquote, hbackslash, hb, ht, hn, hf, hr, -⟩ := hne
    rw [escapeChar, if_neg hquote, if_neg hbackslash, if_neg hb, if_neg ht, if_neg hn, if_neg hf,
      if_neg hr]
    by_cases hcontrol : c.toNat < 0x20
    · rw [if_pos hcontrol]
      exact .code hcontrol
    · rw [if_neg hcontrol]
      exact .plain hquote hbackslash (Nat.le_of_not_lt hcontrol)

/-- The characters of a string and the quote behind them. -/
theorem isQuoted_flatMap (cs : List Char) : IsQuoted cs (cs.flatMap escapeChar ++ ['"']) := by
  induction cs with
  | nil => exact .nil
  | cons c cs ih =>
    rw [List.flatMap_cons, List.append_assoc]
    exact .cons (escapes_escapeChar c) ih

/-- A string is written in quotes, with what has to be escaped. -/
theorem isStringText_quote (s : String) : IsStringText s (quote s).toList :=
  ⟨_, by rw [quote, String.toList_ofList, List.cons_append], isQuoted_flatMap s.toList⟩

end Json

end FilterQuery
