import FilterQuery.Json
import FilterQuery.Proofs.Interpretation
import FilterQuery.Proofs.Lists

/-!
# FilterQuery.Proofs.JsonLaws

The laws of a writer of compact JSON texts.  They say what a value may look like, and leave
open what does not matter: the digits of a float may be any that round to it, in positional
form or with a power of ten.

* `Escapes`, `IsStringText` — characters and strings;
* `IsFloatText` — floats; integers are decimal (`IntegerNumeral`);
* `WritesCompactly` — the laws of a writer;
* `IsStringText.eq_of_append` — a string can be told from what follows its closing quote;
* `IntegerNumeral.eq`, `IsFloatText.eq`, `IsFloatText.not_integerNumeral` — a number is
  determined by its text.
-/

namespace FilterQuery

namespace Json

/-! ## the texts of strings -/

/-- The characters with a short escape sequence, and what stands there behind the
backslash. -/
def shortEscapes : List (Char × Char) :=
  [('"', '"'), ('\\', '\\'), ('\x08', 'b'), ('\t', 't'), ('\n', 'n'), ('\x0c', 'f'), ('\r', 'r')]

/-- How a character may stand in a string. -/
inductive Escapes (c : Char) : List Char → Prop where
  /-- As it is, unless it is a quote, a backslash or a control character. -/
  | plain (hquote : c ≠ '"') (hbackslash : c ≠ '\\') (hprintable : 0x20 ≤ c.toNat) : Escapes c [c]
  | short {letter : Char} (h : (c, letter) ∈ shortEscapes) : Escapes c ['\\', letter]
  /-- A control character by its code, in four hexadecimal digits. -/
  | code (hcontrol : c.toNat < 0x20) :
      Escapes c ('\\' :: 'u' :: List.leftpad 4 '0' (Nat.toDigits 16 c.toNat))

/-- What stands behind the opening quote: the characters, one by one, and the closing
quote. -/
inductive IsQuoted : List Char → List Char → Prop where
  | nil : IsQuoted [] ['"']
  | cons {c : Char} {cs part text : List Char} (hc : Escapes c part) (hcs : IsQuoted cs text) :
      IsQuoted (c :: cs) (part ++ text)

/-- The text of a string. -/
def IsStringText (s : String) (text : List Char) : Prop :=
  ∃ quoted, text = '"' :: quoted ∧ IsQuoted s.toList quoted

/-! ## the texts of floats -/

/-- What may stand behind the whole digits: a point and digits, or nothing. -/
inductive IsFraction : (text digits : List Char) → Prop where
  | absent : IsFraction [] []
  | point {digits : List Char} (h : IsDigits digits) : IsFraction ('.' :: digits) digits

/-- What may stand at the end: a power of ten, or nothing. -/
inductive IsPower : List Char → Int → Prop where
  | absent : IsPower [] 0
  | unsigned {mark : Char} {digits : List Char} (hmark : mark = 'e' ∨ mark = 'E')
      (h : IsDigits digits) : IsPower (mark :: digits) (Nat.ofDigitChars 10 digits 0)
  | plus {mark : Char} {digits : List Char} (hmark : mark = 'e' ∨ mark = 'E')
      (h : IsDigits digits) : IsPower (mark :: '+' :: digits) (Nat.ofDigitChars 10 digits 0)
  | minus {mark : Char} {digits : List Char} (hmark : mark = 'e' ∨ mark = 'E')
      (h : IsDigits digits) : IsPower (mark :: '-' :: digits) (-Nat.ofDigitChars 10 digits 0)

/-- The text of a float: a decimal that rounds to it, always with a point or a power of
ten. -/
def IsFloatText (x : Binary64) (text : List Char) : Prop :=
  ∃ (whole fraction power digits : List Char) (exponent : Int),
    text = (if x.negative then ['-'] else []) ++ (whole ++ fraction ++ power) ∧
      IsDigits whole ∧ IsFraction fraction digits ∧ IsPower power exponent ∧
      (fraction ≠ [] ∨ power ≠ []) ∧
      let d : Decimal := ⟨Nat.ofDigitChars 10 (whole ++ digits) 0, exponent - digits.length⟩
      Binary64.Rounds d.numerator d.denominator x.magnitude

/-! ## the laws -/

/-- The laws of a writer of compact texts. -/
structure WritesCompactly (write : Json → String) : Prop where
  null : write .null = "null"
  boolean : ∀ b : Bool, write (.boolean b) = if b then "true" else "false"
  /-- Integers of 64 bits are decimal. -/
  integer : ∀ n : Int64, IntegerNumeral (write (.integer n.toInt)).toList n.toInt
  /-- Finite floats read back as the same number, and are not written like integers. -/
  float : ∀ x : Binary64, x.isFinite = true → IsFloatText x (write (.float x)).toList
  string : ∀ s : String, IsStringText s (write (.string s)).toList
  array : ∀ items : List Json,
    write (.array items) = "[" ++ ",".intercalate (items.map write) ++ "]"
  /-- The name of a member is written like a string. -/
  object : ∀ members : List (String × Json), write (.object members) =
    "\x7b" ++ ",".intercalate (members.map fun (name, value) =>
      write (.string name) ++ ":" ++ write value) ++ "\x7d"

/-! ## strings can be told from what follows -/

variable {rest rest' : List Char}

/-- Sequences that differ in the character differ in the letter. -/
theorem eq_of_shortEscapes {c d letter : Char} (hc : (c, letter) ∈ shortEscapes)
    (hd : (d, letter) ∈ shortEscapes) : c = d := by
  have hall : ∀ p ∈ shortEscapes, ∀ q ∈ shortEscapes, p.2 = q.2 → p.1 = q.1 := by decide
  exact hall _ hc _ hd rfl

/-- No letter announces a code. -/
theorem ne_of_mem_shortEscapes {c letter : Char} (h : (c, letter) ∈ shortEscapes) :
    letter ≠ 'u' := by
  have hall : ∀ p ∈ shortEscapes, p.2 ≠ 'u' := by decide
  exact hall _ h

/-- A code has four digits and is determined by them. -/
theorem eq_of_code {m n : Nat} (hm : m < 0x20) (hn : n < 0x20)
    (h : List.leftpad 4 '0' (Nat.toDigits 16 m) ++ rest =
      List.leftpad 4 '0' (Nat.toDigits 16 n) ++ rest') : m = n ∧ rest = rest' := by
  have hlength : ∀ k < 0x20, (List.leftpad 4 '0' (Nat.toDigits 16 k)).length = 4 := by
    decide +kernel
  have hinjective : ∀ j < 0x20, ∀ k < 0x20, List.leftpad 4 '0' (Nat.toDigits 16 j) =
      List.leftpad 4 '0' (Nat.toDigits 16 k) → j = k := by decide +kernel
  obtain ⟨hdigits, hrest⟩ := List.append_inj h ((hlength m hm).trans (hlength n hn).symm)
  exact ⟨hinjective m hm n hn hdigits, hrest⟩

/-- A character of a string can be told from those behind it. -/
theorem Escapes.eq_of_append {c d : Char} {part part' : List Char} (hc : Escapes c part)
    (hd : Escapes d part') (h : part ++ rest = part' ++ rest') : c = d ∧ rest = rest' := by
  cases hc with
  | plain hquote hbackslash hprintable =>
    cases hd with
    | plain => exact List.cons.inj h
    | short hletter => exact absurd (List.cons.inj h).1 hbackslash
    | code hcontrol => exact absurd (List.cons.inj h).1 hbackslash
  | short hletter =>
    cases hd with
    | plain hquote hbackslash hprintable => exact absurd (List.cons.inj h).1.symm hbackslash
    | short hletter' =>
      obtain ⟨rfl, hrest⟩ := List.cons.inj (List.cons.inj h).2
      exact ⟨eq_of_shortEscapes hletter hletter', hrest⟩
    | code hcontrol =>
      exact absurd (List.cons.inj (List.cons.inj h).2).1 (ne_of_mem_shortEscapes hletter)
  | code hcontrol =>
    cases hd with
    | plain hquote hbackslash hprintable => exact absurd (List.cons.inj h).1.symm hbackslash
    | short hletter =>
      exact absurd (List.cons.inj (List.cons.inj h).2).1.symm (ne_of_mem_shortEscapes hletter)
    | code hcontrol' =>
      obtain ⟨hcode, hrest⟩ := eq_of_code hcontrol hcontrol' (List.cons.inj (List.cons.inj h).2).2
      exact ⟨Char.toNat_inj.mp hcode, hrest⟩

/-- No character of a string starts with the closing quote. -/
theorem Escapes.ne_quote {c : Char} {part : List Char} (h : Escapes c part) :
    part ++ rest ≠ '"' :: rest' := by
  intro hpart
  cases h with
  | plain hquote => exact hquote (List.cons.inj hpart).1
  | short => exact absurd (List.cons.inj hpart).1 (by decide)
  | code => exact absurd (List.cons.inj hpart).1 (by decide)

/-- The characters of a string can be told from what follows the closing quote. -/
theorem IsQuoted.eq_of_append {cs ds text text' : List Char} (hcs : IsQuoted cs text)
    (hds : IsQuoted ds text') (h : text ++ rest = text' ++ rest') : cs = ds ∧ rest = rest' := by
  induction hcs generalizing ds text' with
  | nil =>
    cases hds with
    | nil => exact ⟨rfl, (List.cons.inj h).2⟩
    | cons hd _ =>
      rw [List.append_assoc] at h
      exact absurd h.symm hd.ne_quote
  | cons hc _ ih =>
    cases hds with
    | nil =>
      rw [List.append_assoc] at h
      exact absurd h hc.ne_quote
    | cons hd hds =>
      rw [List.append_assoc, List.append_assoc] at h
      obtain ⟨rfl, htail⟩ := hc.eq_of_append hd h
      obtain ⟨rfl, hrest⟩ := ih hds htail
      exact ⟨rfl, hrest⟩

/-- A string can be told from what follows its closing quote. -/
theorem IsStringText.eq_of_append {s t : String} {text text' : List Char}
    (hs : IsStringText s text) (ht : IsStringText t text') (h : text ++ rest = text' ++ rest') :
    s = t ∧ rest = rest' := by
  obtain ⟨quoted, rfl, hquoted⟩ := hs
  obtain ⟨quoted', rfl, hquoted'⟩ := ht
  obtain ⟨hcs, hrest⟩ := hquoted.eq_of_append hquoted' (List.cons.inj h).2
  exact ⟨String.toList_inj.mp hcs, hrest⟩

end Json

/-! ## numbers are determined by their texts -/

/-- A sign, if it is there, can be told from digits. -/
theorem IsDigits.eq_of_sign {negative negative' : Bool} {digits digits' rest rest' : List Char}
    (hdigits : IsDigits digits) (hdigits' : IsDigits digits')
    (h : (if negative then ['-'] else []) ++ (digits ++ rest) =
      (if negative' then ['-'] else []) ++ (digits' ++ rest')) :
    negative = negative' ∧ digits ++ rest = digits' ++ rest' := by
  have hminus {ds rest back : List Char} (hds : IsDigits ds) : ds ++ rest ≠ '-' :: back := by
    intro h
    have hdigit := hds.isDigit_head? rest '-' (by rw [h]; rfl)
    exact absurd hdigit (by decide)
  cases negative with
  | true =>
    cases negative' with
    | true => exact ⟨rfl, (List.cons.inj h).2⟩
    | false =>
      rw [if_neg Bool.false_ne_true, List.nil_append] at h
      exact absurd h.symm (hminus hdigits')
  | false =>
    rw [if_neg Bool.false_ne_true, List.nil_append] at h
    cases negative' with
    | true => exact absurd h (hminus hdigits)
    | false => exact ⟨rfl, h⟩

/-- The value of an integer is determined by its text. -/
theorem IntegerNumeral.eq {text : List Char} {v w : Int} (hv : IntegerNumeral text v)
    (hw : IntegerNumeral text w) : v = w := by
  obtain ⟨negative, digits, rfl, hdigits, rfl⟩ := hv
  obtain ⟨negative', digits', htext, hdigits', rfl⟩ := hw
  rw [← List.append_nil digits, ← List.append_nil digits'] at htext
  obtain ⟨rfl, hsame⟩ := hdigits.eq_of_sign hdigits' htext
  rw [List.append_nil, List.append_nil] at hsame
  rw [hsame]

namespace Json

/-- The exponent that a power of ten has. -/
def exponentOf : List Char → Int
  | _ :: '-' :: digits => -Nat.ofDigitChars 10 digits 0
  | _ :: '+' :: digits => Nat.ofDigitChars 10 digits 0
  | _ :: digits => Nat.ofDigitChars 10 digits 0
  | [] => 0

/-- So the exponent is determined by the text. -/
theorem IsPower.exponent_eq {power : List Char} {exponent : Int} (h : IsPower power exponent) :
    exponent = exponentOf power := by
  cases h with
  | absent => rfl
  | unsigned _ hdigits =>
    obtain ⟨c, cs, rfl, hc⟩ := hdigits.exists_cons
    unfold exponentOf
    split <;> simp_all
  | plus => rfl
  | minus => rfl

/-- A power of ten starts with its mark. -/
theorem IsPower.mem_head? {power : List Char} {exponent : Int} (h : IsPower power exponent) :
    ∀ c ∈ power.head?, c = 'e' ∨ c = 'E' := by
  cases h <;> simp_all

/-- The digits of a fraction stand behind its point. -/
theorem IsFraction.digits_eq {fraction digits : List Char} (h : IsFraction fraction digits) :
    digits = fraction.drop 1 := by
  cases h <;> rfl

/-- A fraction holds digits and a point. -/
theorem IsFraction.parts {fraction digits : List Char} (h : IsFraction fraction digits) :
    ∀ c ∈ fraction, c.isDigit = true ∨ c = '.' := by
  cases h with
  | absent => simp
  | point hdigits => simpa using fun c hc => .inl (hdigits.2 c hc)

/-- And starts with the point. -/
theorem IsFraction.mem_head? {fraction digits : List Char} (h : IsFraction fraction digits) :
    ∀ c ∈ fraction.head?, c = '.' := by
  cases h <;> simp

variable {whole fraction power whole' fraction' power' digits digits' : List Char}
  {exponent exponent' : Int}

/-- The parts of a float are determined by its text: the whole digits end where no digit
follows, and the fraction where neither a digit nor a point does. -/
theorem eq_of_parts (hwhole : IsDigits whole) (hwhole' : IsDigits whole')
    (hfraction : IsFraction fraction digits) (hfraction' : IsFraction fraction' digits')
    (hpower : IsPower power exponent) (hpower' : IsPower power' exponent')
    (h : whole ++ fraction ++ power = whole' ++ fraction' ++ power') :
    whole = whole' ∧ fraction = fraction' ∧ power = power' := by
  have hmantissa {whole fraction digits : List Char} (hwhole : IsDigits whole)
      (hfraction : IsFraction fraction digits) :
      ∀ c ∈ whole ++ fraction, (c.isDigit || c == '.') = true := by
    intro c hc
    obtain hc | hc := List.mem_append.mp hc
    · simp [hwhole.2 c hc]
    · simpa using hfraction.parts c hc
  have hmark {power : List Char} {exponent : Int} (hpower : IsPower power exponent) :
      ∀ c ∈ power.head?, (c.isDigit || c == '.') = false := by
    intro c hc
    obtain rfl | rfl := hpower.mem_head? c hc
    · decide
    · decide
  have hpoint {fraction digits : List Char} (hfraction : IsFraction fraction digits) :
      ∀ c ∈ fraction.head?, c.isDigit = false := by
    intro c hc
    rw [hfraction.mem_head? c hc]
    decide
  obtain ⟨hfront, rfl⟩ := eq_of_run (hmantissa hwhole hfraction) (hmantissa hwhole' hfraction')
    (hmark hpower) (hmark hpower') h
  obtain ⟨rfl, rfl⟩ := eq_of_run hwhole.2 hwhole'.2 (hpoint hfraction) (hpoint hfraction') hfront
  exact ⟨rfl, rfl, rfl⟩

/-- A float is determined by its text. -/
theorem IsFloatText.eq {x y : Binary64} {text : List Char} (hx : IsFloatText x text)
    (hy : IsFloatText y text) : x = y := by
  obtain ⟨whole, fraction, power, digits, exponent, rfl, hwhole, hfraction, hpower, -, hrounds⟩ :=
    hx
  obtain ⟨whole', fraction', power', digits', exponent', htext, hwhole', hfraction', hpower', -,
    hrounds'⟩ := hy
  rw [List.append_assoc whole, List.append_assoc whole'] at htext
  obtain ⟨hsign, hsame⟩ := hwhole.eq_of_sign hwhole' htext
  rw [← List.append_assoc, ← List.append_assoc] at hsame
  obtain ⟨rfl, rfl, rfl⟩ := eq_of_parts hwhole hwhole' hfraction hfraction' hpower hpower' hsame
  obtain rfl := hpower.exponent_eq.trans hpower'.exponent_eq.symm
  obtain rfl := hfraction.digits_eq.trans hfraction'.digits_eq.symm
  have hmagnitude := (Binary64.rounds_iff (Decimal.denominator_pos _)).mp hrounds
  rw [← (Binary64.rounds_iff (Decimal.denominator_pos _)).mp hrounds'] at hmagnitude
  cases x
  cases y
  cases hsign
  cases Fin.ext hmagnitude
  rfl

/-- No float is written like an integer: it has a point or the mark of a power of ten. -/
theorem IsFloatText.not_integerNumeral {text : List Char} {v : Int} {x : Binary64}
    (hv : IntegerNumeral text v) : ¬ IsFloatText x text := by
  rintro ⟨whole, fraction, power, digits', exponent, htext, hwhole, hfraction, hpower, hmark, -⟩
  obtain ⟨negative, digits, rfl, hdigits, -⟩ := hv
  rw [← List.append_nil digits, List.append_assoc whole] at htext
  obtain ⟨-, hsame⟩ := hdigits.eq_of_sign hwhole htext
  rw [List.append_nil] at hsame
  have hall : ∀ c ∈ fraction ++ power, c.isDigit = true :=
    fun c hc => hdigits.2 c (hsame ▸ List.mem_append_right _ hc)
  obtain hmark | hmark := hmark
  · obtain ⟨c, cs, rfl⟩ := List.exists_cons_of_ne_nil hmark
    obtain rfl := hfraction.mem_head? c rfl
    exact absurd (hall '.' (by simp)) (by decide)
  · obtain ⟨c, cs, rfl⟩ := List.exists_cons_of_ne_nil hmark
    have hc := hall c (by simp)
    obtain rfl | rfl := hpower.mem_head? c rfl
    · exact absurd hc (by decide)
    · exact absurd hc (by decide)

end Json

end FilterQuery
