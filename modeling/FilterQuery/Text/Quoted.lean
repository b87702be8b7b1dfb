/-!
# FilterQuery.Text.Quoted

Quoted values.  A value may stand between double quotes; inside, `\"` is a
quote and `\\` a backslash, and a backslash before any other character stands
for itself.

* `splitClosing` finds the quote that ends a value: each backslash takes the
  next character with it, so an escaped quote ends nothing;
* `unescape` gives the text that the characters between the quotes denote;
* `escape` writes a text so that it may stand between quotes;
* `unescape_escape` and `splitClosing_escape` — what is written reads back.
-/

namespace FilterQuery.Text

/-! ## the closing quote -/

/-- One pass over the characters after an opening quote; `body` holds those
already passed, last first. -/
def splitClosingFrom (body : List Char) : List Char → Option (List Char × List Char)
  | [] => none
  | '"' :: rest => some (body.reverse, rest)
  | '\\' :: c :: rest => splitClosingFrom (c :: '\\' :: body) rest
  | c :: rest => splitClosingFrom (c :: body) rest

/-- The characters before the closing quote and those after it; none if the
text ends first, be it on a lone backslash. -/
def splitClosing (cs : List Char) : Option (List Char × List Char) :=
  splitClosingFrom [] cs

/-- Nothing is lost but the closing quote. -/
theorem splitClosingFrom_eq_some {body cs inside rest : List Char}
    (h : splitClosingFrom body cs = some (inside, rest)) :
    inside ++ '"' :: rest = body.reverse ++ cs := by
  fun_induction splitClosingFrom body cs <;> simp_all

theorem splitClosing_eq_some {cs inside rest : List Char}
    (h : splitClosing cs = some (inside, rest)) : cs = inside ++ '"' :: rest := by
  simpa using (splitClosingFrom_eq_some h).symm

/-! ## escapes -/

/-- One pass over the characters between two quotes; `text` is what they
denote so far, last first. -/
def unescapeFrom (text : List Char) : List Char → List Char
  | [] => text.reverse
  | '\\' :: '"' :: rest => unescapeFrom ('"' :: text) rest
  | '\\' :: '\\' :: rest => unescapeFrom ('\\' :: text) rest
  | c :: rest => unescapeFrom (c :: text) rest

/-- The text that the characters between two quotes denote. -/
def unescape (cs : List Char) : List Char := unescapeFrom [] cs

/-- A quote and a backslash get a backslash in front. -/
def escapeChar (c : Char) : List Char :=
  if c = '"' ∨ c = '\\' then ['\\', c] else [c]

/-- Write a text so that it may stand between quotes. -/
def escape (cs : List Char) : List Char := cs.flatMap escapeChar

@[simp] theorem escape_nil : escape [] = [] := rfl

@[simp] theorem escape_cons (c : Char) (cs : List Char) :
    escape (c :: cs) = escapeChar c ++ escape cs := by
  simp [escape]

/-! ## reading back what was written -/

theorem unescapeFrom_escape (text cs : List Char) :
    unescapeFrom text (escape cs) = text.reverse ++ cs := by
  induction cs generalizing text with
  | nil => simp [unescapeFrom]
  | cons c cs ih =>
    by_cases h : c = '"' ∨ c = '\\'
    · obtain rfl | rfl := h <;> simp [escapeChar, unescapeFrom, ih]
    · have hq : c ≠ '"' := fun e => h (Or.inl e)
      have hb : c ≠ '\\' := fun e => h (Or.inr e)
      rw [escape_cons, escapeChar, if_neg h, List.singleton_append, unescapeFrom]
      · simp [ih]
      · intro rest e _; exact hb e
      · intro rest e _; exact hb e

/-- The written form denotes the text. -/
theorem unescape_escape (cs : List Char) : unescape (escape cs) = cs :=
  unescapeFrom_escape [] cs

theorem splitClosingFrom_escape (body cs rest : List Char) :
    splitClosingFrom body (escape cs ++ '"' :: rest) = some (body.reverse ++ escape cs, rest) := by
  induction cs generalizing body with
  | nil => simp [splitClosingFrom]
  | cons c cs ih =>
    by_cases h : c = '"' ∨ c = '\\'
    · obtain rfl | rfl := h <;> simp [escapeChar, splitClosingFrom, ih]
    · have hq : c ≠ '"' := fun e => h (Or.inl e)
      have hb : c ≠ '\\' := fun e => h (Or.inr e)
      rw [escape_cons, escapeChar, if_neg h, List.singleton_append, List.cons_append,
        splitClosingFrom]
      · simp [ih]
      · exact hq
      · intro d rest e _; exact hb e

/-- The written form ends at the quote that closes it. -/
theorem splitClosing_escape (cs rest : List Char) :
    splitClosing (escape cs ++ '"' :: rest) = some (escape cs, rest) :=
  splitClosingFrom_escape [] cs rest

end FilterQuery.Text
