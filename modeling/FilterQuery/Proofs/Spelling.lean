import FilterQuery.Token.Scan

/-!
# FilterQuery.Proofs.Spelling

One token of a text, as a relation.  `Spelled` lists the ways in which a token
may start and run; `lexeme_eq_ok_iff` says that these are the tokens that are
found.

* `Spelled.append` — the token at the start of a text does not depend on what
  follows, as long as that does not prolong it (`Kind.prolongedBy`);
* `Spelled.truncate`, `Spelled.cut` — what follows a token may be left away, all of it or
  its end.
-/

namespace FilterQuery

/-! ## runs of characters -/

namespace Text

/-- A run that ends in front of what follows is not changed by it. -/
theorem takeWhile_append {p : Char → Bool} {cs rest : List Char}
    (h : cs.dropWhile p = [] → ∀ d ∈ rest.head?, p d = false) :
    (cs ++ rest).takeWhile p = cs.takeWhile p ∧
      (cs ++ rest).dropWhile p = cs.dropWhile p ++ rest := by
  induction cs with
  | nil =>
    cases rest with
    | nil => simp
    | cons d rest => simp [h rfl d rfl]
  | cons c cs ih =>
    cases hc : p c with
    | true => simpa [hc] using ih (by simpa [hc] using h)
    | false => simp [hc]

/-- What follows a run may be left away. -/
theorem takeWhile_truncate {p : Char → Bool} {cs rest left : List Char}
    (h : (cs ++ rest).dropWhile p = left ++ rest) :
    (cs ++ rest).takeWhile p = cs.takeWhile p ∧ cs.dropWhile p = left := by
  induction cs with
  | nil =>
    have hlength := congrArg List.length (List.takeWhile_append_dropWhile (p := p) (l := rest))
    rw [List.nil_append] at h
    rw [h, List.length_append, List.length_append] at hlength
    have hrun : rest.takeWhile p = [] := List.length_eq_zero_iff.mp (by omega)
    have hleft : left = [] := List.length_eq_zero_iff.mp (by omega)
    simp [hrun, hleft]
  | cons c cs ih =>
    cases hc : p c with
    | true => simpa [hc] using ih (by simpa [hc] using h)
    | false =>
      rw [List.cons_append, List.dropWhile_cons_of_neg (by simp [hc]), ← List.cons_append,
        List.append_cancel_right_eq] at h
      simpa [hc] using h

/-! ### quoted values -/

/-- A character that is neither a quote nor a backslash is passed. -/
theorem splitClosingFrom_cons {c : Char} (hquote : c ≠ '"') (hescape : c ≠ '\\')
    (body cs : List Char) : splitClosingFrom body (c :: cs) = splitClosingFrom (c :: body) cs := by
  rw [splitClosingFrom]
  · exact hquote
  · exact fun _ _ h => absurd h hescape

/-- Less is left behind the closing quote. -/
theorem length_lt_of_splitClosingFrom {body cs inside rest : List Char}
    (h : splitClosingFrom body cs = some (inside, rest)) : rest.length < cs.length := by
  fun_induction splitClosingFrom body cs with
  | case1 => cases h
  | case2 => cases h; simp
  | case3 body c cs ih => have := ih h; simp; omega
  | case4 body c cs hquote hescape ih => have := ih h; simp; omega

/-- What follows the closing quote does not change where it stands. -/
theorem splitClosingFrom_append {body cs inside rest : List Char}
    (h : splitClosingFrom body cs = some (inside, rest)) (more : List Char) :
    splitClosingFrom body (cs ++ more) = some (inside, rest ++ more) := by
  fun_induction splitClosingFrom body cs with
  | case1 => cases h
  | case2 => cases h; simp [splitClosingFrom]
  | case3 body c cs ih => simpa [splitClosingFrom] using ih h
  | case4 body c cs hquote hescape ih =>
    cases cs with
    | nil => cases h
    | cons d cs =>
      have hbackslash : c ≠ '\\' := fun hc => hescape d cs hc rfl
      rw [List.cons_append, splitClosingFrom_cons hquote hbackslash]
      exact ih h

/-- What follows the closing quote may be left away. -/
theorem splitClosingFrom_truncate {body cs inside rest more : List Char}
    (h : splitClosingFrom body (cs ++ more) = some (inside, rest ++ more)) :
    splitClosingFrom body cs = some (inside, rest) := by
  fun_induction splitClosingFrom body cs with
  | case1 =>
    have := length_lt_of_splitClosingFrom h
    rw [List.nil_append, List.length_append] at this
    omega
  | case2 body cs => simpa [splitClosingFrom] using h
  | case3 body c cs ih => exact ih (by simpa [splitClosingFrom] using h)
  | case4 body c cs hquote hescape ih =>
    by_cases hbackslash : c = '\\'
    · subst hbackslash
      cases cs with
      | cons d cs => exact absurd rfl (hescape d cs rfl)
      | nil =>
        cases more with
        | nil => simp [splitClosingFrom] at h
        | cons d more =>
          rw [List.singleton_append, splitClosingFrom] at h
          have := length_lt_of_splitClosingFrom h
          rw [List.length_append, List.length_cons] at this
          omega
    · exact ih (by rwa [List.cons_append, splitClosingFrom_cons hquote hbackslash] at h)

end Text

/-! ## operators -/

namespace Operator

/-- An operator that does not get longer is found in front of every text. -/
theorem leading?_append {c : Char} {cs rest : List Char} {op : Operator}
    (h : leading? (c :: cs) = some op)
    (hstop : (c :: cs).drop op.lexeme.toList.length = [] → ∀ d ∈ rest.head?, d ≠ '=') :
    leading? (c :: cs ++ rest) = some op := by
  cases cs with
  | cons d cs =>
    rw [← h]
    unfold leading?
    congr 1
    funext op'
    cases op' <;> simp [lexeme, List.isPrefixOf]
  | nil =>
    cases rest with
    | nil => simpa using h
    | cons d rest =>
      have hpos := List.length_pos_iff.mpr (lexeme_ne_nil op)
      have hd : ('=' == d) = false :=
        beq_false_of_ne (hstop (List.drop_eq_nil_of_le hpos) d rfl).symm
      simpa [leading?, all, List.find?_cons, lexeme, List.isPrefixOf, hd] using h

/-- The text behind an operator may be left away. -/
theorem leading?_truncate {cs rest : List Char} {op : Operator}
    (h : leading? (cs ++ rest) = some op) (hlength : op.lexeme.toList.length ≤ cs.length) :
    leading? cs = some op := by
  unfold leading? at h ⊢
  rw [List.find?_eq_some_iff_append] at h ⊢
  obtain ⟨hop, before, after, hall, hbefore⟩ := h
  rw [List.isPrefixOf_iff_prefix] at hop
  refine ⟨?_, before, after, hall, fun op' hmem => ?_⟩
  · rw [List.isPrefixOf_iff_prefix]
    exact List.prefix_of_prefix_length_le hop (List.prefix_append cs rest) hlength
  · have hnot := hbefore op' hmem
    simp only [Bool.not_eq_true', ← Bool.not_eq_true, List.isPrefixOf_iff_prefix] at hnot ⊢
    exact fun hfits => hnot (hfits.trans (List.prefix_append cs rest))

/-- An operator starts neither with a parenthesis or quote nor as a word. -/
theorem start_of_leading? {c : Char} {cs : List Char} {op : Operator}
    (h : leading? (c :: cs) = some op) :
    c ≠ '(' ∧ c ≠ ')' ∧ c ≠ '"' ∧ isIdentifierStart c = false := by
  have hall := lexeme_append_drop h
  cases op <;> (obtain ⟨rfl, -⟩ := List.cons.inj hall; decide)

end Operator

namespace Token

/-! ## one token -/

/-- Does the character prolong a token of the kind that stands right before it?
Values end at blanks and `)`, words at what is no part of a name, and `=` makes
some operators longer. -/
def Kind.prolongedBy : Kind → Char → Bool
  | .literal false, c => isValuePart c
  | .field, c | .keyword _, c => isIdentifierPart c
  | .operator _, c => c == '='
  | _, _ => false

/-- What is part of a name may be part of a value. -/
theorem isValuePart_of_isIdentifierPart {c : Char} (h : isIdentifierPart c = true) :
    isValuePart c = true := by
  simp only [isIdentifierPart, Char.isAlphanum, Bool.or_eq_true, Text.isAlpha_iff_code,
    Char.isDigit_iff_toNat, beq_iff_eq] at h
  obtain (hletter | ⟨hlow, hhigh⟩) | rfl := h
  · exact isValuePart_of_code (by omega) (by omega)
  · exact isValuePart_of_code (Nat.le_trans (by decide) hlow) (Nat.lt_of_le_of_lt hhigh (by decide))
  · decide

/-- Neither `)` nor a blank prolongs a token. -/
theorem Kind.prolongedBy_of_isValuePart {c : Char} (h : isValuePart c = false) (kind : Kind) :
    kind.prolongedBy c = false := by
  have hequal : c ≠ '=' := by
    intro hc
    subst hc
    exact absurd h (by decide)
  have hpart : isIdentifierPart c = false := Bool.eq_false_iff.mpr fun hc =>
    absurd (isValuePart_of_isIdentifierPart hc) (Bool.eq_false_iff.mp h)
  obtain _ | _ | _ | _ | _ | (_ | _) := kind <;> simp [Kind.prolongedBy, h, hpart, hequal]

/-- The ways in which a token may start and run. -/
inductive Spelled : Bool → Char → List Char → Lexeme → Prop where
  | value {c cs} (hclose : c ≠ ')') (hquote : c ≠ '"') :
      Spelled true c cs
        (verbatim (.literal false) (c :: cs.takeWhile isValuePart) (cs.dropWhile isValuePart))
  | openGroup {cs} : Spelled false '(' cs (verbatim .openGroup ['('] cs)
  | closeGroup {valueAwaited cs} : Spelled valueAwaited ')' cs (verbatim .closeGroup [')'] cs)
  | quoted {valueAwaited cs body rest} (h : Text.splitClosing cs = some (body, rest)) :
      Spelled valueAwaited '"' cs
        ⟨.literal true, Text.unescape body, '"' :: body ++ ['"'], rest⟩
  | word {c cs} (h : isIdentifierStart c = true) :
      Spelled false c cs
        (verbatim (wordKind (c :: cs.takeWhile isIdentifierPart))
          (c :: cs.takeWhile isIdentifierPart) (cs.dropWhile isIdentifierPart))
  | operator {c cs op rest} (h : Operator.leading? (c :: cs) = some op)
      (hall : op.lexeme.toList ++ rest = c :: cs) :
      Spelled false c cs (verbatim (.operator op) op.lexeme.toList rest)

/-- A token that is found starts in one of these ways. -/
theorem spelled_of_lexeme {valueAwaited : Bool} {c : Char} {cs : List Char} {l : Lexeme}
    (h : lexeme valueAwaited c cs = .ok l) : Spelled valueAwaited c cs l := by
  unfold lexeme at h
  split at h
  case isTrue hvalue =>
    simp only [Bool.and_eq_true, bne_iff_ne] at hvalue
    obtain ⟨⟨rfl, hclose⟩, hquote⟩ := hvalue
    cases h
    exact .value hclose hquote
  rename_i hvalue
  split at h
  case isTrue hopen =>
    subst hopen
    cases h
    obtain rfl : valueAwaited = false := by simpa using hvalue
    exact .openGroup
  split at h
  case isTrue hclose =>
    subst hclose
    cases h
    exact .closeGroup
  rename_i hclose
  split at h
  case isTrue hquote =>
    subst hquote
    split at h
    · next hsplit =>
      cases h
      exact .quoted hsplit
    · cases h
  rename_i hquote
  obtain rfl : valueAwaited = false := by simpa [hclose, hquote] using hvalue
  split at h
  case isTrue hword =>
    cases h
    exact .word hword
  split at h
  · next hop =>
    cases h
    exact .operator hop (Operator.lexeme_append_drop hop)
  · cases h

/-- What starts in one of these ways is found. -/
theorem lexeme_of_spelled {valueAwaited : Bool} {c : Char} {cs : List Char} {l : Lexeme}
    (h : Spelled valueAwaited c cs l) : lexeme valueAwaited c cs = .ok l := by
  cases h with
  | value hclose hquote => simp [lexeme, hclose, hquote]
  | openGroup => simp [lexeme]
  | closeGroup => simp [lexeme]
  | quoted h => simp [lexeme, h]
  | word h =>
    have hplain : c ≠ '(' ∧ c ≠ ')' ∧ c ≠ '"' := by
      refine ⟨?_, ?_, ?_⟩ <;> (intro hc; subst hc; exact absurd h (by decide))
    simp [lexeme, h, hplain]
  | operator h hall =>
    obtain ⟨hopen, hclose, hquote, hword⟩ := Operator.start_of_leading? h
    have hrest := Operator.lexeme_append_drop h
    rw [← hall, List.append_cancel_left_eq, hall] at hrest
    simp [lexeme, h, hopen, hclose, hquote, hword, hrest]

/-- The tokens that are found are those so spelled. -/
theorem lexeme_eq_ok_iff {valueAwaited : Bool} {c : Char} {cs : List Char} {l : Lexeme} :
    lexeme valueAwaited c cs = .ok l ↔ Spelled valueAwaited c cs l :=
  ⟨spelled_of_lexeme, lexeme_of_spelled⟩

/-- What prolongs no word is no part of a name. -/
theorem isIdentifierPart_of_prolongedBy {word : List Char} {c : Char}
    (h : (wordKind word).prolongedBy c = false) : isIdentifierPart c = false := by
  unfold wordKind at h
  split at h
  · exact h
  split at h
  · exact Bool.eq_false_iff.mpr fun hc =>
      absurd (isValuePart_of_isIdentifierPart hc) (Bool.eq_false_iff.mp h)
  · exact h

/-- A token is the same in front of everything that does not prolong it. -/
theorem Spelled.append {valueAwaited : Bool} {c : Char} {cs rest : List Char} {l : Lexeme}
    (h : Spelled valueAwaited c cs l)
    (hstop : l.rest = [] → ∀ d ∈ rest.head?, l.kind.prolongedBy d = false) :
    Spelled valueAwaited c (cs ++ rest) { l with rest := l.rest ++ rest } := by
  cases h with
  | value hclose hquote =>
    obtain ⟨hrun, hrest⟩ := Text.takeWhile_append hstop
    have hspelled : Spelled true c (cs ++ rest) _ := .value hclose hquote
    rwa [hrun, hrest] at hspelled
  | openGroup => exact .openGroup
  | closeGroup => exact .closeGroup
  | quoted hsplit => exact .quoted (Text.splitClosingFrom_append hsplit rest)
  | word hword =>
    obtain ⟨hrun, hrest⟩ := Text.takeWhile_append fun hnil d hd =>
      isIdentifierPart_of_prolongedBy (hstop hnil d hd)
    have hspelled : Spelled false c (cs ++ rest) _ := .word hword
    rwa [hrun, hrest] at hspelled
  | @operator _ _ op left hop hall =>
    have hspelled : op.lexeme.toList ++ (left ++ rest) = c :: cs ++ rest := by
      rw [← hall, List.append_assoc]
    refine .operator (Operator.leading?_append hop fun hnil d hd => ?_) hspelled
    rw [← hall, List.drop_left] at hnil
    exact bne_iff_ne.mp (by simpa [verbatim, Kind.prolongedBy] using hstop hnil d hd)

/-- What follows a token may be left away. -/
theorem Spelled.truncate {valueAwaited : Bool} {c : Char} {cs rest left : List Char}
    {l : Lexeme} (h : Spelled valueAwaited c (cs ++ rest) l) (hleft : l.rest = left ++ rest) :
    Spelled valueAwaited c cs { l with rest := left } := by
  cases h with
  | value hclose hquote =>
    obtain ⟨hrun, hrest⟩ := Text.takeWhile_truncate hleft
    have hspelled : Spelled true c cs _ := .value hclose hquote
    rwa [← hrun, hrest] at hspelled
  | openGroup =>
    obtain rfl := List.append_cancel_right hleft
    exact .openGroup
  | closeGroup =>
    obtain rfl := List.append_cancel_right hleft
    exact .closeGroup
  | quoted hsplit =>
    change _ = left ++ rest at hleft
    subst hleft
    exact .quoted (Text.splitClosingFrom_truncate hsplit)
  | word hword =>
    obtain ⟨hrun, hrest⟩ := Text.takeWhile_truncate hleft
    have hspelled : Spelled false c cs _ := .word hword
    rwa [← hrun, hrest] at hspelled
  | @operator _ _ op _ hop hall =>
    replace hall : op.lexeme.toList ++ (left ++ rest) = c :: (cs ++ rest) := hleft ▸ hall
    rw [← List.append_assoc, ← List.cons_append] at hall
    have hspelled := List.append_cancel_right hall
    refine .operator (Operator.leading?_truncate hop ?_) hspelled
    simp [← hspelled]

/-- The span of a token starts at its first character. -/
theorem Spelled.exists_span {valueAwaited : Bool} {c : Char} {cs : List Char} {l : Lexeme}
    (h : Spelled valueAwaited c cs l) : ∃ span, l.span = c :: span ∧ cs = span ++ l.rest := by
  have hall := span_append_rest (lexeme_of_spelled h)
  obtain ⟨d, span, hspan⟩ := List.exists_cons_of_ne_nil (span_ne_nil (lexeme_of_spelled h))
  rw [hspan] at hall
  obtain ⟨rfl, hcs⟩ := List.cons.inj hall
  exact ⟨span, hspan, hcs.symm⟩

/-- A text may be cut anywhere behind its first token. -/
theorem Spelled.cut {valueAwaited : Bool} {c : Char} {cs front back : List Char} {l : Lexeme}
    (h : Spelled valueAwaited c cs l) (hrest : l.rest = front ++ back) :
    ∃ span, l.span = c :: span ∧ cs = span ++ front ++ back ∧
      Spelled valueAwaited c (span ++ front) { l with rest := front } := by
  obtain ⟨span, hspan, rfl⟩ := h.exists_span
  have hcs : span ++ l.rest = span ++ front ++ back := by rw [hrest, List.append_assoc]
  rw [hcs] at h
  exact ⟨span, hspan, hcs, h.truncate hrest⟩

end Token

end FilterQuery
