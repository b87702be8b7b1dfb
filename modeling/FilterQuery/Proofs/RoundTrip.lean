import FilterQuery.Predicate.Canonical
import FilterQuery.Proofs.Limits
import FilterQuery.Proofs.Numerals
import FilterQuery.Proofs.Recognition
import FilterQuery.Proofs.Words

/-!
# FilterQuery.Proofs.RoundTrip

The canonical text of a predicate reads back as that predicate.  The text is
followed token by token: `Predicate.written` lists its tokens, and each of the
three things that the parser makes of a text is known of them.

* `Predicate.reads_text` — the text splits into these tokens, as no part of it
  prolongs the one before;
* `Predicate.derives_written` — they denote the predicate, as an operand stands in
  parentheses wherever it would not be a link of its chain;
* `Predicate.nestingFrom_written` — they nest as deep as those parentheses.

What cannot be written are names that no query mentions, infinities and NaN
(`Predicate.wellFormed`).
-/

namespace FilterQuery

open Token

/-! ## what has a text -/

/-- Infinities and NaN cannot be written in a query. -/
def Literal.isFinite : Literal → Bool
  | .number n => n.isFinite
  | _ => true

/-- Can the predicate be written as a query? -/
def Predicate.wellFormed : Predicate → Bool
  | comparison field _ value => isFieldName field && value.isFinite
  | logical _ left right => left.wellFormed && right.wellFormed

/-! ## values -/

namespace Literal

/-- The contents of the token for the value: in quotes or not, and its text
without quotes. -/
def written : Literal → Kind × String
  | .string s => (.literal (!isBare s), s)
  | value => (.literal false, value.text)

/-- What stands bare is neither empty, nor ends early, nor starts like something else, and
it denotes itself. -/
theorem isBare_eq_true_iff {s : String} : isBare s = true ↔
    (∃ c cs, s.toList = c :: cs ∧ c ≠ '"' ∧ c ≠ '=' ∧ ∀ d ∈ c :: cs, isValuePart d = true) ∧
      ofUnquoted s = .string s := by
  cases hs : s.toList with
  | nil => simp [isBare, hs]
  | cons c cs => simp [isBare, hs, isValuePart, and_assoc]

/-- What is written denotes the value. -/
theorem value_written {value : Literal} (h : value.isFinite = true) :
    ∃ quoted, value.written.1 = .literal quoted ∧
      denoted quoted value.written.2 = value := by
  cases value with
  | string s =>
    refine ⟨!isBare s, rfl, ?_⟩
    cases hbare : isBare s with
    | false => rfl
    | true => exact (isBare_eq_true_iff.mp hbare).2
  | number n => exact ⟨false, rfl, ofUnquoted_text h⟩
  | boolean b => cases b <;> exact ⟨false, rfl, by decide +kernel⟩
  | null => exact ⟨false, rfl, by decide +kernel⟩

/-- An unquoted value that is awaited. -/
theorem reads_bare {c : Char} {cs : List Char} (hquote : c ≠ '"')
    (hparts : ∀ d ∈ c :: cs, isValuePart d = true) :
    Reads true (c :: cs) [(.literal false, String.ofList (c :: cs))] := by
  obtain ⟨hblank, hclose⟩ : Text.isBlank c = false ∧ c ≠ ')' := by
    simpa [isValuePart] using hparts c List.mem_cons_self
  have hcs : ∀ d ∈ cs, isValuePart d = true := fun d hd => hparts d (List.mem_cons_of_mem c hd)
  have hspelled : Spelled true c cs (verbatim (.literal false) (c :: cs) []) := by
    have hvalue : Spelled true c cs _ := .value hclose hquote
    rw [← List.append_nil cs, List.takeWhile_append_of_pos hcs,
      List.dropWhile_append_of_pos hcs] at hvalue
    simpa using hvalue
  exact .lexeme hblank hspelled (.nil false)

/-- A quoted value. -/
theorem reads_quote (s : String) : Reads true (quote s).toList [(.literal true, s)] := by
  have hspelled : Spelled true '"' (Text.escape s.toList ++ ['"']) _ :=
    .quoted (Text.splitClosing_escape s.toList [])
  rw [Text.unescape_escape] at hspelled
  have hreads := Reads.lexeme (by decide) hspelled (.nil false)
  simpa [quote] using hreads

/-- The text of every value stands bare or is a string in quotes. -/
theorem text_cases {value : Literal} (h : value.isFinite = true) :
    (∃ c cs, value.text.toList = c :: cs ∧ c ≠ '"' ∧ c ≠ '=' ∧
        (∀ d ∈ c :: cs, isValuePart d = true) ∧ value.written = (.literal false, value.text)) ∨
      ∃ s, value.text = quote s ∧ value.written = (.literal true, s) := by
  cases value with
  | string s =>
    cases hbare : isBare s with
    | true =>
      obtain ⟨c, cs, hs, hquote, hequal, hparts⟩ := (isBare_eq_true_iff.mp hbare).1
      exact .inl ⟨c, cs, by simp [text, hbare, hs], hquote, hequal, hparts,
        by simp [text, written, hbare]⟩
    | false => exact .inr ⟨s, by simp [text, hbare], by simp [written, hbare]⟩
  | number n =>
    obtain ⟨c, cs, htext⟩ := List.exists_cons_of_ne_nil (Number.text_ne_nil h)
    have hparts : ∀ d ∈ c :: cs, Number.isNumeralPart d = true := fun d hd =>
      Number.isNumeralPart_of_mem_text h (htext ▸ hd)
    have hc := hparts c List.mem_cons_self
    refine .inl ⟨c, cs, by rw [text, String.toList_ofList, htext], ?_, ?_, fun d hd => ?_, rfl⟩
    · intro hc
      subst hc
      exact absurd hc (by decide)
    · intro hc
      subst hc
      exact absurd hc (by decide)
    · exact Number.isValuePart_of_isNumeralPart (hparts d hd)
  | boolean b =>
    cases b <;>
      exact .inl ⟨_, _, rfl, by decide, by decide, List.all_eq_true.mp (by decide), rfl⟩
  | null => exact .inl ⟨_, _, rfl, by decide, by decide, List.all_eq_true.mp (by decide), rfl⟩

/-- The text of a value, where one is awaited, is one token. -/
theorem reads_text {value : Literal} (h : value.isFinite = true) :
    Reads true value.text.toList [value.written] := by
  obtain ⟨c, cs, htext, hquote, -, hparts, hwritten⟩ | ⟨s, htext, hwritten⟩ := text_cases h
  · have hreads := reads_bare hquote hparts
    rwa [← htext, String.ofList_toList, ← hwritten] at hreads
  · rw [htext, hwritten]
    exact reads_quote s

/-- The text of a value does not prolong the operator before it. -/
theorem separate_text {value : Literal} (h : value.isFinite = true) (op : Operator)
    (rest : List Char) : Separate [.operator op] (value.text.toList ++ rest) := by
  intro kind hkind d hd
  cases hkind
  obtain ⟨c, cs, htext, -, hequal, -⟩ | ⟨s, htext, -⟩ := text_cases h
  · rw [htext] at hd
    cases hd
    exact beq_false_of_ne hequal
  · rw [htext, quote, String.toList_ofList] at hd
    cases hd
    rfl

end Literal

/-! ## comparisons -/

/-- The name of a field is one token. -/
theorem reads_field {name : String} (h : isFieldName name = true) :
    Reads false name.toList [(.field, name)] := by
  have hkind := wordKind_of_isFieldName h
  have hname := (Bool.and_eq_true_iff.mp h).1
  obtain ⟨c, cs, hcs⟩ : ∃ c cs, name.toList = c :: cs :=
    List.exists_cons_of_ne_nil fun hnil => by simp [hnil, isIdentifier] at hname
  rw [hcs] at hkind hname
  obtain ⟨hstart, hparts⟩ := Bool.and_eq_true_iff.mp hname
  have hblank : Text.isBlank c = false := by
    have hpart := isValuePart_of_isIdentifierPart (isIdentifierPart_of_start hstart)
    simp only [isValuePart, Bool.not_eq_true', Bool.or_eq_false_iff] at hpart
    exact hpart.1
  have hspelled : Spelled false c cs (verbatim .field (c :: cs) []) := by
    have hword : Spelled false c cs _ := .word hstart
    rw [← List.append_nil cs, List.takeWhile_append_of_pos (List.all_eq_true.mp hparts),
      List.dropWhile_append_of_pos (List.all_eq_true.mp hparts)] at hword
    simpa [hkind] using hword
  have hreads := Reads.lexeme hblank hspelled (.nil false)
  rwa [verbatim, ← hcs, String.ofList_toList] at hreads

/-- An operator is one token. -/
theorem reads_operator (op : Operator) :
    Reads false op.lexeme.toList [(.operator op, op.lexeme)] := by
  cases op <;> exact .lexeme (by decide) (.operator (by decide) rfl) (.nil true)

/-- An operator does not prolong the name before it. -/
theorem separate_operator (op : Operator) (rest : List Char) :
    Separate [.field] (op.lexeme.toList ++ rest) := by
  intro kind hkind c hc
  cases hkind
  cases op <;> (cases hc; decide)

/-! ## predicates -/

namespace Predicate

/-- The tokens of an operand, in parentheses if need be. -/
def writtenOperand (needed : Bool) (ts : List Token) : List Token :=
  if needed then Parse.grouped ts else ts

/-- The tokens of the canonical text. -/
def written : Predicate → List Token
  | comparison field relation value =>
    [⟨.field, field, 0⟩, ⟨.operator relation.operator, relation.operator.lexeme, 0⟩,
      ⟨value.written.1, value.written.2, 0⟩]
  | logical connective left right =>
    writtenOperand (left.needsGroup connective .left) left.written ++
      ⟨.keyword connective, connective.keyword, 0⟩ ::
        writtenOperand (right.needsGroup connective .right) right.written

/-- The text of a comparison. -/
theorem reads_comparison {field : String} {relation : Relation} {value : Literal}
    (hfield : isFieldName field = true) (hvalue : value.isFinite = true) {rest : List Char}
    {contents : List (Kind × String)} (hends : EndsTokens rest) (h : Reads false rest contents) :
    Reads false ((comparison field relation value).text.toList ++ rest)
      ((comparison field relation value).written.map content ++ contents) := by
  have hrest : Reads true (value.text.toList ++ rest) (value.written :: contents) := by
    obtain ⟨quoted, hquoted, -⟩ := Literal.value_written hvalue
    refine (Literal.reads_text hvalue).append (hends.separate _) ?_
    simpa [awaitedAfter, hquoted, Kind.awaitsValue] using h
  have hoperator := (reads_operator relation.operator).append
    (Literal.separate_text hvalue _ rest) hrest
  have hall := (reads_field hfield).append (separate_operator _ _) hoperator
  simpa [text, written, content] using hall

/-- The text of an operand, if its own text reads as its tokens. -/
theorem reads_operand {ts : List Token} {operand : String} (needed : Bool)
    (h : ∀ {rest contents}, EndsTokens rest → Reads false rest contents →
      Reads false (operand.toList ++ rest) (ts.map content ++ contents))
    {rest : List Char} {contents : List (Kind × String)} (hends : EndsTokens rest)
    (hrest : Reads false rest contents) :
    Reads false ((group needed operand).toList ++ rest)
      ((writtenOperand needed ts).map content ++ contents) := by
  cases needed with
  | false => exact h hends hrest
  | true =>
    have hclose : EndsTokens (')' :: rest) := endsTokens_cons (by decide) rest
    have hinner := (h hclose hrest.closeGroup).openGroup
    simpa [group, writtenOperand, Parse.grouped, content] using hinner

/-- The canonical text reads as its tokens. -/
theorem reads_text {p : Predicate} (hp : p.wellFormed = true) {rest : List Char}
    {contents : List (Kind × String)} (hends : EndsTokens rest) (h : Reads false rest contents) :
    Reads false (p.text.toList ++ rest) (p.written.map content ++ contents) := by
  induction p generalizing rest contents with
  | comparison field relation value =>
    obtain ⟨hfield, hvalue⟩ := Bool.and_eq_true_iff.mp hp
    exact reads_comparison hfield hvalue hends h
  | logical connective left right ihleft ihright =>
    obtain ⟨hleft, hright⟩ := Bool.and_eq_true_iff.mp hp
    have hreads := reads_operand (right.needsGroup connective .right) (ihright hright) hends h
    have hall := reads_operand (left.needsGroup connective .left) (ihleft hleft)
      (endsTokens_cons (by decide) _) (hreads.keyword connective)
    simpa [text, written, content] using hall

/-! ### what the tokens denote -/

/-- The kind of phrase that the canonical text is. -/
def loosest : Predicate → Option Connective
  | comparison .. => none
  | logical connective _ _ => some connective

/-- The left operand of a connective goes on its chain. -/
theorem derives_left {p : Predicate} {ts : List Token} (h : Derives (.phrase p.loosest) ts p)
    (connective : Connective) :
    Derives (.phrase (some connective)) (writtenOperand (p.needsGroup connective .left) ts) p := by
  have hgrouped := Parse.derives_grouped h.toExpression
  cases p with
  | comparison => exact h.promote _
  | logical own left right =>
    cases connective <;> cases own
    · exact h
    · exact hgrouped.promote _
    · exact h.toExpression
    · exact h

/-- The right operand of a connective is a link of its chain. -/
theorem derives_right {p : Predicate} {ts : List Token} (h : Derives (.phrase p.loosest) ts p)
    (connective : Connective) :
    Derives (.phrase connective.tighter)
      (writtenOperand (p.needsGroup connective .right) ts) p := by
  have hgrouped := Parse.derives_grouped h.toExpression
  cases p with
  | comparison => exact h.promote _
  | logical own left right =>
    cases connective <;> cases own
    · exact hgrouped
    · exact hgrouped
    · exact h
    · exact hgrouped.promote _

/-- The tokens of the canonical text denote the predicate. -/
theorem derives_written {p : Predicate} (hp : p.wellFormed = true) :
    Derives (.phrase p.loosest) p.written p := by
  induction p with
  | comparison field relation value =>
    obtain ⟨-, hvalue⟩ := Bool.and_eq_true_iff.mp hp
    obtain ⟨quoted, hquoted, hdenotes⟩ := Literal.value_written hvalue
    have hderives : Derives .operand (comparison field relation value).written _ :=
      Derives.comparison rfl rfl hquoted
    rwa [hdenotes, Operator.denoted_eq, Relation.relation_operator] at hderives
  | logical connective left right ihleft ihright =>
    obtain ⟨hleft, hright⟩ := Bool.and_eq_true_iff.mp hp
    exact (derives_left (ihleft hleft) connective).snoc rfl
      (derives_right (ihright hright) connective)

/-! ### how deep they are nested -/

/-- The deepest nesting of the parentheses in the canonical text. -/
def nesting : Predicate → Nat
  | comparison .. => 0
  | logical connective left right =>
    max (left.nesting + (left.needsGroup connective .left).toNat)
      (right.nesting + (right.needsGroup connective .right).toNat)

/-- An operand nests one deeper in parentheses. -/
theorem nestingFrom_operand {ts : List Token} {n : Nat} (needed : Bool)
    (h : ∀ depth us, nestingFrom depth (ts ++ us) = max (depth + n) (nestingFrom depth us))
    (depth : Nat) (us : List Token) :
    nestingFrom depth (writtenOperand needed ts ++ us) =
      max (depth + (n + needed.toNat)) (nestingFrom depth us) := by
  cases needed with
  | false => exact h depth us
  | true =>
    have hdepth := le_nestingFrom depth us
    simp only [writtenOperand, Parse.grouped, if_true, List.cons_append, List.append_assoc,
      List.nil_append, nestingFrom, Kind.depthAfter, h, Nat.add_sub_cancel, Bool.toNat_true]
    omega

/-- The tokens of the canonical text close what they open, and nest as deep as its
parentheses. -/
theorem nestingFrom_written (p : Predicate) (depth : Nat) (us : List Token) :
    nestingFrom depth (p.written ++ us) = max (depth + p.nesting) (nestingFrom depth us) := by
  induction p generalizing depth us with
  | comparison field relation value =>
    have hvalue (n : Nat) : value.written.1.depthAfter n = n := by
      cases value <;> rfl
    have hdepth := le_nestingFrom depth us
    simp only [written, List.cons_append, List.nil_append, nestingFrom, hvalue, nesting]
    simp only [Kind.depthAfter]
    omega
  | logical connective left right ihleft ihright =>
    have hdepth := le_nestingFrom depth us
    simp only [written, List.append_assoc, List.cons_append, nestingFrom, Kind.depthAfter,
      nestingFrom_operand _ ihleft, nestingFrom_operand _ ihright, nesting]
    omega

end Predicate

/-- Nesting is a matter of what the tokens say. -/
theorem Token.nestingFrom_congr {ts us : List Token} (h : us.map content = ts.map content)
    (depth : Nat) : nestingFrom depth us = nestingFrom depth ts := by
  induction ts generalizing us depth with
  | nil => rw [List.map_eq_nil_iff.mp h]
  | cons t ts ih =>
    obtain ⟨u, us, rfl, hcontent, hrest⟩ := List.map_eq_cons_iff.mp h
    have hkind : u.kind = t.kind := congrArg Prod.fst hcontent
    rw [nestingFrom, nestingFrom, hkind, ih hrest]

/-- **A predicate that is written as a query reads back**: where any field may be
mentioned, its parentheses are not nested too deep and it is not too high, its
canonical text denotes exactly the predicate. -/
theorem Policy.parse_text {policy : Policy} {p : Predicate} (hp : p.wellFormed = true)
    (hallowed : policy.allowed = none) (hdepth : ∀ limit ∈ policy.maxDepth, p.nesting ≤ limit)
    (hheight : ∀ limit ∈ policy.maxHeight, p.height ≤ limit) : policy.parse p.text = .ok p := by
  have hreads : Reads false p.text.toList (p.written.map content) := by
    simpa using p.reads_text hp (fun c hc => by cases hc) (.nil false)
  obtain ⟨stream, hscan, hcontents⟩ := TokenStream.reads_iff.mp hreads
  have hderives : Derives .expression stream.tokens p :=
    (Predicate.derives_written hp).toExpression.of_contents_eq hcontents
  have hnesting : stream.nesting = p.nesting := by
    have hwritten := p.nestingFrom_written 0 []
    rw [List.append_nil, nestingFrom, Nat.max_eq_left (Nat.zero_le _), Nat.zero_add] at hwritten
    rw [TokenStream.nesting, Token.nestingFrom_congr hcontents, hwritten]
  have hadmits : policy.Admits p :=
    ⟨fun limit hlimit => Nat.le_trans (hheight limit hlimit) (Nat.le_max_left ..),
      fun fields hfields => by simp [hallowed] at hfields⟩
  exact Parse.parse_eq_ok_iff.mpr ⟨stream, hscan, Parse.parseTokens_restricted_iff.mpr
    ⟨Parse.parseTokens_of_derives hderives, fun limit hlimit => hnesting ▸ hdepth limit hlimit,
      hadmits⟩⟩

/-- Strings that must be quoted, a negative zero and an operand in parentheses. -/
theorem Policy.parse_text_standard :
    let p : Predicate := .logical .and
      (.logical .or (.comparison "a" .contains (.string "=\"x\\ y)"))
        (.comparison "b" .less (.number (.float (.ofBits 0x8000000000000000)))))
      (.comparison "c" .equal (.string "TRUE"))
    Policy.standard.parse p.text = .ok p :=
  Policy.parse_text (by decide +kernel) rfl
    (fun limit hlimit => by cases hlimit; decide +kernel)
    (fun limit hlimit => by cases hlimit; decide +kernel)

end FilterQuery
