import FilterQuery.Proofs.Interpretation
import FilterQuery.Proofs.Recognition
import FilterQuery.Proofs.RoundTrip
import FilterQuery.Proofs.Spans

/-!
# FilterQuery.Proofs.Provenance

Where the parts of an accepted predicate come from.  Read from left to right its
comparisons and connectives are those of the query, each once and in the same
order (`Entries`), and nothing but words and values of the query stands in them.

* `Derivation.exists_entries` — a derivation has the entries of its meaning, in
  the order of its tokens;
* `isFieldName_of_scan` — only a name that may be mentioned is scanned as a field;
* `Literal.isFinite_denoted` — no value that is read is infinite or NaN;
* `wellFormed_of_parse` — so whatever is accepted can be written as a query again.
-/

namespace FilterQuery

open Token Parse

/-! ## entries -/

/-- A comparison or a connective of a predicate. -/
inductive Entry where
  | comparison (field : String) (relation : Relation) (value : Literal)
  | connective (k : Connective)

/-- The comparisons of a predicate and the connectives between them, from left to
right. -/
def Predicate.inOrder : Predicate → List Entry
  | comparison field relation value => [.comparison field relation value]
  | logical k left right => left.inOrder ++ .connective k :: right.inOrder

/-- The entries that tokens stand for, from left to right: a field, an operator and
a value are a comparison, and a keyword is a connective.  No token but a parenthesis
stands for nothing. -/
inductive Entries : List Token → List Entry → Prop
  | nil : Entries [] []
  | parenthesis {t : Token} {ts : List Token} {es : List Entry}
      (ht : t.kind = .openGroup ∨ t.kind = .closeGroup) (h : Entries ts es) :
      Entries (t :: ts) es
  | connective {t : Token} {ts : List Token} {es : List Entry} {k : Connective}
      (ht : t.kind = .keyword k) (h : Entries ts es) : Entries (t :: ts) (.connective k :: es)
  | comparison {field operator value : Token} {ts : List Token} {es : List Entry}
      {op : Operator} {quoted : Bool} (hfield : field.kind = .field)
      (hoperator : operator.kind = .operator op) (hvalue : value.kind = .literal quoted)
      (h : Entries ts es) :
      Entries (field :: operator :: value :: ts)
        (.comparison field.text op.denoted (.denoted quoted value.text) :: es)

namespace Entries

variable {ts us : List Token} {es fs : List Entry}

/-- Tokens put together stand for their entries put together. -/
theorem append (h : Entries ts es) (hus : Entries us fs) : Entries (ts ++ us) (es ++ fs) := by
  induction h with
  | nil => exact hus
  | parenthesis ht _ ih => exact .parenthesis ht ih
  | connective ht _ ih => exact .connective ht ih
  | comparison hfield hoperator hvalue _ ih => exact .comparison hfield hoperator hvalue ih

/-- A name is compared where a field has it. -/
theorem exists_comparison_iff (h : Entries ts es) {name : String} :
    (∃ relation value, .comparison name relation value ∈ es) ↔
      ∃ t ∈ ts, t.kind = .field ∧ t.text = name := by
  induction h with
  | nil => simp
  | parenthesis ht _ ih =>
    rw [ih]
    obtain ht | ht := ht <;> simp [ht]
  | connective ht _ ih => simpa [ht] using ih
  | comparison hfield hoperator hvalue _ ih =>
    constructor
    · intro h
      obtain ⟨relation, value, hmem⟩ := h
      obtain _ | ⟨_, hmem⟩ := hmem
      · exact ⟨_, List.mem_cons_self, hfield, rfl⟩
      · obtain ⟨t, ht, hname⟩ := ih.mp ⟨relation, value, hmem⟩
        exact ⟨t, by simp [ht], hname⟩
    · intro h
      obtain ⟨t, ht, hkind, rfl⟩ := h
      obtain _ | ⟨_, _ | ⟨_, _ | ⟨_, ht⟩⟩⟩ := ht
      · exact ⟨_, _, List.mem_cons_self⟩
      · simp [hoperator] at hkind
      · simp [hvalue] at hkind
      · obtain ⟨relation, value, hmem⟩ := ih.mpr ⟨t, ht, hkind, rfl⟩
        exact ⟨relation, value, List.mem_cons_of_mem _ hmem⟩

/-- Its value is the one of a literal. -/
theorem exists_value (h : Entries ts es) {name : String} {relation : Relation} {value : Literal}
    (hmem : .comparison name relation value ∈ es) :
    ∃ quoted text, value = .denoted quoted text := by
  induction h with
  | nil => cases hmem
  | parenthesis _ _ ih => exact ih hmem
  | connective _ _ ih =>
    obtain _ | ⟨_, hmem⟩ := hmem
    exact ih hmem
  | comparison _ _ _ _ ih =>
    obtain _ | ⟨_, hmem⟩ := hmem
    · exact ⟨_, _, rfl⟩
    · exact ih hmem

end Entries

/-! ## entries of a predicate -/

namespace Predicate

/-- A predicate mentions the fields of its comparisons. -/
theorem mem_fields_iff {p : Predicate} {name : String} :
    name ∈ p.fields ↔ ∃ relation value, .comparison name relation value ∈ p.inOrder := by
  induction p with
  | comparison field relation value => simp [inOrder]
  | logical k left right ihleft ihright =>
    simp [inOrder, mem_fields_logical, ihleft, ihright, exists_or]

/-- A predicate can be written as a query if all its comparisons can. -/
theorem wellFormed_iff {p : Predicate} :
    p.wellFormed = true ↔ ∀ field relation value, .comparison field relation value ∈ p.inOrder →
      isFieldName field = true ∧ value.isFinite = true := by
  induction p with
  | comparison field relation value =>
    rw [wellFormed, Bool.and_eq_true]
    constructor
    · intro h _ _ _ hmem
      obtain ⟨rfl, rfl, rfl⟩ := by simpa [inOrder] using hmem
      exact h
    · exact fun h => h field relation value List.mem_cons_self
  | logical k left right ihleft ihright =>
    simp only [wellFormed, Bool.and_eq_true, ihleft, ihright, inOrder, List.mem_append,
      List.mem_cons, reduceCtorEq, false_or, or_imp, forall_and]
    exact and_and_and_comm

end Predicate

/-- The entries of the meaning, without those of what stands to the left. -/
def Category.HasEntries : (c : Category) → c.Meaning → List Entry → Prop
  | phrase _, p, es => p.inOrder = es
  | rest _, meaning, es => ∀ left, (meaning left).inOrder = left.inOrder ++ es

/-- The tokens of a derivation stand for the entries of its meaning. -/
theorem Derivation.exists_entries {c : Category} (d : Derivation c) :
    ∃ es, Entries d.tokens es ∧ c.HasEntries d.meaning es := by
  induction d with
  | chain first rest ihfirst ihrest =>
    obtain ⟨es, hfirst, rfl⟩ := ihfirst
    obtain ⟨fs, hrest, hmeaning⟩ := ihrest
    exact ⟨_, hfirst.append hrest, hmeaning first.meaning⟩
  | last => exact ⟨[], .nil, fun left => (List.append_nil _).symm⟩
  | more keyword hkeyword next rest ihnext ihrest =>
    obtain ⟨es, hnext, rfl⟩ := ihnext
    obtain ⟨fs, hrest, hmeaning⟩ := ihrest
    refine ⟨_, .connective hkeyword (hnext.append hrest), fun left => ?_⟩
    show (rest.meaning (.logical _ left next.meaning)).inOrder = _
    rw [hmeaning, Predicate.inOrder, List.append_assoc, List.cons_append]
  | group opening hopening inner closing hclosing ih =>
    obtain ⟨es, hinner, hmeaning⟩ := ih
    have hclose : Entries [closing] [] := .parenthesis (.inr hclosing) .nil
    have hgroup := (hinner.append hclose).parenthesis (.inl hopening)
    rw [List.append_nil] at hgroup
    exact ⟨es, hgroup, hmeaning⟩
  | comparison field operator value op quoted hfield hoperator hvalue =>
    exact ⟨_, .comparison hfield hoperator hvalue .nil, rfl⟩

/-- The tokens of an accepted query stand for the entries of its predicate. -/
theorem entries_of_parseTokens {policy : Policy} {stream : TokenStream} {p : Predicate}
    (h : policy.parseTokens stream = .ok p) : Entries stream.tokens p.inOrder := by
  obtain ⟨d, htokens, rfl⟩ := derives_of_parseTokens h
  obtain ⟨es, hentries, rfl⟩ := d.exists_entries
  rwa [htokens] at hentries

/-! ## what can be scanned -/

/-- A field has a name that may be mentioned. -/
theorem Token.Shape.isFieldName_of_field {front back span : List Char} {awaited : Bool}
    {name : String} (h : Shape front back awaited .field name.toList span) :
    isFieldName name = true := by
  generalize htext : name.toList = text at h
  cases h with
  | word hname hrun hkind =>
    have hreserved := hkind.field.mp rfl
    simpa [isFieldName, htext, hname] using hreserved

/-- A token that is scanned as a field has a name that may be mentioned. -/
theorem isFieldName_of_scan {source : String} {stream : TokenStream}
    (h : TokenStream.scan source = .ok stream) {t : Token} (ht : t ∈ stream.tokens)
    (hfield : t.kind = .field) : isFieldName t.text = true := by
  obtain ⟨before, after, htokens⟩ := List.append_of_mem ht
  obtain ⟨_, _, _, hshape⟩ := TokenStream.exists_shape h htokens
  rw [hfield] at hshape
  exact hshape.isFieldName_of_field

/-! ### values -/

/-- No value that is read is infinite or NaN. -/
theorem Literal.isFinite_denoted (quoted : Bool) (text : String) :
    (denoted quoted text).isFinite = true := by
  cases quoted with
  | true => rfl
  | false =>
    show (Literal.ofUnquoted text).isFinite = true
    cases hvalue : Literal.ofUnquoted text with
    | number n =>
      cases n with
      | integer _ => rfl
      | float x => exact (((Literal.denotes text).float x).mp hvalue).2
    | _ => rfl

/-- What is accepted can be written as a query. -/
theorem wellFormed_of_parse {policy : Policy} {source : String} {p : Predicate}
    (h : policy.parse source = .ok p) : p.wellFormed = true := by
  obtain ⟨stream, hscan, hparse⟩ := parse_eq_ok_iff.mp h
  have hentries := entries_of_parseTokens hparse
  refine Predicate.wellFormed_iff.mpr fun field relation value hmem => ⟨?_, ?_⟩
  · obtain ⟨t, ht, hfield, rfl⟩ := hentries.exists_comparison_iff.mp ⟨_, _, hmem⟩
    exact isFieldName_of_scan hscan ht hfield
  · obtain ⟨quoted, text, rfl⟩ := hentries.exists_value hmem
    exact Literal.isFinite_denoted quoted text

/-! ## queries -/

/-- **An accepted predicate holds what the query says and nothing else**: every field is
a name that is no keyword and no constant, every float is finite, the comparisons and
connectives are those of the tokens in their order, and the fields are the texts of the
field tokens. -/
theorem Policy.parse_provenance {policy : Policy} {source : String} {p : Predicate}
    (h : policy.parse source = .ok p) :
    (∀ field relation value, .comparison field relation value ∈ p.inOrder →
      isIdentifier field.toList = true ∧
      (∀ reserved ∈ reservedWords, Text.spells reserved field.toList = false) ∧
      ∀ x, value = .number (.float x) → x.isFinite = true) ∧
    ∃ stream, TokenStream.scan source = .ok stream ∧ Entries stream.tokens p.inOrder ∧
      ∀ name, name ∈ p.fields ↔ ∃ t ∈ stream.tokens, t.kind = .field ∧ t.text = name := by
  obtain ⟨stream, hscan, hparse⟩ := parse_eq_ok_iff.mp h
  have hentries := entries_of_parseTokens hparse
  refine ⟨fun field relation value hmem => ?_, stream, hscan, hentries, fun name => ?_⟩
  · obtain ⟨hname, hfinite⟩ := Predicate.wellFormed_iff.mp (wellFormed_of_parse h) _ _ _ hmem
    obtain ⟨hidentifier, hreserved⟩ := Bool.and_eq_true_iff.mp hname
    refine ⟨hidentifier, by simpa using hreserved, fun x hx => ?_⟩
    rwa [hx] at hfinite
  · rw [Predicate.mem_fields_iff, hentries.exists_comparison_iff]

/-- Parentheses leave no trace, and a numeral out of range is a string. -/
theorem Policy.parse_provenance_group :
    let source := "(a:1.50 or b:=TRUE) AND a>9999999999999999999"
    let x : Binary64 := .ofBits 0x3FF8000000000000
    let p : Predicate := .logical .and
      (.logical .or (.comparison "a" .equal (.number (.float x)))
        (.comparison "b" .equal (.boolean true)))
      (.comparison "a" .greater (.string "9999999999999999999"))
    Policy.standard.parse source = .ok p ∧ x.isFinite = true ∧
      ∃ stream, TokenStream.scan source = .ok stream ∧
        Entries stream.tokens [.comparison "a" .equal (.number (.float x)), .connective .or,
          .comparison "b" .equal (.boolean true), .connective .and,
          .comparison "a" .greater (.string "9999999999999999999")] ∧
        ∀ name, name ∈ p.fields ↔ ∃ t ∈ stream.tokens, t.kind = .field ∧ t.text = name := by
  intro source x p
  have hparse : Policy.standard.parse source = .ok p := eq_ok_of_toOption (by decide +kernel)
  obtain ⟨hcomparisons, hstream⟩ := Policy.parse_provenance hparse
  obtain ⟨-, -, hfinite⟩ := hcomparisons "a" .equal (.number (.float x)) (.head _)
  exact ⟨hparse, hfinite x rfl, hstream⟩

end FilterQuery
