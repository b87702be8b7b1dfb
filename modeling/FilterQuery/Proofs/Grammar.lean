import FilterQuery.Parse

/-!
# FilterQuery.Proofs.Grammar

The grammar of queries, said apart from the reader of `FilterQuery.Parse.State`:

```
expression  := conjunction (OR conjunction)*
conjunction := operand (AND operand)*
operand     := '(' expression ')' | field operator value
```

The first two rules are one: a chain of a connective joins phrases of the next
tighter kind.  A derivation is a tree of these rules with tokens at its leaves.
It covers a list of tokens (`Derivation.tokens`) and denotes a predicate
(`Derivation.meaning`).

* `Derivation.eq_of_tokens_eq` — no list of tokens has two derivations;
* `Derives.snoc` — a chain may be prolonged at its end, which is where a reader
  meets the next operand;
* `Derives.of_contents_eq` — where the tokens stand does not matter.
-/

namespace FilterQuery

/-! ## comparisons -/

/-- The relation that an operator stands for: `:` and `:=` are the same one. -/
def Operator.denoted : Operator → Relation
  | .equal | .equalAlias => .equal
  | .contains => .contains
  | .notEqual => .notEqual
  | .greater => .greater
  | .less => .less
  | .greaterEqual => .greaterEqual
  | .lessEqual => .lessEqual

/-- The reader takes it for that relation. -/
theorem Operator.denoted_eq (op : Operator) : op.denoted = op.relation := by
  cases op <;> rfl

/-- The value that a literal stands for: in quotes nothing but the text itself. -/
def Literal.denoted : (quoted : Bool) → (text : String) → Literal
  | true, text => .string text
  | false, text => .ofUnquoted text

/-- The reader takes it for that value. -/
theorem Literal.denoted_eq (quoted : Bool) (text : String) :
    denoted quoted text = Parse.State.value quoted text := by
  cases quoted <;> rfl

/-! ## derivations -/

/-- What a piece of a query is: a phrase, named for the loosest connective that
may stand in it outside of groups, or what follows the first link of a chain. -/
inductive Category where
  | phrase (loosest : Option Connective)
  | rest (k : Connective)

namespace Category

/-- A chain of `OR`. -/
abbrev expression : Category := phrase (some .or)

/-- A chain of `AND`. -/
abbrev conjunction : Category := phrase (some .and)

/-- A group or a comparison. -/
abbrev operand : Category := phrase none

end Category

/-- The loosest connective in the links of a chain. -/
def Connective.tighter : Connective → Option Connective
  | .or => some .and
  | .and => none

/-- Derivation trees of the grammar, one constructor for each alternative; a
repetition ends (`last`) or goes on (`more`). -/
inductive Derivation : Category → Type where
  | chain {k : Connective} (first : Derivation (.phrase k.tighter))
      (rest : Derivation (.rest k)) : Derivation (.phrase (some k))
  | last {k : Connective} : Derivation (.rest k)
  | more {k : Connective} (keyword : Token) (hkeyword : keyword.kind = .keyword k)
      (next : Derivation (.phrase k.tighter)) (rest : Derivation (.rest k)) :
      Derivation (.rest k)
  | group (opening : Token) (hopening : opening.kind = .openGroup)
      (inner : Derivation .expression)
      (closing : Token) (hclosing : closing.kind = .closeGroup) : Derivation .operand
  | comparison (field operator value : Token) (op : Operator) (quoted : Bool)
      (hfield : field.kind = .field) (hoperator : operator.kind = .operator op)
      (hvalue : value.kind = .literal quoted) : Derivation .operand

/-- What derivations denote: the rest of a chain makes a predicate of the one
before it. -/
abbrev Category.Meaning : Category → Type
  | .phrase _ => Predicate
  | .rest _ => Predicate → Predicate

namespace Derivation

/-- The tokens that a derivation covers. -/
def tokens : Derivation c → List Token
  | chain first rest => first.tokens ++ rest.tokens
  | last => []
  | more keyword _ next rest => keyword :: (next.tokens ++ rest.tokens)
  | group opening _ inner closing _ => opening :: (inner.tokens ++ [closing])
  | comparison field operator value .. => [field, operator, value]

/-- The predicate that a derivation denotes.  Chains group to the left, and a
group contributes its content. -/
def meaning : Derivation c → c.Meaning
  | chain first rest => rest.meaning first.meaning
  | last => fun left => left
  | @more k _ _ next rest => fun left => rest.meaning (.logical k left next.meaning)
  | group _ _ inner _ _ => inner.meaning
  | comparison field _ value op quoted .. =>
    .comparison field.text op.denoted (.denoted quoted value.text)

end Derivation

/-- The tokens have a derivation of the category that denotes `meaning`. -/
def Derives (c : Category) (ts : List Token) (meaning : c.Meaning) : Prop :=
  ∃ d : Derivation c, d.tokens = ts ∧ d.meaning = meaning

variable {c : Category} {k : Connective} {ts us : List Token}

/-! ## unambiguity -/

/-- The tokens do not start with a connective that would prolong a piece of the
category. -/
def Category.EndsBefore : Category → List Token → Prop
  | .phrase none, _ => True
  | .phrase (some k), ts | .rest k, ts =>
    ∀ t ∈ ts.head?, ∀ j, t.kind = .keyword j → j.precedence < k.precedence

namespace Derivation

/-- The rest of a chain does not prolong the link before it. -/
theorem endsBefore_link (d : Derivation (.rest k)) (h : Category.EndsBefore (.rest k) ts) :
    Category.EndsBefore (.phrase k.tighter) (d.tokens ++ ts) := by
  cases k with
  | and => trivial
  | or =>
    intro t ht j hj
    cases d with
    | last => exact Nat.lt_trans (h t ht j hj) (by decide)
    | more keyword hkeyword next rest =>
      obtain rfl : keyword = t := by simpa [tokens] using ht
      obtain rfl : Connective.or = j := by simpa [hkeyword] using hj
      decide

/-- Of two derivations in front of tokens that prolong neither, one cannot cover
more than the other. -/
theorem eq_of_append_eq (d : Derivation c) : ∀ (e : Derivation c) {ts us : List Token},
    c.EndsBefore ts → c.EndsBefore us → d.tokens ++ ts = e.tokens ++ us → d = e ∧ ts = us := by
  -- A chain ends where no connective of its own level follows, so the two
  -- derivations part company nowhere.
  have hstop {k : Connective} {keyword : Token} (hkeyword : keyword.kind = .keyword k)
      (us : List Token) : ¬ Category.EndsBefore (.rest k) (keyword :: us) :=
    fun h => Nat.lt_irrefl _ (h keyword rfl k hkeyword)
  induction d with
  | chain first rest ihfirst ihrest =>
    intro e ts us hts hus h
    cases e with
    | chain first' rest' =>
      simp only [tokens, List.append_assoc] at h
      obtain ⟨rfl, hrest⟩ := ihfirst first' (rest.endsBefore_link hts)
        (rest'.endsBefore_link hus) h
      obtain ⟨rfl, rfl⟩ := ihrest rest' hts hus hrest
      exact ⟨rfl, rfl⟩
  | last =>
    intro e ts us hts hus h
    cases e with
    | last => exact ⟨rfl, h⟩
    | more keyword hkeyword next rest =>
      rw [tokens, List.nil_append] at h
      exact absurd (h ▸ hts) (hstop hkeyword _)
  | more keyword hkeyword next rest ihnext ihrest =>
    intro e ts us hts hus h
    cases e with
    | last =>
      rw [tokens, List.nil_append] at h
      exact absurd (h ▸ hus) (hstop hkeyword _)
    | more keyword' hkeyword' next' rest' =>
      simp only [tokens, List.cons_append, List.append_assoc, List.cons.injEq] at h
      obtain ⟨rfl, hnext⟩ := h
      obtain ⟨rfl, hrest⟩ := ihnext next' (rest.endsBefore_link hts)
        (rest'.endsBefore_link hus) hnext
      obtain ⟨rfl, rfl⟩ := ihrest rest' hts hus hrest
      exact ⟨rfl, rfl⟩
  | group opening hopening inner closing hclosing ih =>
    intro e ts us hts hus h
    cases e with
    | group opening' hopening' inner' closing' hclosing' =>
      simp only [tokens, List.cons_append, List.append_assoc, List.nil_append,
        List.cons.injEq] at h
      obtain ⟨rfl, hinner⟩ := h
      have hends {closing : Token} (hclosing : closing.kind = .closeGroup) (ts : List Token) :
          Category.EndsBefore .expression (closing :: ts) := by
        simp [Category.EndsBefore, hclosing]
      obtain ⟨rfl, hclosings⟩ := ih inner' (hends hclosing _) (hends hclosing' _) hinner
      obtain ⟨rfl, rfl⟩ := List.cons.inj hclosings
      exact ⟨rfl, rfl⟩
    | comparison field operator value op quoted hfield hoperator hvalue =>
      obtain ⟨rfl, -⟩ := List.cons.inj h
      rw [hopening] at hfield
      contradiction
  | comparison field operator value op quoted hfield hoperator hvalue =>
    intro e ts us hts hus h
    cases e with
    | group opening hopening inner closing hclosing =>
      obtain ⟨rfl, -⟩ := List.cons.inj h
      rw [hopening] at hfield
      contradiction
    | comparison field' operator' value' op' quoted' hfield' hoperator' hvalue' =>
      simp only [tokens, List.cons_append, List.nil_append, List.cons.injEq] at h
      obtain ⟨rfl, rfl, rfl, rfl⟩ := h
      obtain rfl : op = op' := by simpa [hoperator] using hoperator'
      obtain rfl : quoted = quoted' := by simpa [hvalue] using hvalue'
      exact ⟨rfl, rfl⟩

/-- No list of tokens has two derivations. -/
theorem eq_of_tokens_eq {d e : Derivation c} (h : d.tokens = e.tokens) : d = e := by
  have hends : c.EndsBefore [] := by
    obtain (_ | k) | k := c <;> simp [Category.EndsBefore]
  exact (eq_of_append_eq d e hends hends (by rw [h])).1

end Derivation

/-! ## building derivations -/

namespace Derivation

/-- Prolong the rest of a chain at its end. -/
def snoc (d : Derivation (.rest k)) (keyword : Token) (hkeyword : keyword.kind = .keyword k)
    (next : Derivation (.phrase k.tighter)) : Derivation (.rest k) :=
  match d with
  | last => more keyword hkeyword next last
  | more keyword' hkeyword' next' rest =>
    more keyword' hkeyword' next' (rest.snoc keyword hkeyword next)

variable {keyword : Token} {hkeyword : keyword.kind = .keyword k}
  {next : Derivation (.phrase k.tighter)}

theorem tokens_snoc : (d : Derivation (.rest k)) →
    (d.snoc keyword hkeyword next).tokens = d.tokens ++ keyword :: next.tokens
  | last => by simp [snoc, tokens]
  | more _ _ _ rest => by simp [snoc, tokens, tokens_snoc rest]

theorem meaning_snoc (left : Predicate) : (d : Derivation (.rest k)) →
    (d.snoc keyword hkeyword next).meaning left = .logical k (d.meaning left) next.meaning
  | last => by simp only [snoc, meaning]
  | more _ _ next' rest => by
      simp only [snoc, meaning]
      exact meaning_snoc (.logical k left next'.meaning) rest

end Derivation

namespace Derives

/-- A link alone is a chain. -/
theorem single {p : Predicate} (h : Derives (.phrase k.tighter) ts p) :
    Derives (.phrase (some k)) ts p := by
  obtain ⟨d, rfl, rfl⟩ := h
  exact ⟨.chain d .last, by simp [Derivation.tokens], rfl⟩

/-- An operand alone is every kind of phrase. -/
theorem promote {p : Predicate} (h : Derives .operand ts p) :
    (loosest : Option Connective) → Derives (.phrase loosest) ts p
  | none => h
  | some .and => single (k := .and) h
  | some .or => single (k := .or) (single (k := .and) h)

/-- Every phrase is an expression. -/
theorem toExpression {p : Predicate} :
    {loosest : Option Connective} → Derives (.phrase loosest) ts p → Derives .expression ts p
  | none, h => h.promote _
  | some .and, h => single (k := .or) h
  | some .or, h => h

/-- A chain goes on with its connective and another link. -/
theorem snoc {p q : Predicate} {keyword : Token} (hp : Derives (.phrase (some k)) ts p)
    (hkeyword : keyword.kind = .keyword k) (hq : Derives (.phrase k.tighter) us q) :
    Derives (.phrase (some k)) (ts ++ keyword :: us) (.logical k p q) := by
  obtain ⟨⟨first, rest⟩, rfl, rfl⟩ := hp
  obtain ⟨next, rfl, rfl⟩ := hq
  refine ⟨.chain first (rest.snoc keyword hkeyword next), ?_, Derivation.meaning_snoc _ rest⟩
  simp only [Derivation.tokens, Derivation.tokens_snoc, List.append_assoc]

/-- An expression in parentheses is an operand. -/
theorem group {p : Predicate} {opening closing : Token} (hopening : opening.kind = .openGroup)
    (h : Derives .expression ts p) (hclosing : closing.kind = .closeGroup) :
    Derives .operand (opening :: (ts ++ [closing])) p := by
  obtain ⟨d, rfl, rfl⟩ := h
  exact ⟨.group opening hopening d closing hclosing, rfl, rfl⟩

/-- A field, an operator and a value make a comparison. -/
theorem comparison {field operator value : Token} {op : Operator} {quoted : Bool}
    (hfield : field.kind = .field) (hoperator : operator.kind = .operator op)
    (hvalue : value.kind = .literal quoted) :
    Derives .operand [field, operator, value]
      (.comparison field.text op.denoted (.denoted quoted value.text)) :=
  ⟨.comparison field operator value op quoted hfield hoperator hvalue, rfl, rfl⟩

/-! ### tokens elsewhere -/

/-- What tokens derive depends on what they say alone. -/
theorem of_contents_eq {meaning : c.Meaning} (h : Derives c ts meaning)
    (hus : us.map Token.content = ts.map Token.content) : Derives c us meaning := by
  obtain ⟨d, rfl, rfl⟩ := h
  induction d generalizing us with
  | chain first rest ihfirst ihrest =>
    rw [Derivation.tokens, List.map_append, List.map_eq_append_iff] at hus
    obtain ⟨us₁, us₂, rfl, h₁, h₂⟩ := hus
    obtain ⟨first', rfl, hfirst⟩ := ihfirst h₁
    obtain ⟨rest', rfl, hrest⟩ := ihrest h₂
    exact ⟨.chain first' rest', rfl, by simp only [Derivation.meaning, hfirst, hrest]⟩
  | last => exact ⟨.last, (List.map_eq_nil_iff.mp hus).symm, rfl⟩
  | more keyword hkeyword next rest ihnext ihrest =>
    rw [Derivation.tokens, List.map_cons, List.map_append, List.map_eq_cons_iff] at hus
    obtain ⟨keyword', us', rfl, hk, hus'⟩ := hus
    obtain ⟨us₁, us₂, rfl, h₁, h₂⟩ := List.map_eq_append_iff.mp hus'
    obtain ⟨next', rfl, hnext⟩ := ihnext h₁
    obtain ⟨rest', rfl, hrest⟩ := ihrest h₂
    exact ⟨.more keyword' ((congrArg Prod.fst hk).trans hkeyword) next' rest', rfl,
      by simp only [Derivation.meaning, hnext, hrest]⟩
  | group opening hopening inner closing hclosing ih =>
    rw [Derivation.tokens, List.map_cons, List.map_append, List.map_eq_cons_iff] at hus
    obtain ⟨opening', us', rfl, ho, hus'⟩ := hus
    obtain ⟨us₁, us₂, rfl, h₁, h₂⟩ := List.map_eq_append_iff.mp hus'
    obtain ⟨closing', us₃, rfl, hc, h₃⟩ := List.map_eq_cons_iff.mp h₂
    obtain rfl := List.map_eq_nil_iff.mp h₃
    exact (ih h₁).group ((congrArg Prod.fst ho).trans hopening)
      ((congrArg Prod.fst hc).trans hclosing)
  | comparison field operator value op quoted hfield hoperator hvalue =>
    simp only [Derivation.tokens, List.map_cons, List.map_nil, List.map_eq_cons_iff,
      List.map_eq_nil_iff] at hus
    obtain ⟨field', _, rfl, hf, operator', _, rfl, ho, value', _, rfl, hv, rfl⟩ := hus
    obtain ⟨hfkind, hftext⟩ := Prod.mk.inj hf
    obtain ⟨hvkind, hvtext⟩ := Prod.mk.inj hv
    rw [Derivation.meaning, ← hftext, ← hvtext]
    exact comparison (hfkind.trans hfield) ((congrArg Prod.fst ho).trans hoperator)
      (hvkind.trans hvalue)

end Derives

end FilterQuery
