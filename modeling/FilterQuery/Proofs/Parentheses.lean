import FilterQuery.Proofs.Provenance

/-!
# FilterQuery.Proofs.Parentheses

The canonical text of a predicate has no more parentheses than any query for it, and
nests them no deeper.  Both are the same argument, with sums in the one case and maxima
in the other (`Tally`): a derivation has a group wherever its meaning would not be a
phrase of the kind that has to stand there.

* `Predicate.parensIn` — the parentheses that a predicate needs as a phrase of some kind;
* `Derivation.parens_meaning_le` — a derivation has at least those of its meaning;
* `Derivation.countP_tokens`, `Derivation.nestingFrom_tokens` — its parentheses are those
  of its tokens.

So whatever a policy accepts it accepts in its canonical text, too.
-/

namespace FilterQuery

open Token Parse

/-! ## counting parentheses -/

/-- What is counted: all pairs of parentheses, or those around one place. -/
inductive Tally where
  | number
  | depth

namespace Tally

/-- The parentheses of two texts, one behind the other. -/
def join : Tally → Nat → Nat → Nat
  | number, m, n => m + n
  | depth, m, n => max m n

variable (tally : Tally) {l m n k : Nat}

theorem join_zero : tally.join n 0 = n := by
  cases tally <;> simp [join]

theorem join_assoc : tally.join (tally.join l m) n = tally.join l (tally.join m n) := by
  cases tally <;> simp only [join] <;> omega

theorem join_le_join (hlk : l ≤ k) (hmn : m ≤ n) : tally.join l m ≤ tally.join k n := by
  cases tally <;> simp only [join] <;> omega

end Tally

variable {tally : Tally}

/-- The parentheses of a derivation. -/
def Derivation.parens (tally : Tally) {c : Category} : Derivation c → Nat
  | chain first rest => tally.join (first.parens tally) (rest.parens tally)
  | last => 0
  | more _ _ next rest => tally.join (next.parens tally) (rest.parens tally)
  | group _ _ inner _ _ => inner.parens tally + 1
  | comparison .. => 0

/-- Does the token open a group? -/
def Token.opensGroup (t : Token) : Bool := t.kind == .openGroup

/-- The number of groups in a token stream. -/
def TokenStream.groups (stream : TokenStream) : Nat := stream.tokens.countP Token.opensGroup

namespace Predicate

/-- The parentheses in the canonical text. -/
def parens (tally : Tally) : Predicate → Nat
  | comparison .. => 0
  | logical connective left right =>
    tally.join (left.parens tally + (left.needsGroup connective .left).toNat)
      (right.parens tally + (right.needsGroup connective .right).toNat)

/-- Must the predicate stand in parentheses where a phrase of the kind is due? -/
def needsGroupIn (loosest : Option Connective) : Predicate → Bool
  | comparison .. => false
  | logical own _ _ => loosest.all fun k => own.precedence < k.precedence

/-- The parentheses in the canonical text of a phrase. -/
def parensIn (tally : Tally) (loosest : Option Connective) (p : Predicate) : Nat :=
  p.parens tally + (p.needsGroupIn loosest).toNat

/-- A left operand goes on the chain of its connective. -/
theorem needsGroup_left (k : Connective) (p : Predicate) :
    p.needsGroup k .left = p.needsGroupIn (some k) := by
  cases p <;> simp [needsGroup, needsGroupIn]

/-- A right operand is a link of the chain. -/
theorem needsGroup_right (k : Connective) (p : Predicate) :
    p.needsGroup k .right = p.needsGroupIn k.tighter := by
  cases p with
  | comparison => rfl
  | logical own left right => cases k <;> cases own <;> rfl

/-- A connective has the parentheses of its operands. -/
theorem parens_logical (k : Connective) (left right : Predicate) :
    (logical k left right).parens tally =
      tally.join (left.parensIn tally (some k)) (right.parensIn tally k.tighter) := by
  rw [parens, needsGroup_left, needsGroup_right, parensIn, parensIn]

/-- A connective may stand in its own chain. -/
theorem parensIn_logical (k : Connective) (left right : Predicate) :
    (logical k left right).parensIn tally (some k) = (logical k left right).parens tally := by
  simp [parensIn, needsGroupIn]

/-- Whatever is a link of a chain is a chain. -/
theorem parensIn_le_tighter (k : Connective) (p : Predicate) :
    p.parensIn tally (some k) ≤ p.parensIn tally k.tighter := by
  cases p with
  | comparison => exact Nat.le_refl _
  | logical own left right =>
    cases k <;> cases own <;>
      simp [parensIn, needsGroupIn, Connective.tighter, Connective.precedence]

/-- A group is a phrase of every kind. -/
theorem parensIn_le_succ (loosest : Option Connective) (p : Predicate) :
    p.parensIn tally loosest ≤ p.parensIn tally (some .or) + 1 := by
  have hneeds := Bool.toNat_le (p.needsGroupIn loosest)
  simp only [parensIn]
  omega

end Predicate

/-! ## derivations -/

/-- So many parentheses are enough for the meaning of a piece, besides those of what
stands to the left. -/
def Category.Suffices (tally : Tally) : (c : Category) → c.Meaning → Nat → Prop
  | phrase loosest, p, n => p.parensIn tally loosest ≤ n
  | rest k, meaning, n => ∀ left,
      (meaning left).parensIn tally (some k) ≤ tally.join (left.parensIn tally (some k)) n

namespace Derivation

/-- A derivation has the parentheses that its meaning needs. -/
theorem suffices_parens {c : Category} (d : Derivation c) :
    c.Suffices tally d.meaning (d.parens tally) := by
  -- What stands to the left of the rest of a chain is counted as a chain, and its first
  -- link, which is due as a link, needs no more as a chain.
  induction d with
  | @chain k first rest ihfirst ihrest =>
    have hlink : Predicate.parensIn tally (some k) first.meaning ≤ first.parens tally :=
      Nat.le_trans (Predicate.parensIn_le_tighter k first.meaning) ihfirst
    exact Nat.le_trans (ihrest first.meaning) (tally.join_le_join hlink (Nat.le_refl _))
  | last => exact fun left => Nat.le_of_eq tally.join_zero.symm
  | @more k keyword hkeyword next rest ihnext ihrest =>
    intro left
    calc (rest.meaning (.logical k left next.meaning)).parensIn tally (some k)
      _ ≤ tally.join ((Predicate.logical k left next.meaning).parensIn tally (some k))
            (rest.parens tally) := ihrest _
      _ = tally.join (tally.join (left.parensIn tally (some k))
            (Predicate.parensIn tally k.tighter next.meaning)) (rest.parens tally) := by
          rw [Predicate.parensIn_logical, Predicate.parens_logical]
      _ ≤ tally.join (tally.join (left.parensIn tally (some k)) (next.parens tally))
            (rest.parens tally) :=
          tally.join_le_join (tally.join_le_join (Nat.le_refl _) ihnext) (Nat.le_refl _)
      _ = tally.join (left.parensIn tally (some k))
            (tally.join (next.parens tally) (rest.parens tally)) := tally.join_assoc
  | group opening hopening inner closing hclosing ih =>
    exact Nat.le_trans (Predicate.parensIn_le_succ none inner.meaning) (Nat.succ_le_succ ih)
  | comparison field operator value op quoted hfield hoperator hvalue => exact Nat.le_refl 0

/-- A query has the parentheses of the canonical text of its predicate. -/
theorem parens_meaning_le (d : Derivation .expression) :
    Predicate.parens tally d.meaning ≤ d.parens tally :=
  Nat.le_trans (Nat.le_add_right ..) d.suffices_parens

/-! ### their tokens -/

/-- A derivation has a group for every open parenthesis. -/
theorem countP_tokens {c : Category} (d : Derivation c) :
    d.tokens.countP Token.opensGroup = d.parens .number := by
  induction d with
  | chain first rest ihfirst ihrest => simp [tokens, parens, Tally.join, ihfirst, ihrest]
  | last => rfl
  | more keyword hkeyword next rest ihnext ihrest =>
    simp [tokens, parens, Tally.join, ihnext, ihrest, Token.opensGroup, hkeyword]
  | group opening hopening inner closing hclosing ih =>
    simp [tokens, parens, ih, Token.opensGroup, hopening, hclosing]
  | comparison field operator value op quoted hfield hoperator hvalue =>
    simp [tokens, parens, Token.opensGroup, hfield, hoperator, hvalue]

/-- The groups of a derivation are closed again, and nest as deep as its parentheses. -/
theorem nestingFrom_tokens {c : Category} (d : Derivation c) (depth : Nat) (us : List Token) :
    nestingFrom depth (d.tokens ++ us) =
      max (depth + d.parens .depth) (nestingFrom depth us) := by
  induction d generalizing depth us with
  | chain first rest ihfirst ihrest =>
    rw [tokens, List.append_assoc, ihfirst, ihrest, parens, Tally.join]
    omega
  | last =>
    have hdepth := le_nestingFrom depth us
    rw [tokens, List.nil_append, parens]
    omega
  | more keyword hkeyword next rest ihnext ihrest =>
    have hdepth := le_nestingFrom depth us
    simp only [tokens, List.cons_append, List.append_assoc, nestingFrom, hkeyword,
      Kind.depthAfter, ihnext, ihrest, parens, Tally.join]
    omega
  | group opening hopening inner closing hclosing ih =>
    have hdepth := le_nestingFrom depth us
    simp only [tokens, List.cons_append, List.append_assoc, List.nil_append, nestingFrom,
      hopening, hclosing, Kind.depthAfter, Nat.add_sub_cancel, ih, parens]
    omega
  | comparison field operator value op quoted hfield hoperator hvalue =>
    have hdepth := le_nestingFrom depth us
    simp only [tokens, List.cons_append, List.nil_append, nestingFrom, hfield, hoperator, hvalue,
      Kind.depthAfter, parens]
    omega

end Derivation

/-! ## the canonical text -/

namespace Predicate

/-- The tokens of an operand have one more group in parentheses. -/
theorem countP_writtenOperand (needed : Bool) (ts : List Token) :
    (writtenOperand needed ts).countP Token.opensGroup =
      ts.countP Token.opensGroup + needed.toNat := by
  cases needed with
  | false => rfl
  | true => simp [writtenOperand, grouped, Token.opensGroup]

/-- The tokens of the canonical text have its parentheses. -/
theorem countP_written (p : Predicate) :
    p.written.countP Token.opensGroup = p.parens .number := by
  induction p with
  | comparison field relation value =>
    cases value <;> rfl
  | logical k left right ihleft ihright =>
    simp [written, parens, Tally.join, countP_writtenOperand, ihleft, ihright, Token.opensGroup]

/-- The nesting of the canonical text is that of its parentheses. -/
theorem parens_depth (p : Predicate) : p.parens .depth = p.nesting := by
  induction p with
  | comparison => rfl
  | logical k left right ihleft ihright => rw [parens, ihleft, ihright, Tally.join, nesting]

/-- The canonical text is split into its tokens. -/
theorem exists_scan_text {p : Predicate} (hp : p.wellFormed = true) :
    ∃ stream, TokenStream.scan p.text = .ok stream ∧
      stream.tokens.map content = p.written.map content := by
  refine TokenStream.reads_iff.mp ?_
  simpa using p.reads_text hp (fun c hc => by cases hc) (.nil false)

end Predicate

/-- Tokens that close what they open are nested as deep as they are anywhere else. -/
theorem Token.nestingFrom_zero {ts : List Token} {n : Nat}
    (h : ∀ depth us, nestingFrom depth (ts ++ us) = max (depth + n) (nestingFrom depth us)) :
    nestingFrom 0 ts = n := by
  simpa [nestingFrom] using h 0 []

/-- Groups are a matter of what the tokens say. -/
theorem Token.countP_opensGroup_congr {ts us : List Token}
    (h : us.map content = ts.map content) :
    us.countP Token.opensGroup = ts.countP Token.opensGroup := by
  have hcontents (vs : List Token) : vs.countP Token.opensGroup =
      (vs.map content).countP fun content => content.1 == .openGroup := by
    rw [List.countP_map]
    rfl
  rw [hcontents, hcontents, h]

/-- What the parentheses of an accepted query amount to, those of the canonical text do
not exceed. -/
theorem parens_le_of_parseTokens {policy : Policy} {stream : TokenStream} {p : Predicate}
    (h : policy.parseTokens stream = .ok p) :
    p.parens .number ≤ stream.groups ∧ p.nesting ≤ stream.nesting := by
  obtain ⟨d, htokens, rfl⟩ := derives_of_parseTokens h
  rw [TokenStream.groups, TokenStream.nesting, ← htokens, d.countP_tokens,
    nestingFrom_zero d.nestingFrom_tokens, ← Predicate.parens_depth]
  exact ⟨d.parens_meaning_le, d.parens_meaning_le⟩

/-- **The canonical text has the fewest parentheses**: whatever a policy accepts it
accepts as the same predicate in its canonical text, which has no more groups than the
query and nests them no deeper. -/
theorem Policy.parse_text_fewest {policy : Policy} {source : String} {p : Predicate}
    (h : policy.parse source = .ok p) :
    policy.parse p.text = .ok p ∧
      ∃ stream canonical, TokenStream.scan source = .ok stream ∧
        TokenStream.scan p.text = .ok canonical ∧
        canonical.groups ≤ stream.groups ∧ canonical.nesting ≤ stream.nesting := by
  have hp := wellFormed_of_parse h
  obtain ⟨stream, hscan, hparse⟩ := parse_eq_ok_iff.mp h
  obtain ⟨canonical, htext, hcontents⟩ := Predicate.exists_scan_text hp
  have hgroups : canonical.groups = p.parens .number := by
    rw [TokenStream.groups, countP_opensGroup_congr hcontents, p.countP_written]
  have hnesting : canonical.nesting = p.nesting := by
    rw [TokenStream.nesting, nestingFrom_congr hcontents, nestingFrom_zero p.nestingFrom_written]
  obtain ⟨hfewer, hshallower⟩ := parens_le_of_parseTokens hparse
  rw [← hgroups] at hfewer
  rw [← hnesting] at hshallower
  refine ⟨parse_eq_ok_iff.mpr ⟨canonical, htext, ?_⟩, stream, canonical, hscan, htext, hfewer,
    hshallower⟩
  obtain ⟨-, hdepth, hadmits⟩ := parseTokens_restricted_iff.mp hparse
  have hderives : Derives .expression canonical.tokens p :=
    (Predicate.derives_written hp).toExpression.of_contents_eq hcontents
  exact parseTokens_restricted_iff.mpr ⟨parseTokens_of_derives hderives,
    fun limit hlimit => Nat.le_trans hshallower (hdepth limit hlimit), hadmits⟩

/-- Under the narrowest limits: one of three groups is needed, and all others are not. -/
theorem Policy.parse_text_fewest_grouped :
    let policy : Policy := ⟨none, some 2, some 3⟩
    let p : Predicate := .logical .and (.comparison "a" .equal (.number (.integer 1)))
      (.logical .or (.comparison "b" .equal (.number (.integer 2)))
        (.comparison "c" .equal (.number (.integer 3))))
    policy.parse "(a:1) AND ((b:2) OR c:3)" = .ok p ∧ policy.parse p.text = .ok p ∧
      ∃ stream canonical, TokenStream.scan "(a:1) AND ((b:2) OR c:3)" = .ok stream ∧
        TokenStream.scan p.text = .ok canonical ∧
        canonical.groups ≤ stream.groups ∧ canonical.nesting ≤ stream.nesting := by
  intro policy p
  have hparse : policy.parse "(a:1) AND ((b:2) OR c:3)" = .ok p :=
    eq_ok_of_toOption (by decide +kernel)
  exact ⟨hparse, Policy.parse_text_fewest hparse⟩

end FilterQuery
