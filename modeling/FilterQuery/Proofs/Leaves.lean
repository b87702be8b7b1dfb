import FilterQuery.Proofs.Grammar
import FilterQuery.Proofs.Lists

/-!
# FilterQuery.Proofs.Leaves

The comparisons of a predicate, counted from the left, and where they stand in
a derivation.

* `replaceLeaf` — one comparison makes room for a predicate;
* `Derivation.length_leaves`, `Derivation.hasLeaves_meaning` — a derivation has
  a leaf for every field, in the same order as its meaning;
* `Derivation.exists_site` — every field starts a comparison, and any operand may
  stand in its place.
-/

namespace FilterQuery

/-! ## leaves -/

namespace Predicate

/-- The comparisons of a predicate, from left to right. -/
def leaves : Predicate → List Predicate
  | p@(comparison ..) => [p]
  | logical _ left right => left.leaves ++ right.leaves

/-- The predicate with `q` in the place of leaf number `n`, counted from the
left; there is no change if it has no such leaf. -/
def replaceLeaf (p : Predicate) (n : Nat) (q : Predicate) : Predicate :=
  match p with
  | comparison .. => if n = 0 then q else p
  | logical connective left right =>
    if n < left.leaves.length then logical connective (left.replaceLeaf n q) right
    else logical connective left (right.replaceLeaf (n - left.leaves.length) q)

/-- A leaf of the left operand is replaced there. -/
theorem replaceLeaf_left {n : Nat} {left : Predicate} (h : n < left.leaves.length)
    (connective : Connective) (right q : Predicate) :
    (logical connective left right).replaceLeaf n q =
      logical connective (left.replaceLeaf n q) right := by
  rw [replaceLeaf, if_pos h]

/-- A leaf of the right operand comes after those of the left one. -/
theorem replaceLeaf_right (n : Nat) (connective : Connective) (left right q : Predicate) :
    (logical connective left right).replaceLeaf (left.leaves.length + n) q =
      logical connective left (right.replaceLeaf n q) := by
  rw [replaceLeaf, if_neg (by omega), Nat.add_sub_cancel_left]

end Predicate

/-! ## leaves of a derivation -/

variable {c : Category} {k : Connective}

/-- Is the token the name of a field? -/
def Token.isField (t : Token) : Bool := t.kind == .field

/-- Tokens behind which a comparison may start. -/
def Token.Kind.opensOperand : Token.Kind → Bool
  | .openGroup | .keyword _ => true
  | _ => false

namespace Category

/-- The tokens lead to a comparison: the last of them, which only a phrase may
be without, opens an operand. -/
def Leads : Category → List Token → Prop
  | phrase _, ts => ∀ t ∈ ts.getLast?, t.kind.opensOperand = true
  | rest _, ts => ∃ t ∈ ts.getLast?, t.kind.opensOperand = true

/-- Leading tokens may have any others before them. -/
theorem Leads.append {us : List Token} (h : (rest k).Leads us) (c : Category) (ts : List Token) :
    c.Leads (ts ++ us) := by
  obtain ⟨t, ht, hopens⟩ := h
  have hlast : (ts ++ us).getLast? = some t := by
    rw [List.getLast?_append, ht]
    rfl
  cases c with
  | phrase _ =>
    intro u hu
    rw [hlast] at hu
    cases hu
    exact hopens
  | rest _ => exact ⟨t, hlast, hopens⟩

/-- What leads to a comparison still does behind a token that opens an operand. -/
theorem Leads.cons {loosest : Option Connective} {t : Token} {ts : List Token}
    (h : (phrase loosest).Leads ts) (ht : t.kind.opensOperand = true) (k : Connective) :
    (rest k).Leads (t :: ts) := by
  refine ⟨_, List.getLast?_cons, ?_⟩
  cases hlast : ts.getLast? with
  | none => exact ht
  | some u => exact h u hlast

/-- The meaning of a piece with leaf number `n` replaced; the leaves of what
stands to the left of the rest of a chain do not count. -/
def replaceLeaf : (c : Category) → c.Meaning → Nat → Predicate → c.Meaning
  | phrase _, p, n, q => p.replaceLeaf n q
  | rest _, meaning, n, q => fun left => (meaning left).replaceLeaf (left.leaves.length + n) q

/-- The leaves of the meaning, without those of what stands to the left. -/
def HasLeaves : (c : Category) → c.Meaning → List Predicate → Prop
  | phrase _, p, leaves => p.leaves = leaves
  | rest _, meaning, leaves => ∀ left, (meaning left).leaves = left.leaves ++ leaves

end Category

namespace Derivation

/-- The comparisons of a derivation. -/
def leaves {c : Category} : Derivation c → List Predicate
  | chain first rest => first.leaves ++ rest.leaves
  | last => []
  | more _ _ next rest => next.leaves ++ rest.leaves
  | group _ _ inner _ _ => inner.leaves
  | comparison field _ value op quoted .. =>
    [.comparison field.text op.denoted (.denoted quoted value.text)]

/-- A comparison has one field. -/
theorem length_leaves (d : Derivation c) : d.leaves.length = d.tokens.countP Token.isField := by
  induction d with
  | chain first rest ihfirst ihrest => simp [leaves, tokens, ihfirst, ihrest]
  | last => rfl
  | more keyword hkeyword next rest ihnext ihrest =>
    simp [leaves, tokens, ihnext, ihrest, Token.isField, hkeyword]
  | group opening hopening inner closing hclosing ih =>
    simp [leaves, tokens, ih, Token.isField, hopening, hclosing]
  | comparison field operator value op quoted hfield hoperator hvalue =>
    simp [leaves, tokens, Token.isField, hfield, hoperator, hvalue]

/-- The meaning has the comparisons as its leaves, in their order. -/
theorem hasLeaves_meaning (d : Derivation c) : c.HasLeaves d.meaning d.leaves := by
  induction d with
  | chain first rest ihfirst ihrest =>
    show (rest.meaning first.meaning).leaves = first.leaves ++ rest.leaves
    rw [ihrest, ihfirst]
  | last => exact fun left => (List.append_nil _).symm
  | more keyword hkeyword next rest ihnext ihrest =>
    intro left
    show (rest.meaning (.logical _ left next.meaning)).leaves = _
    rw [ihrest, Predicate.leaves, ihnext, leaves, List.append_assoc]
  | group opening hopening inner closing hclosing ih => exact ih
  | comparison field operator value op quoted hfield hoperator hvalue => rfl

/-- A phrase denotes a predicate with its comparisons as leaves. -/
theorem leaves_meaning {loosest : Option Connective} (d : Derivation (.phrase loosest)) :
    Predicate.leaves d.meaning = d.leaves :=
  d.hasLeaves_meaning

/-- A connective is no field. -/
theorem countP_keyword {keyword : Token} (hkeyword : keyword.kind = .keyword k)
    (ts : List Token) : (keyword :: ts).countP Token.isField = ts.countP Token.isField :=
  List.countP_cons_of_neg (by simp [Token.isField, hkeyword])

/-- What is replaced in the first link of a chain is replaced in the chain. -/
theorem meaning_replaceLeaf (d : Derivation (.rest k)) {left : Predicate} {n : Nat}
    (h : n < left.leaves.length) (q : Predicate) :
    (d.meaning left).replaceLeaf n q = d.meaning (left.replaceLeaf n q) := by
  match d with
  | last => rfl
  | more keyword hkeyword next rest =>
    show (rest.meaning _).replaceLeaf n q = rest.meaning _
    have hlonger : n < (Predicate.logical k left next.meaning).leaves.length := by
      rw [Predicate.leaves, List.length_append]
      omega
    rw [rest.meaning_replaceLeaf hlonger, Predicate.replaceLeaf_left h]

/-! ## the place of a comparison -/

/-- Where a comparison stands in a derivation: the tokens before it, the leaf
that it denotes and the tokens behind it.  Any operand may stand there instead. -/
structure Site (d : Derivation c) (before : List Token) (leaf : Predicate)
    (after : List Token) : Prop where
  leads : c.Leads before
  leaf : d.leaves[before.countP Token.isField]? = some leaf
  replace : ∀ {us : List Token} {q : Predicate}, Derives .operand us q →
    Derives c (before ++ us ++ after)
      (c.replaceLeaf d.meaning (before.countP Token.isField) q)

namespace Site

variable {before after : List Token} {leaf : Predicate}

/-- The leaf is one of the meaning's. -/
theorem lt_length_leaves {loosest : Option Connective} {d : Derivation (.phrase loosest)}
    (h : Site d before leaf after) :
    before.countP Token.isField < (Predicate.leaves d.meaning).length := by
  rw [d.leaves_meaning]
  exact (List.getElem?_eq_some_iff.mp h.leaf).1

/-- A comparison of the first link. -/
theorem chain_first {first : Derivation (.phrase k.tighter)} {rest : Derivation (.rest k)}
    (h : Site first before leaf after) :
    Site (chain first rest) before leaf (after ++ rest.tokens) where
  leads := h.leads
  leaf := by
    rw [leaves, List.getElem?_append_left (List.getElem?_eq_some_iff.mp h.leaf).1, h.leaf]
  replace hq := by
    obtain ⟨first', htokens, hmeaning⟩ := h.replace hq
    refine ⟨chain first' rest, by simp [tokens, htokens], ?_⟩
    show rest.meaning first'.meaning = (rest.meaning first.meaning).replaceLeaf _ _
    rw [hmeaning, rest.meaning_replaceLeaf h.lt_length_leaves]
    rfl

/-- A comparison of another link. -/
theorem chain_rest {first : Derivation (.phrase k.tighter)} {rest : Derivation (.rest k)}
    (h : Site rest before leaf after) :
    Site (chain first rest) (first.tokens ++ before) leaf after where
  leads := h.leads.append _ _
  leaf := by
    rw [leaves, List.countP_append, ← first.length_leaves, List.getElem?_append_right (by omega),
      Nat.add_sub_cancel_left, h.leaf]
  replace hq := by
    obtain ⟨rest', htokens, hmeaning⟩ := h.replace hq
    refine ⟨chain first rest', by simp [tokens, htokens], ?_⟩
    show rest'.meaning first.meaning = (rest.meaning first.meaning).replaceLeaf _ _
    rw [hmeaning, List.countP_append, ← first.length_leaves, ← first.leaves_meaning]
    rfl

variable {keyword : Token} {hkeyword : keyword.kind = .keyword k}

/-- A comparison of the next link. -/
theorem more_next {next : Derivation (.phrase k.tighter)} {rest : Derivation (.rest k)}
    (h : Site next before leaf after) :
    Site (more keyword hkeyword next rest) (keyword :: before) leaf (after ++ rest.tokens) where
  leads := h.leads.cons (by rw [hkeyword]; rfl) k
  leaf := by
    rw [countP_keyword hkeyword, leaves,
      List.getElem?_append_left (List.getElem?_eq_some_iff.mp h.leaf).1, h.leaf]
  replace hq := by
    obtain ⟨next', htokens, hmeaning⟩ := h.replace hq
    refine ⟨more keyword hkeyword next' rest, by simp [tokens, htokens], ?_⟩
    funext left
    show rest.meaning (.logical k left next'.meaning) =
      (rest.meaning (.logical k left next.meaning)).replaceLeaf (_ + _) _
    rw [hmeaning, countP_keyword hkeyword, rest.meaning_replaceLeaf, Predicate.replaceLeaf_right]
    · rfl
    · rw [Predicate.leaves, List.length_append]
      exact Nat.add_lt_add_left h.lt_length_leaves _

/-- A comparison of a later link. -/
theorem more_rest {next : Derivation (.phrase k.tighter)} {rest : Derivation (.rest k)}
    (h : Site rest before leaf after) :
    Site (more keyword hkeyword next rest) (keyword :: (next.tokens ++ before)) leaf after where
  leads := h.leads.append _ (keyword :: next.tokens)
  leaf := by
    rw [countP_keyword hkeyword, leaves, List.countP_append, ← next.length_leaves,
      List.getElem?_append_right (by omega), Nat.add_sub_cancel_left, h.leaf]
  replace hq := by
    obtain ⟨rest', htokens, hmeaning⟩ := h.replace hq
    refine ⟨more keyword hkeyword next rest', by simp [tokens, htokens], ?_⟩
    funext left
    show rest'.meaning (.logical k left next.meaning) =
      (rest.meaning (.logical k left next.meaning)).replaceLeaf (_ + _) _
    have hleaves : (Predicate.logical k left next.meaning).leaves.length =
        left.leaves.length + next.leaves.length := by
      rw [Predicate.leaves, List.length_append, next.leaves_meaning]
    rw [hmeaning, countP_keyword hkeyword, List.countP_append, ← next.length_leaves,
      ← Nat.add_assoc, ← hleaves]
    rfl

/-- A comparison in a group. -/
theorem group {opening closing : Token} {hopening : opening.kind = .openGroup}
    {inner : Derivation .expression} {hclosing : closing.kind = .closeGroup}
    (h : Site inner before leaf after) :
    Site (group opening hopening inner closing hclosing) (opening :: before) leaf
      (after ++ [closing]) where
  leads := (h.leads.cons (by rw [hopening]; rfl) .or).append _ []
  leaf := by
    rw [List.countP_cons_of_neg (by simp [Token.isField, hopening]), leaves, h.leaf]
  replace hq := by
    obtain ⟨inner', htokens, hmeaning⟩ := h.replace hq
    refine ⟨.group opening hopening inner' closing hclosing, by simp [tokens, htokens], ?_⟩
    rw [List.countP_cons_of_neg (by simp [Token.isField, hopening])]
    exact hmeaning

/-- A comparison alone. -/
theorem comparison {field operator value : Token} {op : Operator} {quoted : Bool}
    {hfield : field.kind = .field} {hoperator : operator.kind = .operator op}
    {hvalue : value.kind = .literal quoted} :
    Site (comparison field operator value op quoted hfield hoperator hvalue) []
      (.comparison field.text op.denoted (.denoted quoted value.text)) [] where
  leads := fun _ h => by cases h
  leaf := rfl
  replace hq := by simpa [Category.replaceLeaf, meaning, Predicate.replaceLeaf] using hq

end Site

/-- Every field of a derivation starts a comparison, and has its place there. -/
theorem exists_site (d : Derivation c) {before rest : List Token} {field : Token}
    (hfield : field.kind = .field) (h : d.tokens = before ++ field :: rest) :
    ∃ operator value op quoted after, rest = operator :: value :: after ∧
      operator.kind = .operator op ∧ value.kind = .literal quoted ∧
      Site d before
        (.comparison field.text op.denoted (.denoted quoted value.text)) after := by
  induction d generalizing before rest with
  | chain first links ihfirst ihlinks =>
    obtain ⟨middle, hfirst, rfl⟩ | ⟨middle, rfl, hlinks⟩ := append_eq_append_cons h
    · obtain ⟨operator, value, op, quoted, after, rfl, hop, hvalue, hsite⟩ := ihfirst hfirst
      exact ⟨operator, value, op, quoted, _, rfl, hop, hvalue, hsite.chain_first⟩
    · obtain ⟨operator, value, op, quoted, after, rfl, hop, hvalue, hsite⟩ := ihlinks hlinks
      exact ⟨operator, value, op, quoted, _, rfl, hop, hvalue, hsite.chain_rest⟩
  | last => simp [tokens] at h
  | more keyword hkeyword next links ihnext ihlinks =>
    cases before with
    | nil =>
      obtain ⟨rfl, -⟩ := List.cons.inj h
      simp [hkeyword] at hfield
    | cons t before =>
      obtain ⟨rfl, htail⟩ := List.cons.inj h
      obtain ⟨middle, hnext, rfl⟩ | ⟨middle, rfl, hlinks⟩ := append_eq_append_cons htail
      · obtain ⟨operator, value, op, quoted, after, rfl, hop, hvalue, hsite⟩ := ihnext hnext
        exact ⟨operator, value, op, quoted, _, rfl, hop, hvalue, hsite.more_next⟩
      · obtain ⟨operator, value, op, quoted, after, rfl, hop, hvalue, hsite⟩ := ihlinks hlinks
        exact ⟨operator, value, op, quoted, _, rfl, hop, hvalue, hsite.more_rest⟩
  | group opening hopening inner closing hclosing ih =>
    cases before with
    | nil =>
      obtain ⟨rfl, -⟩ := List.cons.inj h
      simp [hopening] at hfield
    | cons t before =>
      obtain ⟨rfl, htail⟩ := List.cons.inj h
      obtain ⟨middle, hinner, rfl⟩ | ⟨middle, rfl, hlast⟩ := append_eq_append_cons htail
      · obtain ⟨operator, value, op, quoted, after, rfl, hop, hvalue, hsite⟩ := ih hinner
        exact ⟨operator, value, op, quoted, _, rfl, hop, hvalue, hsite.group⟩
      · obtain ⟨rfl, rfl, -⟩ : middle = [] ∧ closing = field ∧ [] = rest := by
          cases middle <;> simp_all
        simp [hclosing] at hfield
  | comparison first operator value op quoted hfirst hoperator hvalue =>
    obtain _ | ⟨_, _ | ⟨_, _ | ⟨_, before⟩⟩⟩ := before
    · cases h
      exact ⟨operator, value, op, quoted, [], rfl, hoperator, hvalue, .comparison⟩
    · cases h
      simp [hoperator] at hfield
    · cases h
      simp [hvalue] at hfield
    · simp [tokens] at h

end Derivation

end FilterQuery
