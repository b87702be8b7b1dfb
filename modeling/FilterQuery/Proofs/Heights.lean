import FilterQuery.Proofs.Recognition
import FilterQuery.Proofs.Refusals

/-!
# FilterQuery.Proofs.Heights

At which connective a predicate becomes too high.  The reader joins operands as soon as
it can, and these moments follow the predicate from its leaves up: a connective is joined
behind everything in its left operand and in its right one, whatever groups there are.

* `Located` — a predicate that knows the keyword of each connective, and its connectives
  in the order in which they are joined (`Located.junctions`);
* `Located.built_eq` — built in this order, the predicate fails at the first connective
  that is too high;
* `Derivation.builds` — the reader builds a derivation in this order;
* `Policy.parse_tooHigh` — so the limit on heights is exact.
-/

namespace FilterQuery

/-! ## connectives and their keywords -/

/-- A predicate together with the keyword of each connective. -/
inductive Located where
  | comparison (field : String) (relation : Relation) (value : Literal)
  | logical (connective : Connective) (keyword : Token)
      (hkeyword : keyword.kind = .keyword connective) (left right : Located)

/-- A connective of a query with its keyword and its operands. -/
structure Junction where
  connective : Connective
  keyword : Token
  left : Predicate
  right : Predicate

/-- What the connective makes of its operands. -/
def Junction.predicate (j : Junction) : Predicate := .logical j.connective j.left j.right

namespace Located

/-- The predicate alone. -/
def predicate : Located → Predicate
  | comparison field relation value => .comparison field relation value
  | logical connective _ _ left right => .logical connective left.predicate right.predicate

/-- The keywords from left to right, each between those of its operands. -/
def keywords : Located → List Token
  | comparison .. => []
  | logical _ keyword _ left right => left.keywords ++ keyword :: right.keywords

/-- The connectives, each behind those of its left operand and those of its right one. -/
def junctions : Located → List Junction
  | comparison .. => []
  | logical connective keyword _ left right => left.junctions ++ right.junctions ++
      [⟨connective, keyword, left.predicate, right.predicate⟩]

/-- A predicate has a keyword for each connective. -/
theorem length_keywords_congr {d e : Located} (h : d.predicate = e.predicate) :
    d.keywords.length = e.keywords.length := by
  induction d generalizing e with
  | comparison field relation value =>
    cases e with
    | comparison => rfl
    | logical => cases h
  | logical connective keyword hkeyword left right ihleft ihright =>
    cases e with
    | comparison => cases h
    | logical connective' keyword' hkeyword' left' right' =>
      obtain ⟨-, hleft, hright⟩ := Predicate.logical.inj h
      simp [keywords, ihleft hleft, ihright hright]

/-- So which keyword is whose is known from their order. -/
theorem eq_of_keywords_eq {d e : Located} (h : d.predicate = e.predicate)
    (hkeywords : d.keywords = e.keywords) : d = e := by
  induction d generalizing e with
  | comparison field relation value =>
    cases e with
    | comparison => simpa [predicate] using h
    | logical => cases h
  | logical connective keyword hkeyword left right ihleft ihright =>
    cases e with
    | comparison => cases h
    | logical connective' keyword' hkeyword' left' right' =>
      obtain ⟨rfl, hleft, hright⟩ := Predicate.logical.inj h
      obtain ⟨hl, hrest⟩ := List.append_inj hkeywords (length_keywords_congr hleft)
      obtain ⟨rfl, hr⟩ := List.cons.inj hrest
      rw [ihleft hleft hl, ihright hright hr]

/-! ### building -/

open Parse

/-- The operand that the reader makes of a predicate, joining operands from the leaves
up. -/
def built (policy : Policy) : Located → Except ParseError Operand
  | comparison field relation value => .ok ⟨.comparison field relation value, 1⟩
  | logical connective keyword _ left right =>
    (left.built policy).bind fun l => (right.built policy).bind fun r =>
      join policy connective ⟨l, keyword.position⟩ r

variable {policy : Policy} {limit : Nat}

/-- Is the connective higher than the limit? -/
def tooHigh (limit : Nat) (j : Junction) : Bool := limit < j.predicate.height

/-- A predicate is built, with its height, unless a connective is too high; the first of
these is reported. -/
theorem built_eq (hlimit : policy.maxHeight = some limit) (d : Located) :
    d.built policy = match d.junctions.find? (tooHigh limit) with
      | none => .ok ⟨d.predicate, d.predicate.height⟩
      | some j => .error (.tooHigh j.keyword.position limit) := by
  induction d with
  | comparison field relation value => rfl
  | logical connective keyword hkeyword left right ihleft ihright =>
    rw [built, ihleft, ihright, junctions, List.find?_append, List.find?_append]
    cases left.junctions.find? (tooHigh limit) with
    | some j => rfl
    | none =>
      cases right.junctions.find? (tooHigh limit) with
      | some j => rfl
      | none =>
        simp only [Except.bind, join, hlimit, Policy.exceeded?, Option.filter, tooHigh,
          Junction.predicate, Predicate.height, predicate, Option.none_or, List.find?_cons,
          List.find?_nil]
        by_cases hhigh : limit < max left.predicate.height right.predicate.height + 1
        · simp [hhigh]
        · simp [hhigh]

/-- Connectives are at most as high as the predicate. -/
theorem height_le_of_mem_junctions {d : Located} {j : Junction} (h : j ∈ d.junctions) :
    j.predicate.height ≤ d.predicate.height := by
  induction d with
  | comparison field relation value => simp [junctions] at h
  | logical connective keyword hkeyword left right ihleft ihright =>
    simp only [junctions, List.mem_append, List.mem_singleton] at h
    simp only [predicate, Predicate.height]
    obtain (h | h) | rfl := h
    · have := ihleft h
      omega
    · have := ihright h
      omega
    · exact Nat.le_refl _

/-- A predicate none of whose connectives is too high is not too high itself; a comparison
never is. -/
theorem height_le {d : Located} (h : ∀ j ∈ d.junctions, j.predicate.height ≤ limit) :
    d.predicate.height ≤ max limit 1 := by
  cases d with
  | comparison field relation value => exact Nat.le_max_right limit 1
  | logical connective keyword hkeyword left right =>
    have hroot := h ⟨connective, keyword, left.predicate, right.predicate⟩ (by simp [junctions])
    exact Nat.le_trans hroot (Nat.le_max_left limit 1)

/-- The operands of a connective are not too high if nothing before it is. -/
theorem height_operands_le {d : Located} {before after : List Junction} {j : Junction}
    (hj : d.junctions = before ++ j :: after)
    (hbefore : ∀ i ∈ before, i.predicate.height ≤ limit) :
    j.left.height ≤ max limit 1 ∧ j.right.height ≤ max limit 1 := by
  induction d generalizing before after with
  | comparison field relation value => simp [junctions] at hj
  | logical connective keyword hkeyword left right ihleft ihright =>
    obtain ⟨middle, hoperands, -⟩ | ⟨middle, rfl, hroot⟩ := append_eq_append_cons hj
    · obtain ⟨middle, hleft, -⟩ | ⟨middle, rfl, hright⟩ := append_eq_append_cons hoperands
      · exact ihleft hleft hbefore
      · exact ihright hright fun i hi => hbefore i (List.mem_append_right _ hi)
    · -- The root comes behind all connectives of its operands.
      obtain rfl : middle = [] := by cases middle <;> simp_all
      obtain ⟨rfl, -⟩ := List.cons.inj hroot
      rw [List.append_nil] at hbefore
      exact ⟨height_le fun i hi => hbefore i (List.mem_append_left _ hi),
        height_le fun i hi => hbefore i (List.mem_append_right _ hi)⟩

/-- The first connective that is higher than the limit. -/
def FirstTooHigh (d : Located) (limit : Nat) (j : Junction) : Prop :=
  ∃ before after, d.junctions = before ++ j :: after ∧
    (∀ i ∈ before, i.predicate.height ≤ limit) ∧ limit < j.predicate.height

namespace FirstTooHigh

variable {d : Located} {j : Junction}

/-- It is the one that a search finds. -/
theorem of_find? (h : d.junctions.find? (tooHigh limit) = some j) : d.FirstTooHigh limit j := by
  obtain ⟨hhigh, before, after, hj, hbefore⟩ := List.find?_eq_some_iff_append.mp h
  refine ⟨before, after, hj, fun i hi => ?_, by simpa [tooHigh] using hhigh⟩
  simpa [tooHigh] using hbefore i hi

/-- Its operands are not too high. -/
theorem operands_le (h : d.FirstTooHigh limit j) :
    j.left.height ≤ max limit 1 ∧ j.right.height ≤ max limit 1 := by
  obtain ⟨before, after, hj, hbefore, -⟩ := h
  exact height_operands_le hj hbefore

/-- So it is too high by one. -/
theorem height_eq (h : d.FirstTooHigh limit j) : j.predicate.height = max limit 1 + 1 := by
  obtain ⟨hleft, hright⟩ := h.operands_le
  obtain ⟨before, after, -, -, hhigh⟩ := h
  have hpos := j.left.height_pos
  simp only [Junction.predicate, Predicate.height] at hhigh ⊢
  omega

/-- And the predicate is too high. -/
theorem lt_height (h : d.FirstTooHigh limit j) : max limit 1 < d.predicate.height := by
  have hheight := h.height_eq
  obtain ⟨before, after, hj, -, -⟩ := h
  have hle : j.predicate.height ≤ d.predicate.height :=
    height_le_of_mem_junctions (by simp [hj])
  omega

end FirstTooHigh

end Located

/-! ## connectives of a derivation -/

variable {c : Category} {k : Connective}

/-- Is the token a connective? -/
def Token.isKeyword (t : Token) : Bool :=
  match t.kind with
  | .keyword _ => true
  | _ => false

/-- The meaning of a piece, with the keywords. -/
abbrev Category.LocatedMeaning : Category → Type
  | .phrase _ => Located
  | .rest _ => Located → Located

/-- The meaning with the keywords has the meaning as its predicate. -/
def Category.Locates : (c : Category) → c.LocatedMeaning → c.Meaning → Prop
  | .phrase _, located, p => located.predicate = p
  | .rest _, locate, meaning => ∀ left, (locate left).predicate = meaning left.predicate

/-- The keywords of the meaning, without those of what stands to the left. -/
def Category.HasKeywords : (c : Category) → c.LocatedMeaning → List Token → Prop
  | .phrase _, located, ts => located.keywords = ts
  | .rest _, locate, ts => ∀ left, (locate left).keywords = left.keywords ++ ts

namespace Derivation

/-- The predicate that a derivation denotes, with its keywords. -/
def located {c : Category} : Derivation c → c.LocatedMeaning
  | chain first rest => rest.located first.located
  | last => fun left => left
  | @more k keyword hkeyword next rest => fun left =>
    rest.located (.logical k keyword hkeyword left next.located)
  | group _ _ inner _ _ => inner.located
  | comparison field _ value op quoted .. =>
    .comparison field.text op.denoted (.denoted quoted value.text)

/-- Keywords do not change what is denoted. -/
theorem locates_meaning (d : Derivation c) : c.Locates d.located d.meaning := by
  induction d with
  | chain first rest ihfirst ihrest =>
    show (rest.located first.located).predicate = rest.meaning first.meaning
    rw [ihrest, ihfirst]
  | last => exact fun left => rfl
  | more keyword hkeyword next rest ihnext ihrest =>
    intro left
    show (rest.located _).predicate = rest.meaning _
    rw [ihrest, Located.predicate, ihnext]
  | group opening hopening inner closing hclosing ih => exact ih
  | comparison field operator value op quoted hfield hoperator hvalue => rfl

/-- The keywords are those of the tokens, in their order. -/
theorem hasKeywords_located (d : Derivation c) :
    c.HasKeywords d.located (d.tokens.filter Token.isKeyword) := by
  induction d with
  | chain first rest ihfirst ihrest =>
    show (rest.located first.located).keywords = _
    rw [ihrest, ihfirst, tokens, List.filter_append]
  | last => exact fun left => (List.append_nil _).symm
  | more keyword hkeyword next rest ihnext ihrest =>
    intro left
    show (rest.located _).keywords = _
    rw [ihrest, Located.keywords, ihnext, tokens, List.filter_cons_of_pos, List.filter_append]
    · simp
    · simp [Token.isKeyword, hkeyword]
  | group opening hopening inner closing hclosing ih =>
    show inner.located.keywords = _
    rw [ih]
    simp [tokens, Token.isKeyword, hopening, hclosing]
  | comparison field operator value op quoted hfield hoperator hvalue =>
    show [] = _
    simp [tokens, Token.isKeyword, hfield, hoperator, hvalue]

end Derivation

/-! ## the reader -/

namespace Parse

variable {policy : Policy}

/-- What comes behind an expression first has the `OR` joined that still waits in it, and
then uses the result alone.  This is so at the end of a group and at that of the query. -/
def Ends (policy : Policy) (outer : List Level) {α : Type}
    (resume : State → Except ParseError α) (use : Operand → Except ParseError α) : Prop :=
  ∀ disjunction o, resume ⟨outer, ⟨disjunction, none⟩, .connective o⟩ =
    (joinPending policy .or disjunction o).bind use

/-- The tokens are read as the predicate is built, wherever the category may start.  An
`OR` is joined behind the last conjunction only when the next token is read, so for
expressions that comes from the rest of the query. -/
def Builds (policy : Policy) : (c : Category) → List Token → c.LocatedMeaning → Prop
  | .phrase none, ts, located => ∀ outer level,
      State.run policy ⟨outer, level, .operand⟩ ts =
        (located.built policy).bind (State.complete policy ⟨outer, level, .operand⟩)
  | .phrase (some .and), ts, located => ∀ outer disjunction,
      State.run policy ⟨outer, ⟨disjunction, none⟩, .operand⟩ ts =
        (located.built policy).map fun o => ⟨outer, ⟨disjunction, none⟩, .connective o⟩
  | .rest .and, ts, locate => ∀ outer disjunction left o, left.built policy = .ok o →
      State.run policy ⟨outer, ⟨disjunction, none⟩, .connective o⟩ ts =
        ((locate left).built policy).map fun o => ⟨outer, ⟨disjunction, none⟩, .connective o⟩
  | .phrase (some .or), ts, located => ∀ outer {α : Type}
      {resume : State → Except ParseError α} {use : Operand → Except ParseError α},
      Ends policy outer resume use →
        (State.run policy ⟨outer, .empty, .operand⟩ ts).bind resume =
          (located.built policy).bind use
  | .rest .or, ts, locate => ∀ outer disjunction left o,
      joinPending policy .or disjunction o = left.built policy → ∀ {α : Type}
      {resume : State → Except ParseError α} {use : Operand → Except ParseError α},
      Ends policy outer resume use →
        (State.run policy ⟨outer, ⟨disjunction, none⟩, .connective o⟩ ts).bind resume =
          ((locate left).built policy).bind use

/-- A chain whose first part cannot be built cannot be built. -/
theorem built_rest_of_error {left : Located} {e : ParseError} (h : left.built policy = .error e)
    (d : Derivation (.rest k)) : (d.located left).built policy = .error e := by
  match d with
  | .last => exact h
  | .more keyword hkeyword next rest =>
    have hnext : (Located.logical k keyword hkeyword left next.located).built policy =
        .error e := by
      rw [Located.built, h]
      rfl
    exact built_rest_of_error hnext rest

namespace Builds

/-- A chain is read link by link. -/
theorem chain {first : Derivation (.phrase k.tighter)} {rest : Derivation (.rest k)}
    (hfirst : Builds policy _ first.tokens first.located)
    (hrest : Builds policy _ rest.tokens rest.located) :
    Builds policy (.phrase (some k)) (first.tokens ++ rest.tokens)
      (rest.located first.located) := by
  cases k with
  | or =>
    intro outer α resume use hends
    rw [State.run_append, Level.empty, hfirst outer none]
    cases hbuilt : first.located.built policy with
    | error e =>
      rw [built_rest_of_error hbuilt]
      rfl
    | ok o => exact hrest outer none first.located o hbuilt.symm hends
  | and =>
    intro outer disjunction
    rw [State.run_append, hfirst outer ⟨disjunction, none⟩]
    cases hbuilt : first.located.built policy with
    | error e =>
      rw [built_rest_of_error hbuilt]
      rfl
    | ok o => exact hrest outer disjunction first.located o hbuilt

/-- Where a chain ends nothing is read. -/
theorem last : Builds policy (.rest k) [] fun left => left := by
  cases k with
  | or =>
    intro outer disjunction left o hleft α resume use hends
    show resume _ = (left.built policy).bind use
    rw [hends, hleft]
  | and =>
    intro outer disjunction left o hleft
    show Except.ok _ = (left.built policy).map _
    rw [hleft]
    rfl

variable {keyword : Token}

/-- A connective is joined behind its right operand, that of a disjunction when the next
token is read. -/
theorem more {hkeyword : keyword.kind = .keyword k} {next : Derivation (.phrase k.tighter)}
    {rest : Derivation (.rest k)} (hnext : Builds policy _ next.tokens next.located)
    (hrest : Builds policy _ rest.tokens rest.located) :
    Builds policy (.rest k) (keyword :: (next.tokens ++ rest.tokens))
      fun left => rest.located (.logical k keyword hkeyword left next.located) := by
  cases k with
  | or =>
    intro outer disjunction left o hdisjunction α resume use hends
    cases hleft : left.built policy with
    | error e =>
      -- Here the disjunction so far is joined, and is too high.
      rw [hleft] at hdisjunction
      rw [built_rest_of_error (by rw [Located.built, hleft]; rfl), State.run_cons]
      simp [State.next, hkeyword, State.expression, hdisjunction, Except.bind]
    | ok l =>
      rw [State.run_cons_of_step (.or hkeyword (hdisjunction.trans hleft)), State.run_append,
        hnext outer]
      cases hright : next.located.built policy with
      | error e =>
        rw [built_rest_of_error (by rw [Located.built, hleft, hright]; rfl)]
        rfl
      | ok r =>
        exact hrest outer (some ⟨l, keyword.position⟩) _ r
          (by rw [Located.built, hleft, hright]; rfl) hends
  | and =>
    intro outer disjunction left l hleft
    rw [State.run_cons_of_step (.and hkeyword), State.run_append, hnext outer]
    cases hright : next.located.built policy with
    | error e =>
      rw [built_rest_of_error (by rw [Located.built, hleft, hright]; rfl)]
      rfl
    | ok r =>
      have hbuilt : (Located.logical .and keyword hkeyword left next.located).built policy =
          joinPending policy .and (some ⟨l, keyword.position⟩) r := by
        rw [Located.built, hleft, hright]
        rfl
      show ((joinPending policy .and (some ⟨l, keyword.position⟩) r).map _).bind _ = _
      cases hand : joinPending policy .and (some ⟨l, keyword.position⟩) r with
      | error e =>
        rw [built_rest_of_error (hbuilt.trans hand)]
        rfl
      | ok conjunction => exact hrest outer disjunction _ conjunction (hbuilt.trans hand)

/-- The end of a group ends the expression in it. -/
theorem group (hdepth : policy.maxDepth = none) {opening closing : Token}
    (hopening : opening.kind = .openGroup) (hclosing : closing.kind = .closeGroup)
    {inner : Derivation .expression} (hinner : Builds policy _ inner.tokens inner.located) :
    Builds policy .operand (opening :: (inner.tokens ++ [closing])) inner.located := by
  intro outer level
  have hopen : Step policy ⟨outer, level, .operand⟩ opening _ :=
    .openGroup hopening (by rw [hdepth]; rfl)
  have hends : Ends policy (level :: outer) (fun s => s.run policy [closing])
      (State.complete policy ⟨outer, level, .operand⟩) := by
    intro disjunction o
    refine State.run_singleton.trans ?_
    rw [State.next, hclosing]
    cases hor : joinPending policy .or disjunction o with
    | error e => simp [State.expression, hor, Except.bind]
    | ok expression => simp [State.expression, hor, Except.bind]
  rw [State.run_cons_of_step hopen, State.run_append]
  exact hinner (level :: outer) hends

/-- A comparison is complete when its value is read. -/
theorem comparison (hallowed : policy.allowed = none) {field operator value : Token}
    {op : Operator} {quoted : Bool} (hfield : field.kind = .field)
    (hoperator : operator.kind = .operator op) (hvalue : value.kind = .literal quoted) :
    Builds policy .operand [field, operator, value]
      (.comparison field.text op.denoted (.denoted quoted value.text)) := by
  intro outer level
  rw [Operator.denoted_eq, Literal.denoted_eq]
  have hallows : policy.allows field.text = true := by rw [Policy.allows, hallowed]
  rw [State.run_cons_of_step (.field hfield), State.run_cons_of_step (.operator hoperator),
    State.run_singleton, State.next, hvalue]
  simp only [hallows, if_true]
  rfl

end Builds

/-- A derivation is read as its predicate is built, if nothing but heights is limited. -/
theorem builds_of_derivation (hallowed : policy.allowed = none) (hdepth : policy.maxDepth = none)
    (d : Derivation c) : Builds policy c d.tokens d.located := by
  induction d with
  | chain first rest ihfirst ihrest => exact ihfirst.chain ihrest
  | last => exact .last
  | more keyword hkeyword next rest ihnext ihrest => exact ihnext.more ihrest
  | group opening hopening inner closing hclosing ih =>
    exact ih.group hdepth hopening hclosing
  | comparison field operator value op quoted hfield hoperator hvalue =>
    exact .comparison hallowed hfield hoperator hvalue

/-- A token stream with a derivation is parsed as its predicate is built. -/
theorem parseTokens_eq_built (hallowed : policy.allowed = none) (hdepth : policy.maxDepth = none)
    {stream : TokenStream} {d : Derivation .expression} (h : d.tokens = stream.tokens) :
    policy.parseTokens stream = (d.located.built policy).map Operand.tree := by
  have hends : Ends policy [] (fun s => s.finish policy stream.size) fun o => .ok o.tree := by
    intro disjunction o
    cases hor : joinPending policy .or disjunction o with
    | error e => simp [State.finish, State.expression, hor, Except.bind]
    | ok expression => simp [State.finish, State.expression, hor, Except.bind]
  have hbuilds := builds_of_derivation hallowed hdepth d [] hends
  rw [h] at hbuilds
  rw [parseTokens_eq_bind]
  refine hbuilds.trans ?_
  cases Located.built policy d.located <;> rfl

end Parse

/-! ## queries -/

/-- The predicate with the keywords of the token stream, in their order. -/
structure Located.Of (stream : TokenStream) (p : Predicate) (located : Located) : Prop where
  predicate : located.predicate = p
  keywords : located.keywords = stream.tokens.filter Token.isKeyword

/-- A predicate that is not too high is accepted, and every other one has a first
connective that is too high, and is refused for it. -/
theorem Parse.parseTokens_height_cases {stream : TokenStream} {p : Predicate}
    (h : Policy.unrestricted.parseTokens stream = .ok p) (limit : Nat) :
    let policy : Policy := { Policy.unrestricted with maxHeight := some limit }
    (p.height ≤ max limit 1 ∧ policy.parseTokens stream = .ok p) ∨
      (max limit 1 < p.height ∧ ∃ located j, Located.Of stream p located ∧
        located.FirstTooHigh limit j ∧
        policy.parseTokens stream = .error (.tooHigh j.keyword.position limit)) := by
  intro policy
  obtain ⟨d, htokens, rfl⟩ := derives_of_parseTokens h
  have hof : Located.Of stream d.meaning d.located :=
    ⟨d.locates_meaning, htokens ▸ d.hasKeywords_located⟩
  have hparse : policy.parseTokens stream = _ := parseTokens_eq_built rfl rfl htokens
  have hlimit : policy.maxHeight = some limit := rfl
  rw [Located.built_eq hlimit, hof.predicate] at hparse
  cases hfind : d.located.junctions.find? (Located.tooHigh limit) with
  | none =>
    have hall : ∀ j ∈ d.located.junctions, j.predicate.height ≤ limit := by
      simpa [Located.tooHigh] using hfind
    rw [hfind] at hparse
    exact .inl ⟨hof.predicate ▸ Located.height_le hall, hparse⟩
  | some j =>
    have hfirst := Located.FirstTooHigh.of_find? hfind
    rw [hfind] at hparse
    exact .inr ⟨hof.predicate ▸ hfirst.lt_height, d.located, j, hof, hfirst, hparse⟩

/-- A limit on the height alone has no effect, or something is too high. -/
theorem Parse.parseTokens_height_same (stream : TokenStream) (limit : Nat) :
    let policy : Policy := { Policy.unrestricted with maxHeight := some limit }
    policy.parseTokens stream = Policy.unrestricted.parseTokens stream ∨
      ∃ position, policy.parseTokens stream = .error (.tooHigh position limit) := by
  intro policy
  obtain hsame | ⟨e, herror, hhigh | ⟨before, t, after, s, -, -, hrefuses⟩⟩ :=
    parseTokens_same policy stream
  · exact .inl hsame
  · obtain ⟨position, limit', hlimit, rfl⟩ := hhigh
    obtain rfl : limit = limit' := Option.some.inj hlimit
    exact .inr ⟨position, herror⟩
  · cases hrefuses with
    | tooDeep ht hdepth => cases hdepth
    | fieldNotAllowed ht hname => cases hname

/-- **The height of predicates is limited exactly**: a query is accepted as before if its
predicate is not too high, and otherwise refused at the keyword of the first connective
that is, in the order in which operands come before their connective; which keyword is
whose is known from their order alone.  The operands of that connective are not too high,
so it is by one.  Whatever the query, the limit has no effect or something is too high;
and all heights that are kept are those of the trees. -/
theorem Policy.parse_tooHigh (source : String) (limit : Nat) :
    let policy : Policy := { Policy.unrestricted with maxHeight := some limit }
    (∀ p, Policy.unrestricted.parse source = .ok p →
      (p.height ≤ max limit 1 → policy.parse source = .ok p) ∧
        (max limit 1 < p.height → ∃ stream located j,
          TokenStream.scan source = .ok stream ∧ Located.Of stream p located ∧
            (∀ other, Located.Of stream p other → other = located) ∧
            located.FirstTooHigh limit j ∧
            j.left.height ≤ max limit 1 ∧ j.right.height ≤ max limit 1 ∧
            j.predicate.height = max limit 1 + 1 ∧
            policy.parse source = .error (.tooHigh j.keyword.position limit))) ∧
      (policy.parse source = Policy.unrestricted.parse source ∨
        ∃ position, policy.parse source = .error (.tooHigh position limit)) ∧
      ∀ (policy : Policy) (ts : List Token) (s : Parse.State),
        Parse.State.start.run policy ts = .ok s → s.All Parse.Operand.Exact ∧
          ∀ conjunction o, s.phase = .connective conjunction →
            s.expression policy conjunction = .ok o → o.Exact := by
  intro policy
  refine ⟨fun p hp => ?_, ?_, fun policy ts s hrun => ?_⟩
  · obtain ⟨stream, hscan, hparse⟩ := Parse.parse_eq_ok_iff.mp hp
    rw [Parse.parse_of_scan hscan]
    obtain ⟨hle, hok⟩ | ⟨hlt, located, j, hof, hfirst, herror⟩ :=
      Parse.parseTokens_height_cases hparse limit
    · exact ⟨fun _ => hok, fun hlt => absurd hle (Nat.not_le_of_lt hlt)⟩
    · refine ⟨fun hle => absurd hle (Nat.not_le_of_lt hlt), fun _ => ?_⟩
      obtain ⟨hleft, hright⟩ := hfirst.operands_le
      refine ⟨stream, located, j, hscan, hof, fun other hother => ?_, hfirst, hleft, hright,
        hfirst.height_eq, herror⟩
      exact Located.eq_of_keywords_eq (hother.predicate.trans hof.predicate.symm)
        (hother.keywords.trans hof.keywords.symm)
  · rw [Policy.parse, Policy.parse]
    cases TokenStream.scan source with
    | error e => exact .inl rfl
    | ok stream => exact Parse.parseTokens_height_same stream limit
  · have hexact := Parse.run_exact hrun (Parse.State.all_start _)
    refine ⟨hexact, fun conjunction o hphase hor => ?_⟩
    obtain ⟨rfl, -⟩ := Parse.joinPending_eq_ok_iff.mp hor
    obtain ⟨-, ⟨hd, -⟩, hlast⟩ := hexact
    rw [hphase] at hlast
    exact Parse.Operand.Exact.joined hd hlast

/-- The connective that is too high is neither the first one of the query nor its root. -/
theorem Policy.parse_tooHigh_nested :
    let source := "a:1 or (b:2 and (c:3 or d:4))"
    let comparison (field : String) (n : Int64) : Located :=
      .comparison field .equal (.number (.integer n))
    let located : Located :=
      .logical .or ⟨.keyword .or, "or", 4⟩ rfl (comparison "a" 1)
        (.logical .and ⟨.keyword .and, "and", 12⟩ rfl (comparison "b" 2)
          (.logical .or ⟨.keyword .or, "or", 21⟩ rfl (comparison "c" 3) (comparison "d" 4)))
    let policy : Policy := { Policy.unrestricted with maxHeight := some 2 }
    Policy.unrestricted.parse source = .ok located.predicate ∧
      max 2 1 < located.predicate.height ∧
        ∃ j, located.FirstTooHigh 2 j ∧
          policy.parse source = .error (.tooHigh j.keyword.position 2) := by
  intro source comparison located policy
  have hparse : Policy.unrestricted.parse source = .ok located.predicate :=
    eq_ok_of_toOption (by decide +kernel)
  have hheight : max 2 1 < located.predicate.height := by decide
  obtain ⟨stream, other, j, hscan, -, hunique, hfirst, -, -, -, herror⟩ :=
    ((Policy.parse_tooHigh source 2).1 _ hparse).2 hheight
  have hkeywords : located.keywords = stream.tokens.filter Token.isKeyword := by
    have hall : (TokenStream.scan source).toOption.map
        (fun stream => stream.tokens.filter Token.isKeyword) = some located.keywords := by
      decide +kernel
    rw [hscan] at hall
    exact (Option.some.inj hall).symm
  obtain rfl : located = other := hunique located ⟨rfl, hkeywords⟩
  exact ⟨hparse, hheight, j, hfirst, herror⟩

end FilterQuery
