import FilterQuery.Proofs.Grammar
import FilterQuery.Proofs.Scanning
import FilterQuery.Proofs.Step

/-!
# FilterQuery.Proofs.Recognition

The reader accepts exactly what the grammar derives, and makes of it what the
derivation denotes.

* Soundness: a state stands for the tokens that led to it (`State.Covers`).
  Each step adds its token (`Step.covers`), and where a query may end those
  tokens are an expression (`derives_of_finish`).
* Completeness: the tokens of a derivation are read to its end from every state
  in which its category may start (`accepted_of_derives`).
* Without restrictions whatever stops the reader is a syntax error
  (`State.next_unrestricted_eq_error`, `State.finish_unrestricted_eq_error`).
-/

namespace FilterQuery.Parse

/-! ## soundness -/

/-- The tokens that were read for a connective that waits: its left operand and
its keyword. -/
inductive Waits (k : Connective) : Option Pending → List Token → Prop
  | nothing : Waits k none []
  | operand {operand : Operand} {ts : List Token} {keyword : Token}
      (hoperand : Derives (.phrase (some k)) ts operand.tree)
      (hkeyword : keyword.kind = .keyword k) :
      Waits k (some ⟨operand, keyword.position⟩) (ts ++ [keyword])

/-- A link behind what waits prolongs the chain. -/
theorem Waits.joined {k : Connective} {left : Option Pending} {right : Operand}
    {ts us : List Token} (hleft : Waits k left ts)
    (hright : Derives (.phrase k.tighter) us right.tree) :
    Derives (.phrase (some k)) (ts ++ us) (joined k left right).tree := by
  cases hleft with
  | nothing => exact hright.single
  | operand hoperand hkeyword => simpa [Parse.joined] using hoperand.snoc hkeyword hright

/-- The tokens that were read in a group since it was opened, those of the last
operand excepted. -/
inductive Level.Covers : Level → List Token → Prop
  | mk {disjunction conjunction : Option Pending} {ts us : List Token}
      (hor : Waits .or disjunction ts) (hand : Waits .and conjunction us) :
      Covers ⟨disjunction, conjunction⟩ (ts ++ us)

theorem Level.covers_empty : Level.empty.Covers [] :=
  .mk .nothing .nothing

/-- The tokens that were read up to the last open parenthesis. -/
inductive OuterCovers : List Level → List Token → Prop
  | nil : OuterCovers [] []
  | cons {outer : List Level} {level : Level} {ts us : List Token} {opening : Token}
      (houter : OuterCovers outer ts) (hlevel : level.Covers us)
      (hopening : opening.kind = .openGroup) :
      OuterCovers (level :: outer) (ts ++ us ++ [opening])

/-- The tokens that were read to reach a state. -/
inductive State.Covers : State → List Token → Prop
  | operand {outer : List Level} {level : Level} {ts us : List Token}
      (houter : OuterCovers outer ts) (hlevel : level.Covers us) :
      Covers ⟨outer, level, .operand⟩ (ts ++ us)
  | field {outer : List Level} {level : Level} {ts us : List Token} {field : Token}
      (houter : OuterCovers outer ts) (hlevel : level.Covers us) (hfield : field.kind = .field) :
      Covers ⟨outer, level, .field field.text⟩ (ts ++ us ++ [field])
  | comparison {outer : List Level} {level : Level} {ts us : List Token}
      {field operator : Token} {op : Operator}
      (houter : OuterCovers outer ts) (hlevel : level.Covers us) (hfield : field.kind = .field)
      (hoperator : operator.kind = .operator op) :
      Covers ⟨outer, level, .comparison field.text op.relation⟩ (ts ++ us ++ [field, operator])
  | connective {outer : List Level} {disjunction : Option Pending} {conjunction : Operand}
      {ts us vs : List Token}
      (houter : OuterCovers outer ts) (hor : Waits .or disjunction us)
      (hconjunction : Derives .conjunction vs conjunction.tree) :
      Covers ⟨outer, ⟨disjunction, none⟩, .connective conjunction⟩ (ts ++ us ++ vs)

/-- Nothing was read at the start. -/
theorem State.covers_start : State.start.Covers [] :=
  .operand .nil Level.covers_empty

variable {policy : Policy} {s s' : State} {t : Token} {ts us : List Token}

/-- A step adds its token. -/
theorem Step.covers (h : Step policy s t s') (hs : s.Covers ts) : s'.Covers (ts ++ [t]) := by
  cases h with
  | openGroup ht hdepth =>
    cases hs with
    | operand houter hlevel =>
      simpa using State.Covers.operand (.cons houter hlevel ht) Level.covers_empty
  | field ht =>
    cases hs with
    | operand houter hlevel => exact .field houter hlevel ht
  | operator ht =>
    cases hs with
    | field houter hlevel hfield => simpa using State.Covers.comparison houter hlevel hfield ht
  | value ht hallowed hand =>
    obtain ⟨rfl, -⟩ := joinPending_eq_ok_iff.mp hand
    cases hs with
    | comparison houter hlevel hfield hoperator =>
      obtain ⟨hor, hand'⟩ := hlevel
      have hcomparison := Derives.comparison hfield hoperator ht
      rw [Operator.denoted_eq, Literal.denoted_eq] at hcomparison
      have hoperand := @Waits.joined .and _ ⟨_, 1⟩ _ _ hand' hcomparison
      simpa using State.Covers.connective houter hor hoperand
  | and ht =>
    cases hs with
    | connective houter hor hconjunction =>
      simpa using State.Covers.operand houter (.mk hor (.operand hconjunction ht))
  | or ht hor' =>
    obtain ⟨rfl, -⟩ := joinPending_eq_ok_iff.mp hor'
    cases hs with
    | connective houter hor hconjunction =>
      simpa using State.Covers.operand houter (.mk (.operand (hor.joined hconjunction) ht) .nothing)
  | closeGroup ht hor hand =>
    obtain ⟨rfl, -⟩ := joinPending_eq_ok_iff.mp hor
    obtain ⟨rfl, -⟩ := joinPending_eq_ok_iff.mp hand
    cases hs with
    | connective houter hwaits hconjunction =>
      cases houter with
      | cons houter hlevel hopening =>
        obtain ⟨hor', hand'⟩ := hlevel
        have hgroup := Derives.group hopening (hwaits.joined hconjunction) ht
        simpa using State.Covers.connective houter hor' (hand'.joined hgroup)

/-- A run adds its tokens. -/
theorem covers_of_run (hs : s.Covers ts) (h : s.run policy us = .ok s') :
    s'.Covers (ts ++ us) :=
  State.invariant_of_run (P := fun ts s => s.Covers ts) Step.covers ts h hs

/-- Where a query may end, an expression was read. -/
theorem derives_of_finish {position : Nat} {p : Predicate} (hs : s.Covers ts)
    (h : s.finish policy position = .ok p) : Derives .expression ts p := by
  obtain ⟨level, conjunction, expression, rfl, hor', rfl⟩ := State.finish_eq_ok_iff.mp h
  obtain ⟨rfl, -⟩ := joinPending_eq_ok_iff.mp hor'
  cases hs with
  | connective houter hor hconjunction =>
    cases houter with
    | nil => exact hor.joined hconjunction

/-! ## completeness -/

/-- The tokens are read to their end wherever the category may start, and what
they denote is joined with what waits. -/
def Accepted : (c : Category) → List Token → c.Meaning → Prop
  | .phrase none, ts, meaning => ∀ outer level, ∃ o : Operand, o.tree = meaning ∧
      State.run .unrestricted ⟨outer, level, .operand⟩ ts =
        .ok ⟨outer, ⟨level.disjunction, none⟩, .connective (joined .and level.conjunction o)⟩
  | .phrase (some .and), ts, meaning => ∀ outer disjunction, ∃ o : Operand, o.tree = meaning ∧
      State.run .unrestricted ⟨outer, ⟨disjunction, none⟩, .operand⟩ ts =
        .ok ⟨outer, ⟨disjunction, none⟩, .connective o⟩
  | .rest .and, ts, meaning => ∀ outer disjunction left, ∃ o : Operand, o.tree = meaning left.tree ∧
      State.run .unrestricted ⟨outer, ⟨disjunction, none⟩, .connective left⟩ ts =
        .ok ⟨outer, ⟨disjunction, none⟩, .connective o⟩
  | .phrase (some .or), ts, meaning => ∀ outer, ∃ disjunction o,
      (joined .or disjunction o).tree = meaning ∧
      State.run .unrestricted ⟨outer, .empty, .operand⟩ ts =
        .ok ⟨outer, ⟨disjunction, none⟩, .connective o⟩
  | .rest .or, ts, meaning => ∀ outer disjunction left, ∃ disjunction' o,
      (joined .or disjunction' o).tree = meaning (joined .or disjunction left).tree ∧
      State.run .unrestricted ⟨outer, ⟨disjunction, none⟩, .connective left⟩ ts =
        .ok ⟨outer, ⟨disjunction', none⟩, .connective o⟩

/-- The tokens of a derivation are read to their end. -/
theorem accepted_of_derives {c : Category} {meaning : c.Meaning} (h : Derives c ts meaning) :
    Accepted c ts meaning := by
  -- The levels around are arbitrary in `Accepted`, so the hypothesis for what
  -- stands in a group applies with that group open.
  obtain ⟨d, rfl, rfl⟩ := h
  induction d with
  | @chain k first rest ihfirst ihrest =>
    cases k with
    | or =>
      intro outer
      obtain ⟨o, ho, hrun⟩ := ihfirst outer none
      obtain ⟨disjunction, o', ho', hrun'⟩ := ihrest outer none o
      refine ⟨disjunction, o', ?_, (State.run_append_of_run hrun _).trans hrun'⟩
      rw [ho', joined_none, ho, Derivation.meaning]
    | and =>
      intro outer disjunction
      obtain ⟨o, ho, hrun⟩ := ihfirst outer ⟨disjunction, none⟩
      obtain ⟨o', ho', hrun'⟩ := ihrest outer disjunction o
      refine ⟨o', ?_, (State.run_append_of_run hrun _).trans hrun'⟩
      rw [ho', ho, Derivation.meaning]
  | @last k =>
    cases k with
    | or => exact fun outer disjunction left => ⟨disjunction, left, rfl, rfl⟩
    | and => exact fun outer disjunction left => ⟨left, rfl, rfl⟩
  | @more k keyword hkeyword next rest ihnext ihrest =>
    cases k with
    | or =>
      intro outer disjunction left
      have hstep : Step .unrestricted ⟨outer, ⟨disjunction, none⟩, .connective left⟩ keyword _ :=
        .or hkeyword (joinPending_unrestricted .or disjunction left)
      obtain ⟨o, ho, hrun⟩ := ihnext outer _
      obtain ⟨disjunction', o', ho', hrun'⟩ := ihrest outer _ o
      refine ⟨disjunction', o', ?_, (State.run_cons_of_step hstep _).trans
        ((State.run_append_of_run hrun _).trans hrun')⟩
      rw [ho', tree_joined_some, ho, Derivation.meaning]
    | and =>
      intro outer disjunction left
      have hstep : Step .unrestricted ⟨outer, ⟨disjunction, none⟩, .connective left⟩ keyword _ :=
        .and hkeyword
      obtain ⟨o, ho, hrun⟩ := ihnext outer _
      obtain ⟨o', ho', hrun'⟩ := ihrest outer disjunction _
      refine ⟨o', ?_, (State.run_cons_of_step hstep _).trans
        ((State.run_append_of_run hrun _).trans hrun')⟩
      rw [ho', tree_joined_some, ho, Derivation.meaning]
  | group opening hopening inner closing hclosing ih =>
    intro outer level
    have hopen : Step .unrestricted ⟨outer, level, .operand⟩ opening _ :=
      .openGroup hopening rfl
    obtain ⟨disjunction, o, ho, hrun⟩ := ih (level :: outer)
    have hclose : Step .unrestricted ⟨level :: outer, ⟨disjunction, none⟩, .connective o⟩
        closing _ :=
      .closeGroup hclosing (joinPending_unrestricted .or disjunction o)
        (joinPending_unrestricted .and level.conjunction _)
    exact ⟨_, ho, (State.run_cons_of_step hopen _).trans
      ((State.run_append_of_run hrun _).trans (State.run_cons_of_step hclose []))⟩
  | comparison field operator value op quoted hfield hoperator hvalue =>
    intro outer level
    have hname : Step .unrestricted ⟨outer, level, .operand⟩ field _ := .field hfield
    have hrelation : Step .unrestricted ⟨outer, level, .field field.text⟩ operator _ :=
      .operator hoperator
    have hliteral : Step .unrestricted ⟨outer, level, .comparison field.text op.relation⟩ value _ :=
      .value hvalue rfl (joinPending_unrestricted .and level.conjunction _)
    refine ⟨_, ?_, (State.run_cons_of_step hname _).trans
      ((State.run_cons_of_step hrelation _).trans (State.run_cons_of_step hliteral []))⟩
    rw [Derivation.meaning, Operator.denoted_eq, Literal.denoted_eq]

/-! ## errors -/

namespace State

@[simp] theorem expression_unrestricted (s : State) (conjunction : Operand) :
    s.expression .unrestricted conjunction = .ok (joined .or s.level.disjunction conjunction) :=
  joinPending_unrestricted ..

@[simp] theorem complete_unrestricted (s : State) (operand : Operand) :
    s.complete .unrestricted operand = .ok ⟨s.outer, ⟨s.level.disjunction, none⟩,
      .connective (joined .and s.level.conjunction operand)⟩ :=
  complete_eq_ok_iff.mpr ⟨_, joinPending_unrestricted .., rfl⟩

/-- Without restrictions a token stops the reader only as unexpected. -/
theorem next_unrestricted_eq_error {e : ParseError} (h : s.next .unrestricted t = .error e) :
    e = s.unexpected (.token t) := by
  unfold next at h
  split at h
  · cases h
  · cases h
  · cases h
  · have hallows (name : String) : Policy.unrestricted.allows name = true := rfl
    simp only [hallows, if_true, complete_unrestricted, reduceCtorEq] at h
  · cases h
  · simp only [expression_unrestricted] at h
    split at h
    · cases h
    · simp only [complete_unrestricted, reduceCtorEq] at h
    · cases h; rfl
  · cases h; rfl

/-- Without restrictions the end of a query is at worst unexpected. -/
theorem finish_unrestricted_eq_error {position : Nat} {e : ParseError}
    (h : s.finish .unrestricted position = .error e) :
    e = s.unexpected (.endOfInput position) := by
  unfold finish at h
  split at h
  · simp only [expression_unrestricted] at h
    split at h
    · cases h
    · cases h; rfl
  · cases h; rfl

/-- Without restrictions a run stops only at an unexpected token. -/
theorem run_unrestricted_eq_error {e : ParseError} (h : s.run .unrestricted ts = .error e) :
    ∃ (s₁ : State) (t : Token), e = s₁.unexpected (.token t) := by
  obtain ⟨-, t, -, s₁, -, -, hnext⟩ := run_eq_error h
  exact ⟨s₁, t, next_unrestricted_eq_error hnext⟩

end State

/-! ## token streams -/

/-- What is accepted was derived. -/
theorem derives_of_parseTokens {stream : TokenStream} {p : Predicate}
    (h : policy.parseTokens stream = .ok p) : Derives .expression stream.tokens p := by
  obtain ⟨s, hrun, hfinish⟩ := parseTokens_eq_ok_iff.mp h
  exact derives_of_finish (covers_of_run State.covers_start hrun) hfinish

/-- What is derived is accepted where nothing is restricted. -/
theorem parseTokens_of_derives {stream : TokenStream} {p : Predicate}
    (h : Derives .expression stream.tokens p) :
    Policy.unrestricted.parseTokens stream = .ok p := by
  obtain ⟨disjunction, o, rfl, hrun⟩ := accepted_of_derives h []
  exact parseTokens_eq_ok_iff.mpr ⟨_, hrun, State.finish_eq_ok_iff.mpr
    ⟨⟨disjunction, none⟩, o, _, rfl, joinPending_unrestricted .or disjunction o, rfl⟩⟩

/-- Without restrictions a token stream is rejected for a syntax error. -/
theorem parseTokens_unrestricted_eq_error {stream : TokenStream} {e : ParseError}
    (h : Policy.unrestricted.parseTokens stream = .error e) :
    ∃ syntaxError, e = .unexpected syntaxError := by
  unfold Policy.parseTokens at h
  split at h
  · next hrun =>
    cases h
    obtain ⟨s, t, rfl⟩ := State.run_unrestricted_eq_error hrun
    exact ⟨_, rfl⟩
  · exact ⟨_, State.finish_unrestricted_eq_error h⟩

/-- **The parser accepts exactly its grammar**: the predicate of a token stream is
the one that its derivation denotes, no list of tokens has two derivations, and
a stream that has none is answered by a syntax error. -/
theorem parseTokens_exact (stream : TokenStream) :
    (∀ p, Policy.unrestricted.parseTokens stream = .ok p ↔
      ∃ d : Derivation .expression, d.tokens = stream.tokens ∧ d.meaning = p) ∧
    (∀ (c : Category) (d e : Derivation c), d.tokens = e.tokens → d = e) ∧
    ((¬ ∃ d : Derivation .expression, d.tokens = stream.tokens) →
      ∃ e, Policy.unrestricted.parseTokens stream = .error (.unexpected e)) := by
  refine ⟨fun p => ⟨derives_of_parseTokens, parseTokens_of_derives⟩,
    fun c d e => Derivation.eq_of_tokens_eq, fun hnone => ?_⟩
  cases hparse : Policy.unrestricted.parseTokens stream with
  | ok p =>
    obtain ⟨d, hd, -⟩ := derives_of_parseTokens hparse
    exact absurd ⟨d, hd⟩ hnone
  | error e =>
    obtain ⟨syntaxError, rfl⟩ := parseTokens_unrestricted_eq_error hparse
    exact ⟨syntaxError, rfl⟩

/-! ## queries -/

/-- The tokens of a group around others. -/
def grouped (ts : List Token) : List Token :=
  ⟨.openGroup, "(", 0⟩ :: (ts ++ [⟨.closeGroup, ")", 0⟩])

/-- A group means what its content means. -/
theorem derives_grouped {ts : List Token} {p : Predicate} (h : Derives .expression ts p) :
    Derives .operand (grouped ts) p :=
  h.group rfl rfl

/-- A text in parentheses reads as the group of what it says. -/
theorem reads_grouped {ts : List Token} {cs rest : List Char}
    {contents : List (Token.Kind × String)} (h : Reads false cs (ts.map Token.content))
    (hrest : Reads false rest contents) :
    Reads false ('(' :: (cs ++ ')' :: rest)) ((grouped ts).map Token.content ++ contents) := by
  simpa [grouped, Token.content] using h.group hrest

/-- A query is accepted without restrictions when it says what has a derivation. -/
theorem parse_unrestricted_iff {source : String} {p : Predicate} :
    Policy.unrestricted.parse source = .ok p ↔
      ∃ ts : List Token, Reads false source.toList (ts.map Token.content) ∧
        Derives .expression ts p := by
  rw [parse_eq_ok_iff]
  constructor
  · intro h
    obtain ⟨stream, hscan, hparse⟩ := h
    exact ⟨stream.tokens, TokenStream.reads_iff.mpr ⟨stream, hscan, rfl⟩,
      derives_of_parseTokens hparse⟩
  · intro h
    obtain ⟨ts, hreads, hderives⟩ := h
    obtain ⟨stream, hscan, hcontents⟩ := TokenStream.reads_iff.mp hreads
    exact ⟨stream, hscan, parseTokens_of_derives (hderives.of_contents_eq hcontents)⟩

end FilterQuery.Parse
