import FilterQuery.Proofs.Refusals

/-!
# FilterQuery.Proofs.Adjacency

What stands behind what among the tokens of a text.  The one bit that the scanner
keeps, whether a value is awaited, decides which shapes a token may have: behind an
operator a closing parenthesis or a value, elsewhere anything but an unquoted value
that is no constant.

* `Token.Shape.followsOperator`, `Token.Shape.isBareValue`,
  `Token.Shape.exists_constant` — what the bit says about one token;
* `TokenStream.neighbours_of_scan` — the same for all tokens, and the only two things
  that a reader can find where it expects a value.
-/

namespace FilterQuery

/-! ## neighbours -/

/-- Does it end an operand?  No value can start there. -/
def Lookahead.endsOperand : Lookahead → Bool
  | .token t => t.kind == .closeGroup
  | .endOfInput _ => true

/-- May it stand right behind an operator? -/
def Lookahead.followsOperator : Lookahead → Bool
  | .token ⟨.literal _, _, _⟩ => true
  | l => l.endsOperand

/-- Behind an operator stands a value, if nothing that ends the operand. -/
theorem Lookahead.endsOperand_or_literal {l : Lookahead} (h : l.followsOperator = true) :
    l.endsOperand = true ∨ ∃ t quoted, l = .token t ∧ t.kind = .literal quoted := by
  unfold followsOperator at h
  split at h
  · exact .inr ⟨_, _, rfl, rfl⟩
  · exact .inl h

/-- An unquoted value: it is not empty, no blank and no `)` stands in it, and it does
not start with a quote. -/
structure IsBareValue (text : String) : Prop where
  ne_empty : text ≠ ""
  inside : ∀ c ∈ text.toList, Text.isBlank c = false ∧ c ≠ ')'
  head : text.toList.head? ≠ some '"'

/-- What stands behind what: the end behind all tokens, and behind an operator a value
or what ends the operand.  A value without quotes is anything up to the next blank or
`)` behind an operator, and a constant elsewhere. -/
structure TokenStream.Neighbours (stream : TokenStream) : Prop where
  ends : ∀ before l after, stream.lookaheads = before ++ l :: after →
    ((∃ position, l = .endOfInput position) ↔ after = [])
  operator : ∀ before t op after, stream.lookaheads = before ++ .token t :: after →
    t.kind = .operator op → ∃ l ∈ after.head?, l.followsOperator = true
  value : ∀ before t op u after, stream.tokens = before ++ t :: u :: after →
    t.kind = .operator op → u.kind = .literal false → IsBareValue u.text
  constant : ∀ before t after, stream.tokens = before ++ t :: after →
    (∀ last ∈ before.getLast?, ∀ op, last.kind ≠ .operator op) → t.kind = .literal false →
      ∃ constant ∈ constantWords, Text.spells constant t.text.toList = true

/-! ## one token -/

namespace Token

variable {front back text span : List Char} {kind : Kind}

/-- Where a value is awaited stands one, or a closing parenthesis. -/
theorem Shape.followsOperator {t : Token} (h : Shape front back true t.kind text span) :
    (Lookahead.token t).followsOperator = true := by
  obtain ⟨kind, text, position⟩ := t
  cases h <;> rfl

/-- An unquoted value where one is awaited. -/
theorem Shape.isBareValue {text : String}
    (h : Shape front back true (.literal false) text.toList span) : IsBareValue text := by
  generalize hcs : text.toList = cs at h
  cases h with
  | value hne hquote hinside hback =>
    refine ⟨fun hempty => hne ?_, fun c hc => ?_, ?_⟩
    · rw [← hcs, hempty]
      rfl
    · simpa [isValuePart] using hinside c (hcs ▸ hc)
    · rwa [hcs]

/-- Anywhere else an unquoted value is a constant. -/
theorem Shape.exists_constant (h : Shape front back false (.literal false) text span) :
    ∃ constant ∈ constantWords, Text.spells constant text = true := by
  cases h with
  | word hname hrun hkind => exact hkind.constant.mp rfl

end Token

/-! ## all tokens -/

/-- The end stands behind all tokens, and nowhere else. -/
theorem TokenStream.endOfInput_iff {stream : TokenStream} {before after : List Lookahead}
    {l : Lookahead} (h : stream.lookaheads = before ++ l :: after) :
    (∃ position, l = .endOfInput position) ↔ after = [] := by
  obtain rfl | ⟨init, last, rfl⟩ := List.eq_nil_or_concat after
  · have hlast : l = .endOfInput stream.size := by
      rw [lookaheads] at h
      exact (List.singleton_inj.mp (List.append_inj' h rfl).2).symm
    exact iff_of_true ⟨_, hlast⟩ rfl
  · refine iff_of_false ?_ (by simp)
    have hinit : stream.tokens.map Lookahead.token = before ++ l :: init := by
      rw [lookaheads, List.concat_eq_append, ← List.cons_append, ← List.append_assoc] at h
      exact (List.append_inj' h rfl).1
    have hl : l ∈ stream.tokens.map Lookahead.token := by
      rw [hinit]
      exact List.mem_append_right _ List.mem_cons_self
    obtain ⟨t, -, rfl⟩ := List.mem_map.mp hl
    rintro ⟨position, hend⟩
    cases hend

/-- Tokens that are followed by others or by the end. -/
theorem TokenStream.tokens_of_lookaheads {stream : TokenStream} {t : Token}
    {before after : List Lookahead} (h : stream.lookaheads = before ++ .token t :: after) :
    ∃ ts us, stream.tokens = ts ++ t :: us ∧ before = ts.map .token ∧
      after = us.map .token ++ [.endOfInput stream.size] := by
  obtain ⟨init, last, rfl⟩ : ∃ init last, after = init ++ [last] := by
    obtain rfl | ⟨init, last, rfl⟩ := List.eq_nil_or_concat after
    · obtain ⟨position, hend⟩ := (endOfInput_iff h).mpr rfl
      cases hend
    · exact ⟨init, last, List.concat_eq_append⟩
  rw [lookaheads, ← List.cons_append, ← List.append_assoc] at h
  obtain ⟨htokens, hlast⟩ := List.append_inj' h rfl
  obtain ⟨ts, rest, hts, rfl, hrest⟩ := List.map_eq_append_iff.mp htokens
  obtain ⟨u, us, rfl, hu, rfl⟩ := List.map_eq_cons_iff.mp hrest
  cases hu
  exact ⟨ts, us, hts, rfl, by rw [hlast]⟩

/-- A token was read as what the token before it awaits. -/
theorem TokenStream.exists_shape_behind {source : String} {stream : TokenStream}
    (h : scan source = .ok stream) {before after : List Token} {t u : Token}
    (htokens : stream.tokens = before ++ t :: u :: after) :
    ∃ front back span, Token.Shape front back t.kind.awaitsValue u.kind u.text.toList span := by
  have hcut : stream.tokens = (before ++ [t]) ++ u :: after := by
    rw [htokens, List.append_cons]
  obtain ⟨front, back, span, hshape⟩ := exists_shape h hcut
  rw [List.getLast?_concat, Option.any_some] at hshape
  exact ⟨front, back, span, hshape⟩

/-- The tokens of a text have the right neighbours. -/
theorem TokenStream.neighbours {source : String} {stream : TokenStream}
    (h : scan source = .ok stream) : stream.Neighbours := by
  refine ⟨fun before l after => endOfInput_iff, ?_, ?_, ?_⟩
  · intro before t op after hall ht
    obtain ⟨ts, us, htokens, -, rfl⟩ := tokens_of_lookaheads hall
    cases us with
    | nil => exact ⟨_, rfl, rfl⟩
    | cons u us =>
      obtain ⟨front, back, span, hshape⟩ := exists_shape_behind h htokens
      rw [ht] at hshape
      exact ⟨_, rfl, hshape.followsOperator⟩
  · intro before t op u after htokens ht hu
    obtain ⟨front, back, span, hshape⟩ := exists_shape_behind h htokens
    rw [ht, hu] at hshape
    exact hshape.isBareValue
  · intro before t after htokens hbefore ht
    obtain ⟨front, back, span, hshape⟩ := exists_shape h htokens
    have hnone : before.getLast?.any (·.kind.awaitsValue) = false := by
      cases hlast : before.getLast? with
      | none => rfl
      | some last =>
        rw [Option.any_some]
        cases hkind : last.kind with
        | operator op => exact absurd hkind (hbefore last hlast op)
        | _ => rfl
    rw [hnone, ht] at hshape
    exact hshape.exists_constant

/-! ## what is found in place of a value -/

namespace Parse

/-- Behind a field and its operator the operator was read last. -/
theorem State.Covers.exists_operator {outer : List Level} {level : Level} {name : String}
    {relation : Relation} {ts : List Token}
    (h : State.Covers ⟨outer, level, .comparison name relation⟩ ts) :
    ∃ init t op, ts = init ++ [t] ∧ t.kind = .operator op := by
  cases h with
  | @comparison _ _ ts us field operator op houter hlevel hfield hoperator =>
    exact ⟨ts ++ us ++ [field], operator, op, by simp, hoperator⟩

/-- Where nothing but a value is expected, an operator was read last. -/
theorem State.phase_of_expected {s : State} (h : s.expected = [.value]) :
    ∃ name relation, s.phase = .comparison name relation := by
  obtain ⟨outer, level, phase⟩ := s
  cases phase <;> simp_all [State.expected]

/-- With the right neighbours, what is found in place of a value ends the operand. -/
theorem endsOperand_of_unexpected {stream : TokenStream} (hstream : stream.Neighbours)
    {e : SyntaxError} (h : Policy.unrestricted.parseTokens stream = .error (.unexpected e))
    (hexpected : e.expected = [.value]) : e.found.endsOperand = true := by
  obtain ⟨before, after, s, hall, hrun, he, hfound⟩ := unexpected_cases h
  have hs : s.expected = [.value] := (congrArg SyntaxError.expected he).symm.trans hexpected
  obtain ⟨name, relation, hphase⟩ := State.phase_of_expected hs
  obtain ⟨outer, level, phase⟩ := s
  obtain rfl : phase = .comparison name relation := hphase
  obtain ⟨init, t, op, rfl, ht⟩ := (covers_of_run State.covers_start hrun).exists_operator
  obtain ⟨l, hl, hfollows⟩ := hstream.operator (init.map .token) t op (e.found :: after)
    (by simpa using hall) ht
  obtain rfl : e.found = l := Option.some.inj hl
  obtain hends | ⟨u, quoted, hu, hquoted⟩ := Lookahead.endsOperand_or_literal hfollows
  · exact hends
  · refine absurd ⟨.value, by rw [hs]; exact List.mem_singleton_self _, ?_⟩ hfound
    rw [hu, Expectation.covers, hquoted]
    rfl

end Parse

/-- **Scanning keeps values where the reader wants them**: the end comes once and last,
behind an operator stands a value, a `)` or the end and nothing else, and an unquoted
value elsewhere is a constant.  So under every policy, where a value is missing it is a
`)` or the end of the input that stands in its place. -/
theorem TokenStream.neighbours_of_scan (source : String) :
    (∀ stream, scan source = .ok stream → stream.Neighbours) ∧
      ∀ (policy : Policy) (e : SyntaxError), policy.parse source = .error (.unexpected e) →
        e.expected = [.value] → e.found.endsOperand = true := by
  refine ⟨fun stream hscan => neighbours hscan, fun policy e herror hexpected => ?_⟩
  cases hscan : scan source with
  | error x =>
    rw [Policy.parse, hscan] at herror
    cases herror
  | ok stream =>
    rw [Parse.parse_of_scan hscan] at herror
    obtain hsame | ⟨e', he', hstops⟩ := Parse.parseTokens_same policy stream
    · exact Parse.endsOperand_of_unexpected (neighbours hscan) (hsame ▸ herror) hexpected
    · rw [herror] at he'
      cases he'
      exact absurd rfl (hstops.ne_unexpected e)

/-- A parenthesis within a value, a constant out of place, and a comparison that lacks
its value. -/
theorem TokenStream.neighbours_of_scan_missing :
    let source := "a:=(x AND (b!=) TRUE"
    let found : Lookahead := .token ⟨.closeGroup, ")", 14⟩
    let stream : TokenStream :=
      ⟨[⟨.field, "a", 0⟩, ⟨.operator .equalAlias, ":=", 1⟩, ⟨.literal false, "(x", 3⟩,
        ⟨.keyword .and, "AND", 6⟩, ⟨.openGroup, "(", 10⟩, ⟨.field, "b", 11⟩,
        ⟨.operator .notEqual, "!=", 12⟩, ⟨.closeGroup, ")", 14⟩, ⟨.literal false, "TRUE", 16⟩],
        20⟩
    TokenStream.scan source = .ok stream ∧ stream.Neighbours ∧
      Policy.standard.parse source = .error (.unexpected ⟨14, [.value], found⟩) ∧
      found.endsOperand = true := by
  intro source found stream
  have hscan : TokenStream.scan source = .ok stream := eq_ok_of_toOption (by decide +kernel)
  have hparse : Policy.standard.parse source = .error (.unexpected ⟨14, [.value], found⟩) :=
    eq_error_of_error? (by decide +kernel)
  obtain ⟨hneighbours, hfound⟩ := TokenStream.neighbours_of_scan source
  exact ⟨hscan, hneighbours stream hscan, hparse, hfound _ _ hparse rfl⟩

end FilterQuery
