import FilterQuery.Proofs.Recognition

/-!
# FilterQuery.Proofs.Expectations

A syntax error is reported at the first token with which no query can begin, and
it lists exactly what could have stood there.  What has been read is `Viable` as
long as some query begins with it.

* `State.finishes` — from every state the reader can be led to the end of a
  query, so nothing that it has read is in vain;
* `State.step_iff_expected`, `State.finish_iff_expected` — a state goes on with
  what it expects and with nothing else;
* `viable_append_iff` — hence what it expects is what may come next;
* `unexpected_cases` — an error names the state that met the token it rejects.
-/

namespace FilterQuery

/-! ## what is expected -/

/-- Does the token satisfy the expectation?  An expression starts with an open
parenthesis or a field. -/
def Expectation.coversKind : Expectation → Token.Kind → Bool
  | .expression, .openGroup | .expression, .field => true
  | .operator, .operator _ => true
  | .value, .literal _ => true
  | .connective, .keyword _ => true
  | .closeGroup, .closeGroup => true
  | _, _ => false

/-- Does what comes next satisfy the expectation? -/
def Expectation.covers (x : Expectation) : Lookahead → Bool
  | .token t => x.coversKind t.kind
  | .endOfInput _ => x == .endOfInput

/-- Some query begins with what was read. -/
def Viable (ls : List Lookahead) : Prop :=
  ∃ (stream : TokenStream) (p : Predicate),
    Derives .expression stream.tokens p ∧ ls <+: stream.lookaheads

namespace Parse

variable {s s' : State} {t : Token} {ts : List Token}

namespace State

/-- A state goes on with the tokens that it expects. -/
theorem step_iff_expected :
    (∃ s', Step .unrestricted s t s') ↔ ∃ x ∈ s.expected, x.coversKind t.kind = true := by
  obtain ⟨outer, level, phase⟩ := s
  constructor
  · intro h
    obtain ⟨s', hstep⟩ := h
    cases hstep <;> simp_all [expected, Expectation.coversKind]
  · intro h
    cases phase with
    | operand =>
      cases ht : t.kind with
      | openGroup => exact ⟨_, .openGroup ht rfl⟩
      | field => exact ⟨_, .field ht⟩
      | _ => simp [expected, Expectation.coversKind, ht] at h
    | field name =>
      cases ht : t.kind with
      | operator op => exact ⟨_, .operator ht⟩
      | _ => simp [expected, Expectation.coversKind, ht] at h
    | comparison name relation =>
      cases ht : t.kind with
      | literal quoted => exact ⟨_, .value ht rfl (joinPending_unrestricted ..)⟩
      | _ => simp [expected, Expectation.coversKind, ht] at h
    | connective conjunction =>
      cases ht : t.kind with
      | keyword k =>
        cases k with
        | and => exact ⟨_, .and ht⟩
        | or => exact ⟨_, .or ht (joinPending_unrestricted ..)⟩
      | closeGroup =>
        cases outer with
        | nil => simp [expected, Expectation.coversKind, ht] at h
        | cons around outer =>
          exact ⟨_, .closeGroup ht (joinPending_unrestricted ..) (joinPending_unrestricted ..)⟩
      | _ => cases outer <;> simp [expected, Expectation.coversKind, ht] at h

/-- A query may end where its end is expected. -/
theorem finish_iff_expected {position : Nat} :
    (∃ p, s.finish .unrestricted position = .ok p) ↔ .endOfInput ∈ s.expected := by
  constructor
  · intro h
    obtain ⟨p, hfinish⟩ := h
    obtain ⟨level, conjunction, expression, rfl, -, -⟩ := finish_eq_ok_iff.mp hfinish
    simp [expected]
  · intro h
    obtain ⟨outer, level, phase⟩ := s
    cases phase with
    | connective conjunction =>
      cases outer with
      | nil => exact ⟨_, finish_eq_ok_iff.mpr ⟨level, conjunction, _, rfl,
          joinPending_unrestricted .., rfl⟩⟩
      | cons around outer => simp [expected] at h
    | _ => simp [expected] at h

/-! ## going on to the end -/

/-- Some tokens lead from the state to the end of a query. -/
def Finishes (s : State) : Prop :=
  ∃ us s' p, s.run .unrestricted us = .ok s' ∧ s'.finish .unrestricted 0 = .ok p

/-- What leads on from the next state leads on from this one. -/
theorem Finishes.of_step (h : Step .unrestricted s t s') (hs' : s'.Finishes) : s.Finishes := by
  obtain ⟨us, s₁, p, hrun, hfinish⟩ := hs'
  exact ⟨t :: us, s₁, p, (run_cons_of_step h us).trans hrun, hfinish⟩

/-- Behind a conjunction only the open groups have to be closed. -/
theorem finishes_connective (outer : List Level) (level : Level) (conjunction : Operand) :
    Finishes ⟨outer, level, .connective conjunction⟩ := by
  induction outer generalizing level conjunction with
  | nil =>
    obtain ⟨p, hfinish⟩ := finish_iff_expected (s := ⟨[], level, .connective conjunction⟩).mpr
      (by simp [expected])
    exact ⟨[], _, p, rfl, hfinish⟩
  | cons around outer ih =>
    have hclose : Step .unrestricted ⟨around :: outer, level, .connective conjunction⟩
        ⟨.closeGroup, ")", 0⟩ _ :=
      .closeGroup rfl (joinPending_unrestricted ..) (joinPending_unrestricted ..)
    exact .of_step hclose (ih _ _)

/-- From every state the reader can be led to the end of a query: a comparison is
completed and the open groups are closed. -/
theorem finishes (s : State) : s.Finishes := by
  obtain ⟨outer, level, phase⟩ := s
  have hcomparison (name : String) (relation : Relation) :
      Finishes ⟨outer, level, .comparison name relation⟩ := by
    have hvalue : Step .unrestricted ⟨outer, level, .comparison name relation⟩
        ⟨.literal true, "", 0⟩ _ :=
      .value rfl rfl (joinPending_unrestricted ..)
    exact .of_step hvalue (finishes_connective ..)
  have hfield (name : String) : Finishes ⟨outer, level, .field name⟩ :=
    .of_step (t := ⟨.operator .equal, ":", 0⟩) (.operator rfl) (hcomparison name _)
  cases phase with
  | operand => exact .of_step (t := ⟨.field, "a", 0⟩) (.field rfl) (hfield "a")
  | field name => exact hfield name
  | comparison name relation => exact hcomparison name relation
  | connective conjunction => exact finishes_connective outer level conjunction

end State

/-! ## viable prefixes -/

/-- What begins a stream without its end begins its tokens. -/
theorem prefix_of_map_token {stream : TokenStream}
    (h : ts.map .token <+: stream.lookaheads) : ts <+: stream.tokens := by
  obtain ⟨tokens, size⟩ := stream
  induction ts generalizing tokens with
  | nil => exact List.nil_prefix
  | cons t ts ih =>
    cases tokens with
    | nil => simp [TokenStream.lookaheads] at h
    | cons u us =>
      simp only [TokenStream.lookaheads, List.map_cons, List.cons_append, List.cons_prefix_cons,
        Lookahead.token.injEq] at h ⊢
      exact ⟨h.1, ih us h.2⟩

/-- What begins a stream and has an end is all of it. -/
theorem eq_of_prefix_end {stream : TokenStream} {position : Nat}
    (h : ts.map .token ++ [.endOfInput position] <+: stream.lookaheads) :
    stream = ⟨ts, position⟩ := by
  obtain ⟨tokens, size⟩ := stream
  induction ts generalizing tokens with
  | nil => cases tokens <;> simp_all [TokenStream.lookaheads]
  | cons t ts ih =>
    cases tokens with
    | nil => simp [TokenStream.lookaheads] at h
    | cons u us =>
      simp only [TokenStream.lookaheads, List.map_cons, List.cons_append, List.cons_prefix_cons,
        Lookahead.token.injEq] at h
      obtain ⟨rfl, hrest⟩ := h
      cases ih us hrest
      rfl

/-- Tokens are viable as long as they can be read. -/
theorem viable_iff : Viable (ts.map .token) ↔ ∃ s, State.start.run .unrestricted ts = .ok s := by
  constructor
  · intro h
    obtain ⟨stream, p, hderives, hprefix⟩ := h
    obtain ⟨us, hus⟩ := prefix_of_map_token hprefix
    obtain ⟨s, hrun, -⟩ := parseTokens_eq_ok_iff.mp (parseTokens_of_derives hderives)
    rw [← hus] at hrun
    obtain ⟨s₁, hrun₁, -⟩ := State.run_append_eq_ok_iff.mp hrun
    exact ⟨s₁, hrun₁⟩
  · intro h
    obtain ⟨s, hrun⟩ := h
    obtain ⟨us, s', p, hrest, hfinish⟩ := s.finishes
    have hparse : Policy.unrestricted.parseTokens ⟨ts ++ us, 0⟩ = .ok p :=
      parseTokens_eq_ok_iff.mpr ⟨s', (State.run_append_of_run hrun us).trans hrest, hfinish⟩
    refine ⟨_, p, derives_of_parseTokens hparse, ?_⟩
    simp [TokenStream.lookaheads]

/-- Behind tokens that were read may stand what the state expects, and nothing
else. -/
theorem viable_append_iff {l : Lookahead} (h : State.start.run .unrestricted ts = .ok s) :
    Viable (ts.map .token ++ [l]) ↔ ∃ x ∈ s.expected, x.covers l = true := by
  cases l with
  | token t =>
    have hread : (∃ s', State.start.run .unrestricted (ts ++ [t]) = .ok s') ↔
        ∃ s', Step .unrestricted s t s' := by
      simp only [State.run_append_of_run h, State.run_cons_eq_ok_iff, State.run_nil,
        Except.ok.injEq, exists_eq_right]
    have hviable := viable_iff.trans (hread.trans State.step_iff_expected)
    rwa [List.map_append] at hviable
  | endOfInput position =>
    have hcovers : (∃ x ∈ s.expected, x.covers (.endOfInput position) = true) ↔
        .endOfInput ∈ s.expected := by
      simp [Expectation.covers]
    rw [hcovers, ← @State.finish_iff_expected s position]
    constructor
    · intro hviable
      obtain ⟨stream, p, hderives, hprefix⟩ := hviable
      obtain rfl := eq_of_prefix_end hprefix
      obtain ⟨s', hrun, hfinish⟩ := parseTokens_eq_ok_iff.mp (parseTokens_of_derives hderives)
      obtain rfl : s = s' := Except.ok.inj (h.symm.trans hrun)
      exact ⟨p, hfinish⟩
    · intro hfinish
      obtain ⟨p, hfinish⟩ := hfinish
      have hparse : Policy.unrestricted.parseTokens ⟨ts, position⟩ = .ok p :=
        parseTokens_eq_ok_iff.mpr ⟨s, h, hfinish⟩
      exact ⟨_, p, derives_of_parseTokens hparse, List.prefix_rfl⟩

/-! ## errors -/

/-- A syntax error is that of the state which met the token it rejects. -/
theorem unexpected_cases {stream : TokenStream} {e : SyntaxError}
    (h : Policy.unrestricted.parseTokens stream = .error (.unexpected e)) :
    ∃ before after s, stream.lookaheads = before.map .token ++ e.found :: after ∧
      State.start.run .unrestricted before = .ok s ∧
      e = ⟨e.found.position, s.expected, e.found⟩ ∧
      ¬ ∃ x ∈ s.expected, x.covers e.found = true := by
  unfold Policy.parseTokens at h
  split at h
  · next herror =>
    cases h
    obtain ⟨before, t, after, s, htokens, hrun, hnext⟩ := State.run_eq_error herror
    cases State.next_unrestricted_eq_error hnext
    refine ⟨before, after.map .token ++ [.endOfInput stream.size], s, ?_, hrun, rfl, ?_⟩
    · simp [TokenStream.lookaheads, htokens]
    · intro hexpected
      obtain ⟨s', hstep⟩ := State.step_iff_expected.mpr hexpected
      rw [State.next_of_step hstep] at hnext
      cases hnext
  · next s hrun =>
    cases State.finish_unrestricted_eq_error h
    refine ⟨stream.tokens, [], s, rfl, hrun, rfl, ?_⟩
    intro hexpected
    obtain ⟨p, hfinish⟩ :=
      State.finish_iff_expected.mpr (by simpa [Expectation.covers] using hexpected)
    rw [hfinish] at h
    cases h

/-- **Syntax errors are reported as early as possible and name every way to go
on**: the token found is the first with which the stream no longer begins a query,
and what is expected covers exactly what may stand behind the tokens before it. -/
theorem parseTokens_unexpected {stream : TokenStream} {e : SyntaxError}
    (h : Policy.unrestricted.parseTokens stream = .error (.unexpected e)) :
    ∃ i, stream.lookaheads[i]? = some e.found ∧ e.position = e.found.position ∧
      Viable (stream.lookaheads.take i) ∧ ¬ Viable (stream.lookaheads.take (i + 1)) ∧
      ∀ l, Viable (stream.lookaheads.take i ++ [l]) ↔ ∃ x ∈ e.expected, x.covers l = true := by
  obtain ⟨before, after, s, hall, hrun, he, hfound⟩ := unexpected_cases h
  have hlength : (before.map Lookahead.token).length = before.length := List.length_map _
  have htake : stream.lookaheads.take before.length = before.map .token := by
    rw [hall, ← hlength, List.take_left]
  have htake_succ : stream.lookaheads.take (before.length + 1) =
      before.map .token ++ [e.found] := by
    rw [hall, ← hlength, List.take_length_add_append, List.take_succ_cons, List.take_zero]
  have hexpected : e.expected = s.expected := congrArg SyntaxError.expected he
  refine ⟨before.length, ?_, congrArg SyntaxError.position he, ?_, ?_, fun l => ?_⟩
  · rw [hall, ← hlength, List.getElem?_append_right (Nat.le_refl _), Nat.sub_self]
    rfl
  · rw [htake]
    exact viable_iff.mpr ⟨s, hrun⟩
  · rw [htake_succ, viable_append_iff hrun]
    exact hfound
  · rw [htake, hexpected]
    exact viable_append_iff hrun

/-- In `(a:1 b` the second field is too much: only a connective or the closing
parenthesis may stand there. -/
theorem parseTokens_unexpected_field :
    let found : Lookahead := .token ⟨.field, "b", 5⟩
    let stream : TokenStream := ⟨[⟨.openGroup, "(", 0⟩, ⟨.field, "a", 1⟩,
      ⟨.operator .equal, ":", 2⟩, ⟨.literal false, "1", 3⟩, ⟨.field, "b", 5⟩], 6⟩
    Policy.unrestricted.parseTokens stream =
        .error (.unexpected ⟨5, [.connective, .closeGroup], found⟩) ∧
      ∃ i, stream.lookaheads[i]? = some found ∧ 5 = found.position ∧
        Viable (stream.lookaheads.take i) ∧ ¬ Viable (stream.lookaheads.take (i + 1)) ∧
        ∀ l, Viable (stream.lookaheads.take i ++ [l]) ↔
          ∃ x ∈ [Expectation.connective, .closeGroup], x.covers l = true := by
  intro found stream
  have hparse : Policy.unrestricted.parseTokens stream =
      .error (.unexpected ⟨5, [.connective, .closeGroup], found⟩) := rfl
  exact ⟨hparse, parseTokens_unexpected hparse⟩

end Parse

end FilterQuery
