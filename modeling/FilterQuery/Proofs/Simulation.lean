import FilterQuery.Proofs.Calls

/-!
# FilterQuery.Proofs.Simulation

Reading tokens one by one does what recursive descent does.  A call stands for the steps
that read its tokens: what comes of the query from the state where the call starts
(`resume`) is the error of the call, or what comes of it from the state where the call
ends.  A chain of `OR` ends in no state of its own, since its last two operands are joined
at the next token only; what comes behind it is said by that token (`resumeBehind`).

* `resume_connective` — the last conjunction is joined, and the next token decides;
* `Context` — where a link of a chain may stand;
* `Returns.simulates` — each way through a call, in its context;
* `query_eq_parseTokens` — so queries are answered alike;
* `call_invariant` — what holds of the calls, put together.
-/

namespace FilterQuery.Parse

variable {policy : Policy} {stream : TokenStream}

/-- A state names what it expects. -/
theorem State.unexpected_eq (s : State) (found : Lookahead) :
    s.unexpected found = Parse.unexpected s.expected found := rfl

/-! ## what comes of a query -/

/-- What comes of the query from a state in which the token with index `i` is next. -/
def resume (policy : Policy) (stream : TokenStream) (s : State) (i : Nat) : Outcome :=
  (s.run policy (stream.tokens.drop i)).bind fun s => s.finish policy stream.size

/-- From the start it is the outcome. -/
theorem resume_start (policy : Policy) (stream : TokenStream) :
    resume policy stream .start 0 = policy.parseTokens stream :=
  (parseTokens_eq_bind policy stream).symm

/-- A token is read. -/
theorem resume_token {i : Nat} {u : Token} (h : stream.lookahead i = .token u) (s : State) :
    resume policy stream s i = (s.next policy u).bind fun s => resume policy stream s (i + 1) := by
  obtain ⟨hlt, hu⟩ := List.getElem?_eq_some_iff.mp (lookahead_eq_token_iff.mp h)
  rw [resume, List.drop_eq_getElem_cons hlt, hu, State.run_cons]
  cases s.next policy u <;> rfl

/-- At the end nothing is read. -/
theorem resume_end (policy : Policy) {i position : Nat}
    (h : stream.lookahead i = .endOfInput position) (s : State) :
    position = stream.size ∧ resume policy stream s i = s.finish policy stream.size := by
  unfold TokenStream.lookahead at h
  cases hi : stream.tokens[i]? with
  | some u => simp [hi] at h
  | none =>
    rw [hi] at h
    cases h
    rw [resume, List.drop_eq_nil_of_le (List.getElem?_eq_none_iff.mp hi)]
    exact ⟨rfl, rfl⟩

variable {outer : List Level} {level : Level} {i : Nat}

/-- Within an operand, or in front of one, only what is expected is read. -/
theorem resume_unexpected {s : State} (hphase : ∀ c, s.phase ≠ .connective c)
    (hfound : ∀ kind, (stream.lookahead i).kind? = some kind →
      ∀ x ∈ s.expected, x.coversKind kind = false) :
    resume policy stream s i = .error (unexpected s.expected (stream.lookahead i)) := by
  obtain ⟨outer, level, phase⟩ := s
  cases hnext : stream.lookahead i with
  | token u =>
    have hkind := hfound u.kind (by rw [hnext]; rfl)
    have hrefused : State.next policy ⟨outer, level, phase⟩ u =
        .error (State.unexpected ⟨outer, level, phase⟩ (.token u)) := by
      cases phase with
      | connective c => exact absurd rfl (hphase c)
      | _ => cases hu : u.kind <;> simp_all [State.next, State.expected, Expectation.coversKind]
    rw [resume_token hnext, hrefused, State.unexpected_eq]
    rfl
  | endOfInput position =>
    obtain ⟨rfl, hend⟩ := resume_end policy hnext ⟨outer, level, phase⟩
    rw [hend]
    cases phase with
    | connective c => exact absurd rfl (hphase c)
    | _ => rfl

/-- What comes of the query behind an expression, when its last two operands are joined:
another `OR`, the end of the group, or the end of the query. -/
def resumeBehind (policy : Policy) (stream : TokenStream) (outer : List Level)
    (expression : Operand) (i : Nat) : Outcome :=
  let found := stream.lookahead i
  match found.kind?, outer with
  | some (.keyword .or), _ =>
    resume policy stream ⟨outer, ⟨some ⟨expression, found.position⟩, none⟩, .operand⟩ (i + 1)
  | some .closeGroup, level :: outer =>
    (State.complete policy ⟨outer, level, .operand⟩ expression).bind
      fun s => resume policy stream s (i + 1)
  | none, [] => .ok expression.tree
  | _, _ => .error (unexpected
      [.connective, if outer.isEmpty then .endOfInput else .closeGroup] found)

/-- Behind an expression in a group another `OR` or the end of the group is expected. -/
theorem resumeBehind_unexpected {expression : Operand}
    (hor : (stream.lookahead i).kind? ≠ some (.keyword .or))
    (hclosing : (stream.lookahead i).kind? ≠ some .closeGroup) :
    resumeBehind policy stream (level :: outer) expression i =
      .error (unexpected [.connective, .closeGroup] (stream.lookahead i)) := by
  unfold resumeBehind
  grind

/-- A conjunction that does not go on is joined with the disjunction before it. -/
theorem resume_connective {disjunction : Option Pending} {conjunction : Operand}
    (hand : (stream.lookahead i).kind? ≠ some (.keyword .and)) :
    resume policy stream ⟨outer, ⟨disjunction, none⟩, .connective conjunction⟩ i =
      (joinPending policy .or disjunction conjunction).bind
        fun expression => resumeBehind policy stream outer expression i := by
  cases hnext : stream.lookahead i with
  | token u =>
    rw [hnext, Lookahead.kind?_token] at hand
    rw [resume_token hnext]
    cases hor : joinPending policy .or disjunction conjunction with
    | error e =>
      cases hkind : u.kind <;> simp_all [State.next, State.expression, Except.bind]
    | ok expression =>
      cases hkind : u.kind with
      | keyword k =>
        cases k with
        | and => exact absurd (congrArg some hkind) hand
        | or =>
          simp [State.next, State.expression, resumeBehind, Lookahead.position, Except.bind,
            hor, hkind, hnext]
      | closeGroup =>
        cases outer <;>
          simp [State.next, State.expression, resumeBehind, State.unexpected_eq, State.expected,
            Except.bind, hor, hkind, hnext]
      | _ =>
        simp [State.next, State.expression, resumeBehind, State.unexpected_eq, State.expected,
          Except.bind, hor, hkind, hnext]
  | endOfInput position =>
    obtain ⟨rfl, hend⟩ := resume_end policy hnext
      ⟨outer, ⟨disjunction, none⟩, .connective conjunction⟩
    rw [hend]
    cases hor : joinPending policy .or disjunction conjunction with
    | error e => simp [State.finish, State.expression, Except.bind, hor]
    | ok expression =>
      cases outer <;>
        simp [State.finish, State.expression, resumeBehind, State.unexpected_eq, State.expected,
          Except.bind, hor, hnext]

/-! ## calls in their context -/

/-- Where a chain of `k` may stand, with `depth` groups open: what comes of the query when
a link of it is next, behind a connective that waits or none (`read`), and what comes of
it behind the chain (`use`). -/
inductive Context (policy : Policy) (stream : TokenStream) : (k : Connective) → (depth : Nat) →
    (read : Option Pending → Nat → Outcome) → (use : Operand → Nat → Outcome) → Prop
  | and (outer : List Level) (disjunction : Option Pending) :
      Context policy stream .and outer.length
        (fun left => resume policy stream ⟨outer, ⟨disjunction, left⟩, .operand⟩)
        (fun o => resume policy stream ⟨outer, ⟨disjunction, none⟩, .connective o⟩)
  | or (outer : List Level) :
      Context policy stream .or outer.length
        (fun left => resume policy stream ⟨outer, ⟨left, none⟩, .operand⟩)
        (resumeBehind policy stream outer)

/-- The call does what the steps do that read its tokens, from index `i` to index `j`. -/
def Routine.Simulates (policy : Policy) (stream : TokenStream) (depth i j : Nat)
    (r : Except ParseError Operand) : Routine → Prop
  | .phrase (some k) => ∀ {read use}, Context policy stream k depth read use →
      read none i = r.bind fun o => use o j
  | .rest k left => ∀ {read use}, Context policy stream k depth read use →
      use left i = r.bind fun o => use o j
  | .phrase none | .group | .comparison => ∀ {read use}, Context policy stream .and depth read use →
      ∀ left, read left i = r.bind fun o => (joinPending policy .and left o).bind fun o => use o j

variable {k : Connective} {depth j : Nat} {read : Option Pending → Nat → Outcome}
  {use : Operand → Nat → Outcome} {routine : Routine} {t t' : Trail}
  {r : Except ParseError Operand}

/-- A connective that goes on with the chain waits for its next link. -/
theorem Context.keyword (h : Context policy stream k depth read use) {keyword : Token}
    (hnext : stream.lookahead i = .token keyword) (hkeyword : keyword.kind = .keyword k)
    (left : Operand) : use left i = read (some ⟨left, keyword.position⟩) (i + 1) := by
  cases h with
  | and outer disjunction =>
    show resume policy stream _ i = _
    rw [resume_token hnext]
    simp [State.next, hkeyword, Except.bind]
  | or outer => simp [resumeBehind, hnext, hkeyword, Lookahead.position]

/-- The connective of the chain that is called for. -/
def Routine.connective? : Routine → Option Connective
  | .phrase loosest => loosest
  | .rest k _ => some k
  | .group | .comparison => none

/-- A chain ends where no connective of its own follows. -/
theorem Returns.kind?_ne {o : Operand} (h : Returns policy stream routine t (.ok o) t')
    (hchain : routine.connective? = some k) :
    (stream.lookahead t'.now.next).kind? ≠ some (.keyword k) := by
  generalize hr : Except.ok o = r at h
  induction h with
  | chain hlink hrest ihlink ihrest => exact ihrest hchain hr
  | last hnext =>
    cases hchain
    exact hnext
  | more hnext hkeyword hlink hjoin hrest ihlink ihrest => exact ihrest hchain hr
  | group => cases hchain
  | comparison => cases hchain
  | closed => cases hchain
  | value => cases hchain
  | _ => cases hr

/-- A link is joined with the chain before it. -/
theorem Returns.link (h : Returns policy stream (.phrase k.tighter) t r t')
    (hsimulates : (Routine.phrase k.tighter).Simulates policy stream depth t.now.next t'.now.next r)
    (hcontext : Context policy stream k depth read use) (left : Option Pending) :
    read left t.now.next =
      r.bind fun o => (joinPending policy k left o).bind fun o => use o t'.now.next := by
  cases hcontext with
  | and outer disjunction => exact hsimulates (.and outer disjunction) left
  | or outer =>
    refine (hsimulates (.and outer left)).trans ?_
    cases r with
    | error e => rfl
    | ok o => exact resume_connective (h.kind?_ne rfl)

/-- An operand is read wherever it may stand in a conjunction. -/
theorem simulates_operand
    (h : ∀ (outer : List Level) (level : Level), depth = outer.length →
      resume policy stream ⟨outer, level, .operand⟩ i =
        r.bind fun o => (State.complete policy ⟨outer, level, .operand⟩ o).bind
          fun s => resume policy stream s j) :
    (Routine.phrase none).Simulates policy stream depth i j r := by
  intro read use hcontext left
  generalize hdepth : depth = d at hcontext
  cases hcontext with
  | and outer disjunction =>
    refine (h outer ⟨disjunction, left⟩ hdepth).trans ?_
    cases r with
    | error e => rfl
    | ok o =>
      simp only [Except.bind, State.complete]
      cases joinPending policy .and left o <;> rfl

/-- A field is read. -/
theorem resume_field {field : Token} (hnext : stream.lookahead i = .token field)
    (hfield : field.kind = .field) :
    resume policy stream ⟨outer, level, .operand⟩ i =
      resume policy stream ⟨outer, level, .field field.text⟩ (i + 1) := by
  rw [resume_token hnext]
  simp only [State.next, hfield, Except.bind]

/-- A field and its operator are read. -/
theorem resume_operator {field operator : Token} {op : Operator}
    (hnext : stream.lookahead i = .token field) (hfield : field.kind = .field)
    (hnext₁ : stream.lookahead (i + 1) = .token operator)
    (hoperator : operator.kind = .operator op) :
    resume policy stream ⟨outer, level, .operand⟩ i =
      resume policy stream ⟨outer, level, .comparison field.text op.relation⟩ (i + 2) := by
  rw [resume_field hnext hfield, resume_token hnext₁]
  simp only [State.next, hoperator, Except.bind]

/-- A group that may be opened is read as an expression, with one more level around. -/
theorem resume_group {opening : Token} (hnext : stream.lookahead i = .token opening)
    (hopening : opening.kind = .openGroup) (hlength : depth = outer.length)
    (hdepth : Policy.exceeded? policy.maxDepth (depth + 1) = none)
    (hinner : (Routine.phrase (some .or)).Simulates policy stream (depth + 1) (i + 1) j r) :
    resume policy stream ⟨outer, level, .operand⟩ i =
      r.bind fun o => resumeBehind policy stream (level :: outer) o j := by
  subst hlength
  rw [resume_token hnext]
  simp only [State.next, hopening, State.depth, hdepth, Except.bind]
  exact hinner (.or (level :: outer))

/-- Each way through a call does what the steps do that read its tokens. -/
theorem Returns.simulates (h : Returns policy stream routine t r t') :
    routine.Simulates policy stream t.now.depth t.now.next t'.now.next r := by
  -- The induction is on the way through the call, whatever its context: the chain of `OR`
  -- in a group is read with one more level around than the group itself.
  induction h with
  | chain hlink hrest ihlink ihrest =>
    intro read use hcontext
    rw [hlink.link ihlink hcontext none]
    rw [hlink.depth_eq.1] at ihrest
    exact ihrest hcontext
  | chainError hlink ihlink => exact fun hcontext => hlink.link ihlink hcontext none
  | last hnext => exact fun _ => rfl
  | @more k left right joined keyword r t t₁ t₂ hnext hkeyword hlink hjoin hrest ihlink ihrest =>
    intro read use hcontext
    have hdepth := hlink.depth_eq.1
    have hjoin' : joinPending policy k (some ⟨left, keyword.position⟩) right = .ok joined := hjoin
    rw [hdepth] at ihrest
    rw [hcontext.keyword hnext hkeyword]
    refine (hlink.link ihlink hcontext _).trans ?_
    simp only [Except.bind, hjoin']
    exact ihrest hcontext
  | moreError hnext hkeyword hlink ihlink =>
    intro read use hcontext
    rw [hcontext.keyword hnext hkeyword]
    exact hlink.link ihlink hcontext _
  | @tooHigh k left right keyword e t t₁ hnext hkeyword hlink hjoin ihlink =>
    intro read use hcontext
    have hjoin' : joinPending policy k (some ⟨left, keyword.position⟩) right = .error e := hjoin
    rw [hcontext.keyword hnext hkeyword]
    refine (hlink.link ihlink hcontext _).trans ?_
    simp only [Except.bind, hjoin']
  | group hnext hopening hgroup ih => exact ih
  | comparison hnext hfield hcomparison ih => exact ih
  | noOperand hgroup hfield =>
    refine simulates_operand fun outer level hlength => ?_
    refine resume_unexpected (by simp) fun kind hkind => ?_
    cases kind <;> simp_all [State.expected, Expectation.coversKind]
  | tooDeep hnext hopening hdepth =>
    refine simulates_operand fun outer level hlength => ?_
    rw [resume_token hnext]
    simp [State.next, hopening, State.depth, ← hlength, hdepth, Except.bind]
  | groupError hnext hopening hdepth hinner ih =>
    exact simulates_operand fun outer level hlength =>
      resume_group hnext hopening hlength hdepth ih
  | unclosed hnext hopening hdepth hinner hclosing ih =>
    refine simulates_operand fun outer level hlength => ?_
    refine (resume_group hnext hopening hlength hdepth ih).trans ?_
    exact resumeBehind_unexpected (hinner.kind?_ne rfl) hclosing
  | closed hnext hopening hdepth hinner hnext' hclosing ih =>
    refine simulates_operand fun outer level hlength => ?_
    refine (resume_group hnext hopening hlength hdepth ih).trans ?_
    simp [Except.bind, resumeBehind, hnext', hclosing]
  | noOperator hnext hfield hoperator =>
    refine simulates_operand fun outer level hlength => ?_
    rw [resume_field hnext hfield]
    refine resume_unexpected (by simp) fun kind hkind => ?_
    cases kind <;> simp_all [State.expected, Expectation.coversKind]
  | noValue hnext hfield hnext₁ hoperator hvalue =>
    refine simulates_operand fun outer level hlength => ?_
    rw [resume_operator hnext hfield hnext₁ hoperator]
    refine resume_unexpected (by simp) fun kind hkind => ?_
    cases kind <;> simp_all [State.expected, Expectation.coversKind]
  | notAllowed hnext hfield hnext₁ hoperator hnext₂ hvalue hname =>
    refine simulates_operand fun outer level hlength => ?_
    rw [resume_operator hnext hfield hnext₁ hoperator, resume_token hnext₂]
    simp [State.next, hvalue, hname, Except.bind]
  | value hnext hfield hnext₁ hoperator hnext₂ hvalue hname =>
    refine simulates_operand fun outer level hlength => ?_
    rw [resume_operator hnext hfield hnext₁ hoperator, resume_token hnext₂]
    simp [State.next, hvalue, hname, Except.bind, State.complete]

/-- **Recursive descent answers every query as reading its tokens one by one does.** -/
theorem query_eq_parseTokens (policy : Policy) (stream : TokenStream) :
    ∃ trail enough, ∀ nesting ≥ enough, (query policy stream nesting).after (.start 0 0) =
      some (policy.parseTokens stream, trail) := by
  obtain ⟨r, t, h⟩ := exists_returns policy stream (.phrase (some .or)) (.start 0 0) trivial
  have hresume : policy.parseTokens stream =
      r.bind fun o => resumeBehind policy stream [] o t.now.next := by
    rw [← resume_start]
    exact h.simulates (.or [])
  obtain ⟨enough, hcall⟩ := h.settles
  refine ⟨t, enough, fun nesting hnesting => ?_⟩
  rw [hresume, query, Descent.after_bind, hcall nesting hnesting]
  cases r with
  | error e => rfl
  | ok o =>
    have hor := h.kind?_ne rfl
    cases hnext : stream.lookahead t.now.next with
    | endOfInput position => simp [hnext, Except.bind, resumeBehind]
    | token u =>
      rw [hnext, Lookahead.kind?_token] at hor
      cases hkind : u.kind <;> simp_all [Except.bind, resumeBehind]

/-! ## all calls -/

/-- **Every call ends, and stays in bounds.**  A query is answered by its calls.  Whatever
is called for from its first token on, at the end of the tokens or before it and with as
many groups open as the policy allows: on the way, also to an error, the end of the tokens
is not passed, no more groups are open than the policy allows, and no more calls for groups
are inside one another than it allows behind those open before.  If the call succeeds it
has read tokens with balanced parentheses, as many groups are open as before, and it
returns the height of its predicate. -/
theorem call_invariant (policy : Policy) (stream : TokenStream) :
    (∃ trail enough, ∀ nesting ≥ enough, (query policy stream nesting).after (.start 0 0) =
      some (policy.parseTokens stream, trail)) ∧
    ∀ (routine : Routine) (next depth : Nat), routine.IsWhole →
      routine.StartsAt (stream.lookahead next) → next ≤ stream.tokens.length →
      (∀ limit ∈ policy.maxDepth, depth ≤ limit) →
      ∃ r trail, Settles policy stream routine (.start next depth) r trail ∧
        (∀ m ∈ trail.moments, m.Safe policy stream depth) ∧
        ∀ o, r = .ok o → next < trail.now.next ∧ trail.now.next ≤ stream.tokens.length ∧
          trail.now.depth = depth ∧
          Balanced ((stream.tokens.drop next).take (trail.now.next - next)) ∧
          o.height = o.tree.height := by
  refine ⟨query_eq_parseTokens policy stream, ?_⟩
  intro routine next depth hwhole hstart hnext hdepth
  obtain ⟨r, trail, h⟩ := exists_returns policy stream routine (.start next depth) hstart
  have hsafe := h.safe (Trail.safe_start hnext hdepth) rfl
  refine ⟨r, trail, h.settles, hsafe, ?_⟩
  rintro o rfl
  obtain ⟨ts, hts, hyields⟩ := h.exists_consumes
  obtain ⟨⟨loosest, hderives⟩, hexact⟩ := hyields.derives hwhole
  obtain ⟨d, rfl, -⟩ := hderives
  refine ⟨(h.next_lt hwhole).1, hsafe.now.next, h.depth_eq.1, ?_, hexact⟩
  have hread : d.tokens = (stream.tokens.drop next).take (trail.now.next - next) := hts.eq_take
  exact hread ▸ d.balanced

/-- The inner group of `((a:1))`, where two groups may be open. -/
theorem call_invariant_inner :
    let policy : Policy := ⟨none, some 2, none⟩
    let opening (position : Nat) : Token := ⟨.openGroup, "(", position⟩
    let closing (position : Nat) : Token := ⟨.closeGroup, ")", position⟩
    let field : Token := ⟨.field, "a", 2⟩
    let operator : Token := ⟨.operator .equal, ":", 3⟩
    let value : Token := ⟨.literal false, "1", 4⟩
    let inner := [opening 1, field, operator, value, closing 5]
    let stream : TokenStream := ⟨opening 0 :: (inner ++ [closing 6]), 7⟩
    ∃ o trail, Settles policy stream .group (.start 1 1) (.ok o) trail ∧
      trail.now.next = 6 ∧ trail.now.depth = 1 ∧
      (∀ m ∈ trail.moments, m.Safe policy stream 1) ∧ Balanced inner ∧
      o.height = o.tree.height := by
  intro policy opening closing field operator value inner stream
  let o : Operand := ⟨.comparison "a" .equal (State.value false "1"), 1⟩
  let inside := (Trail.start 1 1).advance.enter
  let behind := inside.advance.advance.advance
  have hcomparison : Returns policy stream .comparison inside (.ok o) behind :=
    @Returns.value policy stream field operator value .equal false inside
      rfl rfl rfl rfl rfl rfl rfl
  have hexpression : Returns policy stream (.phrase (some .or)) inside (.ok o) behind :=
    .chain (.chain (.comparison rfl rfl hcomparison) (.last (by decide))) (.last (by decide))
  have hgroup : Returns policy stream .group (.start 1 1) (.ok o) behind.leave.advance.exit :=
    .closed rfl rfl rfl hexpression rfl rfl
  obtain ⟨-, hcalls⟩ := call_invariant policy stream
  obtain ⟨r, trail, hsettles, hsafe, hok⟩ := hcalls .group 1 1 (fun _ _ => Routine.noConfusion) rfl
    (by decide) (by rintro _ ⟨⟩; decide)
  obtain ⟨rfl, rfl⟩ := hsettles.unique hgroup.settles
  obtain ⟨-, -, hdepth, hbalanced, hheight⟩ := hok _ rfl
  exact ⟨_, _, hsettles, rfl, hdepth, hsafe, hbalanced, hheight⟩

end FilterQuery.Parse
