import FilterQuery.Proofs.Descent
import FilterQuery.Proofs.Openings

/-!
# FilterQuery.Proofs.Calls

What holds of every call of the reader by recursive descent.

* `Returns.exists_consumes` — a call that succeeds has read a phrase of the grammar, from
  where it started, and returns what that phrase denotes;
* `Derivation.balanced` — so the parentheses that it read are balanced;
* `Returns.safe` — no call goes past the end or below the depth that is allowed, whether it
  succeeds or not;
* `exists_returns` — every call ends.
-/

namespace FilterQuery

open Token

/-! ## balanced parentheses -/

/-- As many parentheses are closed as are opened, and none before it is opened. -/
structure Balanced (ts : List Token) : Prop where
  total : ts.countP opensGroup = ts.countP closesGroup
  front : ∀ us, us <+: ts → us.countP closesGroup ≤ us.countP opensGroup

namespace Balanced

variable {ts us : List Token}

/-- Tokens without parentheses. -/
theorem of_forall (h : ∀ t ∈ ts, t.opensGroup = false ∧ t.closesGroup = false) : Balanced ts := by
  have hcount (P : Token → Bool) (hP : ∀ t ∈ ts, P t = false) {vs : List Token} (hvs : vs <+: ts) :
      vs.countP P = 0 :=
    List.countP_eq_zero.mpr fun t ht => by simp [hP t (hvs.subset ht)]
  have hopens {vs : List Token} := @hcount opensGroup (fun t ht => (h t ht).1) vs
  have hcloses {vs : List Token} := @hcount closesGroup (fun t ht => (h t ht).2) vs
  refine ⟨by rw [hopens List.prefix_rfl, hcloses List.prefix_rfl], fun vs hvs => ?_⟩
  rw [hcloses hvs]
  exact Nat.zero_le _

/-- One behind the other. -/
theorem append (hts : Balanced ts) (hus : Balanced us) : Balanced (ts ++ us) := by
  refine ⟨by rw [List.countP_append, List.countP_append, hts.total, hus.total], ?_⟩
  intro vs hvs
  obtain ⟨ws, hall⟩ := hvs
  obtain ⟨xs, rfl, rfl⟩ | ⟨xs, rfl, rfl⟩ := List.append_eq_append_iff.mp hall
  · exact hts.front vs (List.prefix_append ..)
  · have htotal := hts.total
    have hfront := hus.front xs (List.prefix_append ..)
    rw [List.countP_append, List.countP_append]
    omega

/-- In parentheses. -/
theorem group (hts : Balanced ts) {opening closing : Token} (hopening : opening.kind = .openGroup)
    (hclosing : closing.kind = .closeGroup) : Balanced (opening :: (ts ++ [closing])) := by
  have htotal := hts.total
  refine ⟨by simp [opensGroup, closesGroup, hopening, hclosing]; omega, fun vs hvs => ?_⟩
  cases vs with
  | nil => exact Nat.le_refl _
  | cons v vs =>
    obtain ⟨rfl, hinside⟩ := List.cons_prefix_cons.mp hvs
    obtain rfl | hinside := List.prefix_concat_iff.mp hinside
    · simp [opensGroup, closesGroup, hopening, hclosing]
      omega
    · have hfront := hts.front vs hinside
      simp [opensGroup, closesGroup, hopening]
      omega

end Balanced

/-- What has a derivation is balanced. -/
theorem Derivation.balanced (d : Derivation c) : Balanced d.tokens := by
  induction d with
  | chain first rest ihfirst ihrest => exact ihfirst.append ihrest
  | last => exact .of_forall (by simp [tokens])
  | more keyword hkeyword next rest ihnext ihrest =>
    have hk : Balanced [keyword] := .of_forall (by simp [opensGroup, closesGroup, hkeyword])
    exact hk.append (ihnext.append ihrest)
  | group opening hopening inner closing hclosing ih => exact ih.group hopening hclosing
  | comparison field operator value op quoted hfield hoperator hvalue =>
    exact .of_forall (by simp [tokens, opensGroup, closesGroup, hfield, hoperator, hvalue])

/-- No phrase is empty. -/
theorem Derives.ne_nil {loosest : Option Connective} {ts : List Token} {p : Predicate}
    (h : Derives (.phrase loosest) ts p) : ts ≠ [] := by
  obtain ⟨⟨⟨operand, _⟩, _⟩, rfl, -⟩ := h.toExpression
  cases operand <;> simp [Derivation.tokens]

namespace Parse

variable {policy : Policy} {stream : TokenStream} {routine : Routine} {t t' : Trail}
  {r : Except ParseError Operand}

/-! ## what is read -/

/-- A token that is next. -/
theorem lookahead_eq_token_iff {i : Nat} {u : Token} :
    stream.lookahead i = .token u ↔ stream.tokens[i]? = some u := by
  unfold TokenStream.lookahead
  cases stream.tokens[i]? <;> simp

/-- Where a token is next the tokens have not ended. -/
theorem lt_length_of_lookahead {i : Nat} {u : Token} (h : stream.lookahead i = .token u) :
    i < stream.tokens.length :=
  (List.getElem?_eq_some_iff.mp (lookahead_eq_token_iff.mp h)).1

/-- The tokens from one index to another. -/
structure Consumes (stream : TokenStream) (i j : Nat) (ts : List Token) : Prop where
  tokens : stream.tokens.drop i = ts ++ stream.tokens.drop j
  next : j = i + ts.length

namespace Consumes

variable {i j k : Nat} {ts us : List Token}

/-- Nothing was read. -/
theorem nil (i : Nat) : Consumes stream i i [] := ⟨rfl, rfl⟩

/-- One token was read. -/
theorem advance {u : Token} (h : stream.lookahead i = .token u) :
    Consumes stream i (i + 1) [u] := by
  refine ⟨?_, rfl⟩
  obtain ⟨hlt, hu⟩ := List.getElem?_eq_some_iff.mp (lookahead_eq_token_iff.mp h)
  rw [List.drop_eq_getElem_cons hlt, hu]
  rfl

/-- First some tokens were read, then others. -/
theorem append (h : Consumes stream i j ts) (h' : Consumes stream j k us) :
    Consumes stream i k (ts ++ us) :=
  ⟨by rw [h.tokens, h'.tokens, List.append_assoc],
    by rw [h'.next, h.next, List.length_append, Nat.add_assoc]⟩

/-- They are a part of all tokens. -/
theorem eq_take (h : Consumes stream i j ts) : ts = (stream.tokens.drop i).take (j - i) := by
  rw [h.tokens, h.next, Nat.add_sub_cancel_left, List.take_left]

/-- If something was read the end was not reached before. -/
theorem lt_length (h : Consumes stream i j ts) (hts : ts ≠ []) :
    i < j ∧ i < stream.tokens.length := by
  have hlength := congrArg List.length h.tokens
  have hnext := h.next
  have hpos := List.length_pos_iff.mpr hts
  simp only [List.length_drop, List.length_append] at hlength
  omega

end Consumes

/-- What a successful call returns for the tokens that it read: a phrase, or a longer chain
if the rest of one was called for. -/
def Routine.Yields : Routine → List Token → Operand → Prop
  | .phrase loosest, ts, o => Derives (.phrase loosest) ts o.tree ∧ o.Exact
  | .rest k left, ts, o => left.Exact → o.Exact ∧ ∀ us, Derives (.phrase (some k)) us left.tree →
      Derives (.phrase (some k)) (us ++ ts) o.tree
  | .group, ts, o | .comparison, ts, o => Derives .operand ts o.tree ∧ o.Exact

/-- A call that succeeds has read what it was called for. -/
theorem Returns.exists_consumes {o : Operand} (h : Returns policy stream routine t (.ok o) t') :
    ∃ ts, Consumes stream t.now.next t'.now.next ts ∧ routine.Yields ts o := by
  generalize hr : Except.ok o = r at h
  induction h generalizing o with
  | chain hlink hrest ihlink ihrest =>
    obtain ⟨ts, hts, hderives, hexact⟩ := ihlink rfl
    obtain ⟨us, hus, hyields⟩ := ihrest hr
    obtain ⟨hexact', hchain⟩ := hyields hexact
    exact ⟨ts ++ us, hts.append hus, hchain ts hderives.single, hexact'⟩
  | last hnext =>
    cases hr
    exact ⟨[], .nil _, fun hexact => ⟨hexact, fun us hus => by rwa [List.append_nil]⟩⟩
  | @more k left right joined keyword r t t₁ t₂ hnext hkeyword hlink hjoin hrest ihlink ihrest =>
    obtain ⟨ts, hts, hderives, hexact⟩ := ihlink rfl
    obtain ⟨us, hus, hyields⟩ := ihrest hr
    have hjoin' : joinPending policy k (some ⟨left, keyword.position⟩) right = .ok joined := hjoin
    obtain ⟨rfl, -⟩ := joinPending_eq_ok_iff.mp hjoin'
    refine ⟨_, (Consumes.advance hnext).append (hts.append hus), fun hleft => ?_⟩
    obtain ⟨hexact', hchain⟩ := hyields (.joined (by simpa using hleft) hexact)
    refine ⟨hexact', fun vs hvs => ?_⟩
    simpa using hchain _ (hvs.snoc hkeyword hderives)
  | group hnext hopening hgroup ih => exact ih hr
  | comparison hnext hfield hcomparison ih => exact ih hr
  | closed hnext hopening hdepth hinner hnext' hclosing ih =>
    cases hr
    obtain ⟨ts, hts, hderives, hexact⟩ := ih rfl
    exact ⟨_, (Consumes.advance hnext).append (hts.append (.advance hnext')),
      hderives.group hopening hclosing, hexact⟩
  | value hnext hfield hnext₁ hoperator hnext₂ hvalue hname =>
    cases hr
    have hcomparison := Derives.comparison hfield hoperator hvalue
    rw [Operator.denoted_eq, Literal.denoted_eq] at hcomparison
    exact ⟨_, (Consumes.advance hnext).append ((Consumes.advance hnext₁).append (.advance hnext₂)),
      hcomparison, .comparison ..⟩
  | _ => cases hr

/-- A call that succeeds leaves as many groups open, and calls for groups under way, as
there were. -/
theorem Returns.depth_eq {o : Operand} (h : Returns policy stream routine t (.ok o) t') :
    t'.now.depth = t.now.depth ∧ t'.now.calls = t.now.calls := by
  generalize hr : Except.ok o = r at h
  induction h generalizing o with
  | chain hlink hrest ihlink ihrest =>
    exact ⟨(ihrest hr).1.trans (ihlink rfl).1, (ihrest hr).2.trans (ihlink rfl).2⟩
  | last hnext => exact ⟨rfl, rfl⟩
  | more hnext hkeyword hlink hjoin hrest ihlink ihrest =>
    exact ⟨(ihrest hr).1.trans (ihlink rfl).1, (ihrest hr).2.trans (ihlink rfl).2⟩
  | group hnext hopening hgroup ih => exact ih hr
  | comparison hnext hfield hcomparison ih => exact ih hr
  | closed hnext hopening hdepth hinner hnext' hclosing ih =>
    obtain ⟨hdepth', hcalls'⟩ := ih rfl
    simp [hdepth', hcalls']
  | value => exact ⟨rfl, rfl⟩
  | _ => cases hr

/-- Is it called for from its first token on?  The rest of a chain is not. -/
def Routine.IsWhole (routine : Routine) : Prop := ∀ k left, routine ≠ .rest k left

/-- What is called for from its first token on is a phrase. -/
theorem Routine.Yields.derives {ts : List Token} {o : Operand} (h : routine.Yields ts o)
    (hwhole : routine.IsWhole) : (∃ loosest, Derives (.phrase loosest) ts o.tree) ∧ o.Exact := by
  cases routine with
  | rest k left => exact absurd rfl (hwhole k left)
  | phrase loosest => exact ⟨⟨loosest, h.1⟩, h.2⟩
  | group => exact ⟨⟨none, h.1⟩, h.2⟩
  | comparison => exact ⟨⟨none, h.1⟩, h.2⟩

/-- A call that succeeds for something from its first token on has read tokens. -/
theorem Returns.next_lt {o : Operand} (h : Returns policy stream routine t (.ok o) t')
    (hwhole : routine.IsWhole) :
    t.now.next < t'.now.next ∧ t.now.next < stream.tokens.length := by
  obtain ⟨ts, hts, hyields⟩ := h.exists_consumes
  obtain ⟨⟨loosest, hderives⟩, -⟩ := hyields.derives hwhole
  exact hts.lt_length hderives.ne_nil

/-! ## bounds -/

/-- At a moment the end was not passed, no more groups were open than the policy allows,
and no more calls for groups were under way than it allows behind the `start` groups that
were open before. -/
structure Moment.Safe (policy : Policy) (stream : TokenStream) (start : Nat) (m : Moment) :
    Prop where
  next : m.next ≤ stream.tokens.length
  depth : ∀ limit ∈ policy.maxDepth, m.depth ≤ limit
  calls : ∀ limit ∈ policy.maxDepth, start + m.calls ≤ limit

/-- All that the calls went through is safe. -/
def Trail.Safe (policy : Policy) (stream : TokenStream) (start : Nat) (trail : Trail) : Prop :=
  ∀ m ∈ trail.moments, m.Safe policy stream start

/-- Each group that is open was open before or has its call under way. -/
def Trail.Steady (start : Nat) (trail : Trail) : Prop := trail.now.depth = start + trail.now.calls

variable {start : Nat}

/-- Nothing is opened by going past a token. -/
theorem Trail.Steady.advance (h : t.Steady start) : t.advance.Steady start := h

/-- A group is opened by its call. -/
theorem Trail.Steady.enter (h : t.Steady start) : t.enter.Steady start := congrArg (· + 1) h

/-- A call that succeeds closes the groups that it opened. -/
theorem Returns.steady {o : Operand} (h : Returns policy stream routine t (.ok o) t')
    (ht : t.Steady start) : t'.Steady start := by
  rw [Trail.Steady, h.depth_eq.1, h.depth_eq.2]
  exact ht

/-- The calls are where their trail ends. -/
theorem Trail.Safe.now (h : t.Safe policy stream start) : t.now.Safe policy stream start :=
  h t.now List.mem_cons_self

/-- One more safe moment. -/
theorem Trail.Safe.move {step : Moment → Moment} (h : t.Safe policy stream start)
    (hnow : (step t.now).Safe policy stream start) : (t.move step).Safe policy stream start :=
  List.forall_mem_cons.mpr ⟨hnow, h⟩

/-- A token may be read. -/
theorem Trail.Safe.advance (h : t.Safe policy stream start) {u : Token}
    (hnext : stream.lookahead t.now.next = .token u) : t.advance.Safe policy stream start :=
  h.move ⟨lt_length_of_lookahead hnext, h.now.depth, h.now.calls⟩

/-- A group may be opened where the policy allows it. -/
theorem Trail.Safe.enter (h : t.Safe policy stream start) (hsteady : t.Steady start)
    (hdepth : Policy.exceeded? policy.maxDepth (t.now.depth + 1) = none) :
    t.enter.Safe policy stream start := by
  rw [Policy.exceeded?_eq_none, hsteady] at hdepth
  exact h.move ⟨h.now.next, fun limit hlimit => hsteady ▸ hdepth limit hlimit, hdepth⟩

/-- A group may be closed. -/
theorem Trail.Safe.leave (h : t.Safe policy stream start) : t.leave.Safe policy stream start :=
  h.move ⟨h.now.next, fun limit hlimit => Nat.le_trans (Nat.sub_le ..) (h.now.depth limit hlimit),
    h.now.calls⟩

/-- A call for a group may end. -/
theorem Trail.Safe.exit (h : t.Safe policy stream start) : t.exit.Safe policy stream start :=
  h.move ⟨h.now.next, h.now.depth, fun limit hlimit =>
    Nat.le_trans (Nat.add_le_add_left (Nat.sub_le ..) start) (h.now.calls limit hlimit)⟩

/-- A first call may be made at the end of the tokens or before it, with as many groups open
as the policy allows. -/
theorem Trail.safe_start {next : Nat} (hnext : next ≤ stream.tokens.length)
    (hdepth : ∀ limit ∈ policy.maxDepth, start ≤ limit) :
    (Trail.start next start).Safe policy stream start :=
  List.forall_mem_singleton.mpr ⟨hnext, hdepth, hdepth⟩

/-- A call stays in bounds, whether it succeeds or not. -/
theorem Returns.safe (h : Returns policy stream routine t r t') (ht : t.Safe policy stream start)
    (hsteady : t.Steady start) : t'.Safe policy stream start := by
  induction h with
  | chain hlink hrest ihlink ihrest => exact ihrest (ihlink ht hsteady) (hlink.steady hsteady)
  | chainError hlink ihlink => exact ihlink ht hsteady
  | last hnext => exact ht
  | more hnext hkeyword hlink hjoin hrest ihlink ihrest =>
    exact ihrest (ihlink (ht.advance hnext) hsteady.advance) (hlink.steady hsteady.advance)
  | moreError hnext hkeyword hlink ihlink => exact ihlink (ht.advance hnext) hsteady.advance
  | tooHigh hnext hkeyword hlink hjoin ihlink => exact ihlink (ht.advance hnext) hsteady.advance
  | group hnext hopening hgroup ih => exact ih ht hsteady
  | comparison hnext hfield hcomparison ih => exact ih ht hsteady
  | noOperand hgroup hfield => exact ht
  | tooDeep hnext hopening hdepth => exact ht.advance hnext
  | groupError hnext hopening hdepth hinner ih =>
    exact ih ((ht.advance hnext).enter hsteady.advance hdepth) hsteady.advance.enter
  | unclosed hnext hopening hdepth hinner hclosing ih =>
    have hinside := ih ((ht.advance hnext).enter hsteady.advance hdepth) hsteady.advance.enter
    exact hinside.leave
  | closed hnext hopening hdepth hinner hnext' hclosing ih =>
    have hinside := ih ((ht.advance hnext).enter hsteady.advance hdepth) hsteady.advance.enter
    exact (hinside.leave.advance hnext').exit
  | noOperator hnext hfield hoperator => exact ht.advance hnext
  | noValue hnext hfield hnext₁ hoperator hvalue => exact (ht.advance hnext).advance hnext₁
  | notAllowed hnext hfield hnext₁ hoperator hnext₂ hvalue hname =>
    exact ((ht.advance hnext).advance hnext₁).advance hnext₂
  | value hnext hfield hnext₁ hoperator hnext₂ hvalue hname =>
    exact ((ht.advance hnext).advance hnext₁).advance hnext₂

/-! ## termination -/

/-- A group is called for at a parenthesis that opens one, and a comparison at a field. -/
def Routine.StartsAt : Routine → Lookahead → Prop
  | .group, l => l.kind? = some .openGroup
  | .comparison, l => l.kind? = some .field
  | _, _ => True

/-- What has a kind is a token. -/
theorem exists_token_of_kind? {l : Lookahead} {kind : Token.Kind} (h : l.kind? = some kind) :
    ∃ u, l = .token u ∧ u.kind = kind := by
  cases l with
  | token u => exact ⟨u, rfl, Option.some.inj h⟩
  | endOfInput position => cases h

/-- How many calls may follow one another before a token is read. -/
def Routine.rank : Routine → Nat
  | .phrase none => 1
  | .phrase (some .and) => 2
  | .phrase (some .or) => 3
  | _ => 0

/-- A call for a comparison reads three tokens at most. -/
theorem exists_returns_comparison (policy : Policy) (stream : TokenStream) {t : Trail}
    (hstart : Routine.StartsAt .comparison (stream.lookahead t.now.next)) :
    ∃ r t', Returns policy stream .comparison t r t' := by
  obtain ⟨field, hnext, hfield⟩ := exists_token_of_kind? hstart
  by_cases hoperator : ∃ op, (stream.lookahead (t.now.next + 1)).kind? = some (.operator op)
  · obtain ⟨op, hop⟩ := hoperator
    obtain ⟨operator, hnext₁, hoperator⟩ := exists_token_of_kind? hop
    by_cases hvalue : ∃ quoted, (stream.lookahead (t.now.next + 2)).kind? = some (.literal quoted)
    · obtain ⟨quoted, hquoted⟩ := hvalue
      obtain ⟨value, hnext₂, hvalue⟩ := exists_token_of_kind? hquoted
      cases hname : policy.allows field.text with
      | true => exact ⟨_, _, .value hnext hfield hnext₁ hoperator hnext₂ hvalue hname⟩
      | false => exact ⟨_, _, .notAllowed hnext hfield hnext₁ hoperator hnext₂ hvalue hname⟩
    · exact ⟨_, _, .noValue hnext hfield hnext₁ hoperator (not_exists.mp hvalue)⟩
  · exact ⟨_, _, .noOperator hnext hfield (not_exists.mp hoperator)⟩

/-- **Every call ends.**  Before another call is made a token is read, or it is for a
phrase with a tighter connective. -/
theorem exists_returns (policy : Policy) (stream : TokenStream) (routine : Routine) (t : Trail)
    (hstart : routine.StartsAt (stream.lookahead t.now.next)) :
    ∃ r t', Returns policy stream routine t r t' := by
  have hphrase (loosest : Option Connective) : Routine.IsWhole (.phrase loosest) :=
    fun _ _ => Routine.noConfusion
  match routine with
  | .phrase (some k) =>
    have hrank : Routine.rank (.phrase k.tighter) < Routine.rank (.phrase (some k)) := by
      cases k <;> decide
    obtain ⟨r, t₁, hlink⟩ := exists_returns policy stream (.phrase k.tighter) t trivial
    cases r with
    | error e => exact ⟨_, _, .chainError hlink⟩
    | ok left =>
      have hlt := hlink.next_lt (hphrase _)
      obtain ⟨r, t₂, hrest⟩ := exists_returns policy stream (.rest k left) t₁ trivial
      exact ⟨r, t₂, .chain hlink hrest⟩
  | .phrase none =>
    by_cases hgroup : (stream.lookahead t.now.next).kind? = some .openGroup
    · obtain ⟨opening, hnext, hopening⟩ := exists_token_of_kind? hgroup
      obtain ⟨r, t₁, hreturns⟩ := exists_returns policy stream .group t hgroup
      exact ⟨r, t₁, .group hnext hopening hreturns⟩
    by_cases hfield : (stream.lookahead t.now.next).kind? = some .field
    · obtain ⟨field, hnext, hkind⟩ := exists_token_of_kind? hfield
      obtain ⟨r, t₁, hreturns⟩ := exists_returns_comparison policy stream hfield
      exact ⟨r, t₁, .comparison hnext hkind hreturns⟩
    · exact ⟨_, _, .noOperand hgroup hfield⟩
  | .rest k left =>
    by_cases hkind : (stream.lookahead t.now.next).kind? = some (.keyword k)
    · obtain ⟨keyword, hnext, hkeyword⟩ := exists_token_of_kind? hkind
      have hlength := lt_length_of_lookahead hnext
      have hadvance : t.advance.now.next = t.now.next + 1 := rfl
      have hrank : Routine.rank (.phrase k.tighter) < 4 := by cases k <;> decide
      obtain ⟨r, t₁, hlink⟩ := exists_returns policy stream (.phrase k.tighter) t.advance trivial
      cases r with
      | error e => exact ⟨_, _, .moreError hnext hkeyword hlink⟩
      | ok right =>
        have hlt := hlink.next_lt (hphrase _)
        cases hjoin : join policy k ⟨left, keyword.position⟩ right with
        | error e => exact ⟨_, _, .tooHigh hnext hkeyword hlink hjoin⟩
        | ok joined =>
          obtain ⟨r, t₂, hrest⟩ := exists_returns policy stream (.rest k joined) t₁ trivial
          exact ⟨r, t₂, .more hnext hkeyword hlink hjoin hrest⟩
    · exact ⟨_, _, .last hkind⟩
  | .group =>
    obtain ⟨opening, hnext, hopening⟩ := exists_token_of_kind? hstart
    have hlength := lt_length_of_lookahead hnext
    have hadvance : t.advance.enter.now.next = t.now.next + 1 := rfl
    cases hdepth : Policy.exceeded? policy.maxDepth (t.now.depth + 1) with
    | some limit => exact ⟨_, _, .tooDeep hnext hopening hdepth⟩
    | none =>
      obtain ⟨r, t₁, hinner⟩ := exists_returns policy stream (.phrase (some .or)) t.advance.enter
        trivial
      cases r with
      | error e => exact ⟨_, _, .groupError hnext hopening hdepth hinner⟩
      | ok inner =>
        by_cases hclosing : (stream.lookahead t₁.now.next).kind? = some .closeGroup
        · obtain ⟨closing, hnext', hclosing'⟩ := exists_token_of_kind? hclosing
          exact ⟨_, _, .closed hnext hopening hdepth hinner hnext' hclosing'⟩
        · exact ⟨_, _, .unclosed hnext hopening hdepth hinner hclosing⟩
  | .comparison => exact exists_returns_comparison policy stream hstart
termination_by 4 * (stream.tokens.length - t.now.next) + routine.rank
decreasing_by
  -- The link and the rest of a chain, a group, the link and the rest behind a keyword, and
  -- the expression in a group.
  · omega
  · simp only [Routine.rank]
    omega
  · simp only [Routine.rank]
    omega
  · omega
  · simp only [Routine.rank]
    omega
  · simp only [Routine.rank]
    omega

end Parse

end FilterQuery
