import FilterQuery.Proofs.Expectations
import FilterQuery.Proofs.Spans
import Mathlib.Order.Bounds.Defs

/-!
# FilterQuery.Proofs.Refusals

Where a policy stops a query, and which of two errors is reported.  The reader under
a policy and the one without restrictions read the same tokens in the same states
until the policy stops the first of them.

* `Refuses` — the token at which a group or a field is refused; the other reader goes
  on with that token (`Refuses.step`);
* `State.next_same`, `State.run_same` — a restricted step or run is the unrestricted one,
  or the policy stops it;
* `parseTokens_same` — the same for token streams, and `not_refuses_of_eq`: where the
  outcome is the same nothing was refused on the way;
* `TokenStream.RejectsBy` — how far the reader without restrictions gets, and
  `Outcome.same_or_refused` which error that leaves.
-/

namespace FilterQuery

namespace Parse

variable {policy : Policy} {s s' : State} {t : Token} {ts : List Token} {e : ParseError}

/-! ## refusals -/

/-- The policy has the reader stop at a token with which it could go on: a parenthesis
that opens one group too many, or the value of a comparison whose field is not
allowed. -/
inductive Refuses (policy : Policy) : State → Token → ParseError → Prop
  | tooDeep {outer : List Level} {level : Level} {t : Token} {limit : Nat}
      (ht : t.kind = .openGroup)
      (hdepth : Policy.exceeded? policy.maxDepth (outer.length + 1) = some limit) :
      Refuses policy ⟨outer, level, .operand⟩ t (.tooDeep t.position limit)
  | fieldNotAllowed {outer : List Level} {level : Level} {name : String} {relation : Relation}
      {t : Token} {quoted : Bool} (ht : t.kind = .literal quoted)
      (hname : policy.allows name = false) :
      Refuses policy ⟨outer, level, .comparison name relation⟩ t (.fieldNotAllowed name)

/-- A predicate became too high, somewhere in the query. -/
def TooHigh (policy : Policy) (e : ParseError) : Prop :=
  ∃ position, ∃ limit ∈ policy.maxHeight, e = .tooHigh position limit

/-- The reader stops with the error. -/
theorem Refuses.next_eq (h : Refuses policy s t e) : s.next policy t = .error e := by
  cases h with
  | tooDeep ht hdepth => simp [State.next, State.depth, ht, hdepth]
  | fieldNotAllowed ht hname => simp [State.next, ht, hname]

/-- Without restrictions it goes on. -/
theorem Refuses.step (h : Refuses policy s t e) : ∃ s', Step .unrestricted s t s' := by
  cases h with
  | tooDeep ht hdepth => exact ⟨_, .openGroup ht rfl⟩
  | fieldNotAllowed ht hname => exact ⟨_, .value ht rfl (joinPending_unrestricted ..)⟩

/-- No syntax error is a refusal. -/
theorem Refuses.ne_unexpected (h : Refuses policy s t e) (x : SyntaxError) :
    e ≠ .unexpected x := by
  cases h <;> simp

/-! ### one step -/

/-- The outcomes are the same, unless the first is an error of which `P` holds. -/
def SameUnless {α : Type} (P : ParseError → Prop) (x y : Except ParseError α) : Prop :=
  x = y ∨ ∃ e, x = .error e ∧ P e

namespace SameUnless

variable {α β : Type} {P Q : ParseError → Prop} {x y : Except ParseError α}

/-- Nothing is asked of outcomes that are the same. -/
theorem refl (x : Except ParseError α) : SameUnless P x x := .inl rfl

/-- An error of which less is asked. -/
theorem imp (h : SameUnless P x y) (hPQ : ∀ e, P e → Q e) : SameUnless Q x y :=
  h.imp_right fun ⟨e, herror, he⟩ => ⟨e, herror, hPQ e he⟩

/-- What follows the same outcomes is the same, unless it fails in turn. -/
theorem bind {f g : α → Except ParseError β} (h : SameUnless P x y)
    (hfg : ∀ a, x = .ok a → y = .ok a → SameUnless P (f a) (g a)) :
    SameUnless P (x.bind f) (y.bind g) := by
  obtain rfl | ⟨e, rfl, he⟩ := h
  · cases x with
    | error e => exact .refl _
    | ok a => exact hfg a rfl rfl
  · exact .inr ⟨e, rfl, he⟩

end SameUnless

/-- Operands are joined as they are without restrictions, unless the result is too
high. -/
theorem joinPending_same (policy : Policy) (k : Connective) (left : Option Pending)
    (right : Operand) :
    SameUnless (TooHigh policy) (joinPending policy k left right)
      (joinPending .unrestricted k left right) := by
  cases left with
  | none => exact .refl _
  | some left =>
    simp only [joinPending, join]
    cases hlimit :
        Policy.exceeded? policy.maxHeight (max left.operand.height right.height + 1) with
    | none => exact .refl _
    | some limit =>
      exact .inr ⟨_, rfl, left.position, limit, (Policy.exceeded?_eq_some.mp hlimit).1, rfl⟩

namespace State

/-- An operand is completed as it is without restrictions, unless the conjunction is
too high. -/
theorem complete_same (policy : Policy) (s : State) (operand : Operand) :
    SameUnless (TooHigh policy) (s.complete policy operand) (s.complete .unrestricted operand) :=
  (joinPending_same policy .and s.level.conjunction operand).bind fun _ _ _ => .refl _

/-- A token is read as it is without restrictions, unless it is refused or something is
too high. -/
theorem next_same (policy : Policy) (s : State) (t : Token) :
    SameUnless (fun e => TooHigh policy e ∨ Refuses policy s t e)
      (s.next policy t) (s.next .unrestricted t) := by
  obtain ⟨outer, level, phase⟩ := s
  cases phase with
  | operand =>
    cases hkind : t.kind with
    | openGroup =>
      cases hlimit : Policy.exceeded? policy.maxDepth (outer.length + 1) with
      | none =>
        left
        simp [next, hkind, depth, hlimit, Policy.unrestricted]
      | some limit =>
        have hrefuses : Refuses policy ⟨outer, level, .operand⟩ t _ := .tooDeep hkind hlimit
        exact .inr ⟨_, hrefuses.next_eq, .inr hrefuses⟩
    | _ =>
      left
      simp [next, hkind]
  | field name =>
    left
    cases hkind : t.kind <;> simp [next, hkind]
  | comparison name relation =>
    cases hkind : t.kind with
    | literal quoted =>
      cases hname : policy.allows name with
      | true =>
        have hallows : Policy.unrestricted.allows name = true := rfl
        simp only [next, hkind, hname, hallows, if_true]
        exact (complete_same policy _ _).imp fun _ hhigh => .inl hhigh
      | false =>
        have hrefuses : Refuses policy ⟨outer, level, .comparison name relation⟩ t _ :=
          .fieldNotAllowed hkind hname
        exact .inr ⟨_, hrefuses.next_eq, .inr hrefuses⟩
    | _ =>
      left
      simp [next, hkind]
  | connective conjunction =>
    by_cases hand : t.kind = .keyword .and
    · left
      simp [next, hand]
    obtain hjoin | ⟨e, herror, hhigh⟩ :=
      joinPending_same policy .or level.disjunction conjunction
    · rw [joinPending_unrestricted] at hjoin
      cases hkind : t.kind with
      | keyword k =>
        cases k with
        | and => exact absurd hkind hand
        | or =>
          left
          simp [next, hkind, expression, hjoin]
      | closeGroup =>
        cases outer with
        | nil =>
          left
          simp [next, hkind, expression, hjoin]
        | cons around outer =>
          simp only [next, hkind, expression, hjoin, joinPending_unrestricted]
          exact (complete_same policy _ _).imp fun _ hhigh => .inl hhigh
      | _ =>
        left
        simp [next, hkind, expression, hjoin]
    · refine .inr ⟨e, ?_, .inl hhigh⟩
      cases hkind : t.kind with
      | keyword k =>
        cases k with
        | and => exact absurd hkind hand
        | or => simp [next, hkind, expression, herror]
      | _ => simp [next, hkind, expression, herror]

end State

/-! ### runs -/

/-- The policy stops the reader somewhere in the tokens: it refuses one of them, or
something is too high. -/
def Stops (policy : Policy) (s : State) (ts : List Token) (e : ParseError) : Prop :=
  TooHigh policy e ∨ ∃ before t after s', ts = before ++ t :: after ∧
    s.run policy before = .ok s' ∧ Refuses policy s' t e

/-- No syntax error comes from a policy. -/
theorem Stops.ne_unexpected (h : Stops policy s ts e) (x : SyntaxError) : e ≠ .unexpected x := by
  obtain ⟨position, limit, -, rfl⟩ | ⟨_, _, _, _, -, -, hrefuses⟩ := h
  · simp
  · exact hrefuses.ne_unexpected x

namespace State

/-- Tokens are read as they are without restrictions, unless the policy stops the
reader. -/
theorem run_same (policy : Policy) (s : State) (ts : List Token) :
    SameUnless (Stops policy s ts) (s.run policy ts) (s.run .unrestricted ts) := by
  induction ts generalizing s with
  | nil => exact .refl _
  | cons t ts ih =>
    rw [run_cons, run_cons]
    refine ((next_same policy s t).imp ?_).bind fun s' hnext _ => (ih s').imp ?_
    · intro e he
      exact he.imp_right fun hrefuses => ⟨[], t, ts, s, rfl, rfl, hrefuses⟩
    · intro e he
      refine he.imp_right ?_
      rintro ⟨before, u, after, s₁, rfl, hrun, hrefuses⟩
      refine ⟨t :: before, u, after, s₁, rfl, ?_, hrefuses⟩
      exact run_cons_eq_ok_iff.mpr ⟨s', next_eq_ok_iff.mp hnext, hrun⟩

/-- What is read under a policy is read as the same without restrictions. -/
theorem run_unrestricted_of_run (h : s.run policy ts = .ok s') :
    s.run .unrestricted ts = .ok s' := by
  obtain hsame | ⟨e, herror, -⟩ := run_same policy s ts
  · exact hsame.symm.trans h
  · rw [h] at herror
    cases herror

/-- The end of a query is read as it is without restrictions, unless something is too
high. -/
theorem finish_same (policy : Policy) (s : State) (position : Nat) :
    SameUnless (TooHigh policy) (s.finish policy position) (s.finish .unrestricted position) := by
  obtain ⟨outer, level, phase⟩ := s
  cases phase with
  | connective conjunction =>
    obtain hjoin | ⟨e, herror, hhigh⟩ :=
      joinPending_same policy .or level.disjunction conjunction
    · left
      simp only [finish, expression, hjoin]
    · exact .inr ⟨e, by simp only [finish, expression, herror], hhigh⟩
  | _ => exact .refl _

end State

/-! ## token streams -/

/-- The end of the query comes behind the last token. -/
theorem parseTokens_eq_bind (policy : Policy) (stream : TokenStream) :
    policy.parseTokens stream =
      (State.start.run policy stream.tokens).bind fun s => s.finish policy stream.size := by
  rw [Policy.parseTokens]
  cases State.start.run policy stream.tokens <;> rfl

/-- A token stream is parsed as it is without restrictions, unless the policy stops the
reader. -/
theorem parseTokens_same (policy : Policy) (stream : TokenStream) :
    SameUnless (Stops policy .start stream.tokens) (policy.parseTokens stream)
      (Policy.unrestricted.parseTokens stream) := by
  rw [parseTokens_eq_bind, parseTokens_eq_bind]
  exact (State.run_same policy .start stream.tokens).bind fun s _ _ =>
    (State.finish_same policy s stream.size).imp fun _ => .inl

/-- Where the outcome is the same, no token was refused on the way to it. -/
theorem not_refuses_of_eq {stream : TokenStream} {before after : List Token}
    (hsame : policy.parseTokens stream = Policy.unrestricted.parseTokens stream)
    (htokens : stream.tokens = before ++ t :: after)
    (hrun : State.start.run .unrestricted before = .ok s) : ¬ Refuses policy s t e := by
  intro hrefuses
  -- Whatever the policy does with the tokens before, it stops the reader at the latest
  -- here, and not with a syntax error.
  have hstop : ∃ e', State.start.run policy stream.tokens = .error e' ∧
      ∀ x, e' ≠ .unexpected x := by
    rw [htokens]
    obtain hread | ⟨e', herror, hstops⟩ := State.run_same policy .start before
    · refine ⟨e, ?_, hrefuses.ne_unexpected⟩
      rw [State.run_append_of_run (hread.trans hrun), State.run_cons, hrefuses.next_eq]
      rfl
    · refine ⟨e', ?_, hstops.ne_unexpected⟩
      rw [State.run_append, herror]
      rfl
  obtain ⟨e', herror, hne⟩ := hstop
  have hparse : policy.parseTokens stream = .error e' := by
    rw [Policy.parseTokens, herror]
  obtain ⟨x, rfl⟩ := parseTokens_unrestricted_eq_error (hsame.symm.trans hparse)
  exact hne x rfl

end Parse

/-! ## which error comes first -/

/-- The outcome is a syntax error, found at the token with index `n` or earlier.  The end
of the input stands behind the last token. -/
def TokenStream.RejectsBy (stream : TokenStream) (outcome : Outcome) (n : Nat) : Prop :=
  ∃ e i, outcome = .error (.unexpected e) ∧ stream.lookaheads[i]? = some e.found ∧ i ≤ n

/-- Which of two errors comes first: a query is answered as before or refused at the first
place of a set, and as before only if it is rejected in time for each place of the set. -/
theorem Outcome.same_or_refused {S : Set Nat} {rejected refused : Nat → Prop} {x y : Outcome}
    (hcases : x = y ∨ ∃ i, IsLeast S i ∧ ¬ rejected i ∧ refused i)
    (hsame : x = y → ∀ i ∈ S, rejected i) :
    ((∀ i, i ∉ S) → x = y) ∧
      ∀ i, IsLeast S i → (rejected i → x = y) ∧ (¬ rejected i → refused i) := by
  obtain heq | ⟨i, hfirst, hreads, hrefused⟩ := hcases
  · refine ⟨fun _ => heq, fun i hi => ⟨fun _ => heq, fun hreads => ?_⟩⟩
    exact absurd (hsame heq i hi.1) hreads
  · refine ⟨fun hnone => absurd hfirst.1 (hnone i), fun j hj => ?_⟩
    obtain rfl : i = j := Nat.le_antisymm (hfirst.2 hj.1) (hj.2 hfirst.1)
    exact ⟨fun hrejected => absurd hrejected hreads, fun _ => hrefused⟩

namespace Parse

variable {policy : Policy} {stream : TokenStream} {s : State} {t : Token} {e : ParseError}
  {read : List Token} {n : Nat}

/-- The token found stands behind all tokens that can be read. -/
theorem exists_found {x : SyntaxError}
    (h : Policy.unrestricted.parseTokens stream = .error (.unexpected x)) :
    ∃ before, stream.lookaheads[before.length]? = some x.found ∧ before <+: stream.tokens ∧
      (∃ s, State.start.run .unrestricted before = .ok s) ∧
      ∀ read s, read <+: stream.tokens → State.start.run .unrestricted read = .ok s →
        read.length ≤ before.length := by
  obtain ⟨before, after, s, hall, hrun, -, hfound⟩ := unexpected_cases h
  have hbefore : before <+: stream.tokens := prefix_of_map_token ⟨_, hall.symm⟩
  refine ⟨before, ?_, hbefore, ⟨s, hrun⟩, fun read s' hread hrun' => ?_⟩
  · rw [hall, ← List.length_map (f := Lookahead.token), List.getElem?_append_right (Nat.le_refl _),
      Nat.sub_self]
    rfl
  · -- Were more tokens read, the one found would be among them.
    refine Nat.not_lt.mp fun hlt => hfound ?_
    obtain ⟨more, rfl⟩ := List.prefix_of_prefix_length_le hbefore hread (Nat.le_of_lt hlt)
    cases more with
    | nil => simp at hlt
    | cons u more =>
      obtain ⟨rest, htokens⟩ := hread
      have hu : x.found = .token u := by
        rw [TokenStream.lookaheads, ← htokens] at hall
        simp only [List.map_append, List.map_cons, List.append_assoc, List.cons_append] at hall
        exact (List.cons.inj (List.append_cancel_left hall)).1.symm
      rw [State.run_append_of_run hrun] at hrun'
      obtain ⟨s₁, hstep, -⟩ := State.run_cons_eq_ok_iff.mp hrun'
      rw [hu]
      exact State.step_iff_expected.mp ⟨s₁, hstep⟩

/-- A query that is not rejected up to the token with index `n` can be read so far. -/
theorem exists_run_of_not_rejectsBy
    (h : ¬ stream.RejectsBy (Policy.unrestricted.parseTokens stream) n)
    (hread : read <+: stream.tokens) (hn : read.length ≤ n + 1) :
    ∃ s, State.start.run .unrestricted read = .ok s := by
  cases hrun : State.start.run .unrestricted read with
  | ok s => exact ⟨s, rfl⟩
  | error e =>
    refine absurd ?_ h
    obtain ⟨rest, htokens⟩ := hread
    have hparse : Policy.unrestricted.parseTokens stream = .error e := by
      rw [Policy.parseTokens, ← htokens, State.run_append, hrun]
      rfl
    obtain ⟨x, rfl⟩ := parseTokens_unrestricted_eq_error hparse
    obtain ⟨before, hfound, hbefore, ⟨s, hrun'⟩, -⟩ := exists_found hparse
    refine ⟨x, before.length, hparse, hfound, ?_⟩
    by_cases hlength : read.length ≤ before.length
    · obtain ⟨more, rfl⟩ := List.prefix_of_prefix_length_le ⟨rest, htokens⟩ hbefore hlength
      obtain ⟨s₁, hread, -⟩ := State.run_append_eq_ok_iff.mp hrun'
      rw [hrun] at hread
      cases hread
    · omega

/-- A query that is rejected is rejected at its end at the latest. -/
theorem rejectsBy_of_error {e : ParseError}
    (h : Policy.unrestricted.parseTokens stream = .error e) (hn : stream.tokens.length ≤ n) :
    stream.RejectsBy (Policy.unrestricted.parseTokens stream) n := by
  obtain ⟨x, rfl⟩ := parseTokens_unrestricted_eq_error h
  obtain ⟨before, hfound, hbefore, -, -⟩ := exists_found h
  exact ⟨x, before.length, h, hfound, Nat.le_trans hbefore.length_le hn⟩

/-- Such a query goes on wherever it cannot end. -/
theorem exists_step_of_not_rejectsBy {rest : List Token}
    (h : ¬ stream.RejectsBy (Policy.unrestricted.parseTokens stream) n)
    (htokens : stream.tokens = read ++ rest) (hrun : State.start.run .unrestricted read = .ok s)
    (hn : read.length ≤ n) (hend : .endOfInput ∉ s.expected) :
    ∃ t after s', rest = t :: after ∧ Step .unrestricted s t s' := by
  cases rest with
  | nil =>
    rw [List.append_nil] at htokens
    have hparse : Policy.unrestricted.parseTokens stream =
        s.finish .unrestricted stream.size := by
      rw [Policy.parseTokens, htokens, hrun]
    cases hfinish : s.finish .unrestricted stream.size with
    | ok p => exact absurd (State.finish_iff_expected.mp ⟨p, hfinish⟩) hend
    | error e =>
      exact absurd (rejectsBy_of_error (hparse.trans hfinish) (htokens ▸ hn)) h
  | cons t rest =>
    have hread : read ++ [t] <+: stream.tokens := ⟨rest, by simp [htokens]⟩
    obtain ⟨s', hrun'⟩ := exists_run_of_not_rejectsBy h hread (by simpa using hn)
    rw [State.run_append_of_run hrun] at hrun'
    obtain ⟨s₁, hstep, -⟩ := State.run_cons_eq_ok_iff.mp hrun'
    exact ⟨t, rest, s₁, rfl, hstep⟩

/-- A query is not rejected for a token that can be read. -/
theorem not_rejectsBy_of_run {source : String} (hscan : TokenStream.scan source = .ok stream)
    (hread : read <+: stream.tokens) (hrun : State.start.run .unrestricted read = .ok s)
    (hn : n < read.length) :
    ¬ stream.RejectsBy (Policy.unrestricted.parseTokens stream) n := by
  intro h
  obtain ⟨x, i, hparse, hi, hle⟩ := h
  obtain ⟨before, hfound, -, -, hlongest⟩ := exists_found hparse
  have hlength := hlongest read s hread hrun
  -- No two tokens of a query start at the same place, so `i` is the place of the error.
  have hnodup : stream.lookaheads.Nodup :=
    (TokenStream.pairwise_position hscan).imp fun {a b} hlt (heq : a = b) =>
      Nat.ne_of_lt hlt (congrArg Lookahead.position heq)
  have hbound : i < stream.lookaheads.length := (List.getElem?_eq_some_iff.mp hi).1
  have hindex : i = before.length :=
    (List.getElem?_inj hbound hnodup).mp (hi.trans hfound.symm)
  omega

/-- A query is not rejected for a token that a policy refuses. -/
theorem not_rejectsBy_of_refuses {source : String} {before after : List Token}
    (hscan : TokenStream.scan source = .ok stream) (htokens : stream.tokens = before ++ t :: after)
    (hrun : State.start.run .unrestricted before = .ok s) (hrefuses : Refuses policy s t e) :
    ¬ stream.RejectsBy (Policy.unrestricted.parseTokens stream) before.length := by
  obtain ⟨s', hstep⟩ := hrefuses.step
  have hread : State.start.run .unrestricted (before ++ [t]) = .ok s' :=
    State.run_append_eq_ok_iff.mpr ⟨s, hrun, State.run_cons_eq_ok_iff.mpr ⟨s', hstep, rfl⟩⟩
  exact not_rejectsBy_of_run hscan ⟨after, by simp [htokens]⟩ hread (by simp)

end Parse

end FilterQuery
