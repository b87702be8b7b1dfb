import FilterQuery.Proofs.Parentheses
import FilterQuery.Proofs.Refusals

/-!
# FilterQuery.Proofs.Openings

At which parenthesis a query is nested too deeply.  The groups that are open while
tokens are read are those opened before and not closed, so the limit is exceeded at the
first parenthesis with that many open groups around it, unless the query is rejected
for what stands there or before.

* `countP_opensGroup_of_run` — the balance of the tokens that were read is the depth;
* `parseTokens_depth_cases` — one of the two errors comes first;
* `Policy.parse_tooDeep` — which one.
-/

namespace FilterQuery

open Token

/-- Does the token close a group? -/
def Token.closesGroup (t : Token) : Bool := t.kind == .closeGroup

/-- The token with index `i` opens a group, and before it exactly `limit` more groups
are opened than closed. -/
def TokenStream.OpensInside (stream : TokenStream) (limit i : Nat) : Prop :=
  (∃ t ∈ stream.tokens[i]?, t.kind = .openGroup) ∧
    (stream.tokens.take i).countP opensGroup =
      (stream.tokens.take i).countP closesGroup + limit

/-- The tokens before it are a part of the stream. -/
theorem TokenStream.opensInside_iff {stream : TokenStream} {limit i : Nat} :
    stream.OpensInside limit i ↔ ∃ before t after, stream.tokens = before ++ t :: after ∧
      before.length = i ∧ t.kind = .openGroup ∧
        before.countP opensGroup = before.countP closesGroup + limit := by
  constructor
  · intro h
    obtain ⟨⟨t, ht, hopens⟩, hbalance⟩ := h
    obtain ⟨before, after, htokens, hlength⟩ := getElem?_eq_some_iff_append.mp ht
    rw [htokens, ← hlength, List.take_left] at hbalance
    exact ⟨before, t, after, htokens, hlength, hopens, hbalance⟩
  · intro h
    obtain ⟨before, t, after, htokens, hlength, hopens, hbalance⟩ := h
    refine ⟨⟨t, getElem?_eq_some_iff_append.mpr ⟨before, after, htokens, hlength⟩, hopens⟩, ?_⟩
    rw [htokens, ← hlength, List.take_left]
    exact hbalance

namespace Parse

variable {policy : Policy} {s s' : State} {t : Token} {ts : List Token} {limit : Nat}

/-! ## balance and depth -/

/-- One step keeps the balance of the tokens that were read. -/
theorem Step.countP_opensGroup (h : Step policy s t s')
    (hs : ts.countP opensGroup = ts.countP closesGroup + s.depth) :
    (ts ++ [t]).countP opensGroup = (ts ++ [t]).countP closesGroup + s'.depth := by
  cases h <;> simp_all [State.depth, opensGroup, closesGroup] <;> omega

/-- The groups that are open are those opened and not closed. -/
theorem countP_opensGroup_of_run (h : State.start.run policy ts = .ok s) :
    ts.countP opensGroup = ts.countP closesGroup + s.depth :=
  State.invariant_of_run
    (P := fun ts s => ts.countP opensGroup = ts.countP closesGroup + s.depth)
    Step.countP_opensGroup [] h rfl

/-- No more groups are open than the policy allows. -/
theorem depth_le_of_run (hlimit : limit ∈ policy.maxDepth)
    (h : State.start.run policy ts = .ok s) : s.depth ≤ limit := by
  have hwithin : s.Within policy :=
    State.invariant_of_run (P := fun _ s => s.Within policy)
      (fun hstep hs => ((Step.restricted_iff hs).mp hstep).2) [] h (State.within_start policy)
  exact hwithin.depth limit hlimit

/-! ## the first parenthesis too many -/

/-- A parenthesis that could be read inside of `limit` groups is refused under that limit. -/
theorem refuses_of_step (h : Step .unrestricted s t s') (ht : t.kind = .openGroup)
    (hdepth : s.depth = limit) (hlimit : policy.maxDepth = some limit) :
    Refuses policy s t (.tooDeep t.position limit) := by
  cases h with
  | @openGroup outer level t _ _ =>
    have hexceeded : limit < outer.length + 1 := Nat.lt_succ_of_le (Nat.le_of_eq hdepth.symm)
    refine .tooDeep ht ?_
    rw [hlimit, Policy.exceeded?_eq_some]
    exact ⟨rfl, hexceeded⟩
  | _ => simp_all

/-- Under the limit no parenthesis is read inside of `limit` groups. -/
theorem countP_opensGroup_ne_of_run {before after : List Token} (hlimit : limit ∈ policy.maxDepth)
    (h : State.start.run policy (before ++ t :: after) = .ok s) (ht : t.kind = .openGroup) :
    before.countP opensGroup ≠ before.countP closesGroup + limit := by
  obtain ⟨s₁, hbefore, hrest⟩ := State.run_append_eq_ok_iff.mp h
  obtain ⟨s₂, hstep, -⟩ := State.run_cons_eq_ok_iff.mp hrest
  have hrun : State.start.run policy (before ++ [t]) = .ok s₂ :=
    State.run_append_eq_ok_iff.mpr ⟨s₁, hbefore, State.run_cons_eq_ok_iff.mpr ⟨s₂, hstep, rfl⟩⟩
  have hbalance := countP_opensGroup_of_run hbefore
  have hdepth : s₂.depth = s₁.depth + 1 := by
    rw [hstep.depth_eq, ht, Kind.depthAfter]
  have hle := depth_le_of_run hlimit hrun
  omega

/-- Where the limit has no effect, a query with a parenthesis inside of as many groups is
rejected there at the latest. -/
theorem rejectsBy_of_opensInside {stream : TokenStream} {i : Nat}
    (hsame : policy.parseTokens stream = Policy.unrestricted.parseTokens stream)
    (hlimit : policy.maxDepth = some limit) (hopens : stream.OpensInside limit i) :
    stream.RejectsBy (Policy.unrestricted.parseTokens stream) i := by
  obtain ⟨before, t, after, htokens, rfl, ht, hopened⟩ := TokenStream.opensInside_iff.mp hopens
  by_cases hrejects : stream.RejectsBy (Policy.unrestricted.parseTokens stream) before.length
  · exact hrejects
  · have hread : before ++ [t] <+: stream.tokens := ⟨after, by simp [htokens]⟩
    obtain ⟨s', hrun⟩ := exists_run_of_not_rejectsBy hrejects hread (by simp)
    obtain ⟨s, hbefore, hlast⟩ := State.run_append_eq_ok_iff.mp hrun
    obtain ⟨s₁, hstep, -⟩ := State.run_cons_eq_ok_iff.mp hlast
    have hbalance := countP_opensGroup_of_run hbefore
    have hdepth : s.depth = limit := by omega
    exact absurd (refuses_of_step hstep ht hdepth hlimit)
      (not_refuses_of_eq hsame htokens hbefore)

/-- A parenthesis that is reached under the limit inside of as many groups is the first of
its kind. -/
theorem isLeast_opensInside {stream : TokenStream} {before after : List Token}
    (hlimit : limit ∈ policy.maxDepth) (htokens : stream.tokens = before ++ t :: after)
    (hrun : State.start.run policy before = .ok s) (ht : t.kind = .openGroup)
    (hdepth : s.depth = limit) : IsLeast {i | stream.OpensInside limit i} before.length := by
  constructor
  · have hbalance := countP_opensGroup_of_run hrun
    rw [hdepth] at hbalance
    exact TokenStream.opensInside_iff.mpr ⟨before, t, after, htokens, rfl, ht, hbalance⟩
  · intro j hj
    obtain ⟨front, u, back, hfront, rfl, hu, hopened⟩ := TokenStream.opensInside_iff.mp hj
    obtain ⟨middle, rfl, -⟩ | ⟨middle, rfl, -⟩ :=
      append_eq_append_cons (htokens.symm.trans hfront)
    · exact absurd hopened (countP_opensGroup_ne_of_run hlimit hrun hu)
    · simp

/-- A limit on the depth alone has no effect, or it rejects the query at the first
parenthesis inside of as many groups, which can be reached. -/
theorem parseTokens_depth_cases {source : String} {stream : TokenStream}
    (hscan : TokenStream.scan source = .ok stream) (limit : Nat) :
    let policy : Policy := { Policy.unrestricted with maxDepth := some limit }
    let outcome := Policy.unrestricted.parseTokens stream
    policy.parseTokens stream = outcome ∨
      ∃ i, IsLeast {i | stream.OpensInside limit i} i ∧ ¬ stream.RejectsBy outcome i ∧
        ∃ t ∈ stream.tokens[i]?,
          policy.parseTokens stream = .error (.tooDeep t.position limit) := by
  intro policy outcome
  obtain hsame | ⟨e, herror, hhigh | ⟨before, t, after, s, htokens, hrun, hrefuses⟩⟩ :=
    parseTokens_same policy stream
  · exact .inl hsame
  · obtain ⟨position, limit', hnone, -⟩ := hhigh
    cases hnone
  · have hreads : ¬ stream.RejectsBy outcome before.length :=
      not_rejectsBy_of_refuses hscan htokens (State.run_unrestricted_of_run hrun) hrefuses
    cases hrefuses with
    | fieldNotAllowed ht hname => cases hname
    | @tooDeep outer level t limit' ht hexceeded =>
      obtain ⟨hlimit, hlt⟩ := Policy.exceeded?_eq_some.mp hexceeded
      obtain rfl : limit = limit' := Option.some.inj hlimit
      have hmax : limit ∈ policy.maxDepth := rfl
      have hle := depth_le_of_run hmax hrun
      have hdepth : outer.length = limit := Nat.le_antisymm hle (Nat.le_of_lt_succ hlt)
      exact .inr ⟨before.length, isLeast_opensInside hmax htokens hrun ht hdepth,
        hreads, t, getElem?_eq_some_iff_append.mpr ⟨before, after, htokens, rfl⟩, herror⟩

end Parse

/-- **The depth of groups is limited exactly**: let `i` be the first parenthesis inside of
`limit` groups.  If there is none, or if the query is rejected for what stands there or
before, the limit changes nothing; otherwise the query is nested too deeply, and the error
is where that parenthesis is. -/
theorem Policy.parse_tooDeep {source : String} {stream : TokenStream}
    (hscan : TokenStream.scan source = .ok stream) (limit : Nat) :
    let policy : Policy := { Policy.unrestricted with maxDepth := some limit }
    let outcome := Policy.unrestricted.parse source
    ((∀ i, ¬ stream.OpensInside limit i) → policy.parse source = outcome) ∧
      ∀ i, IsLeast {i | stream.OpensInside limit i} i →
        (stream.RejectsBy outcome i → policy.parse source = outcome) ∧
          (¬ stream.RejectsBy outcome i → ∃ t ∈ stream.tokens[i]?,
            policy.parse source = .error (.tooDeep t.position limit)) := by
  simp only [Parse.parse_of_scan hscan]
  exact Outcome.same_or_refused (Parse.parseTokens_depth_cases hscan limit)
    fun hsame _ hi => Parse.rejectsBy_of_opensInside hsame rfl hi

/-- A group that was closed again does not count, and the error comes before the one that
the query is rejected for otherwise. -/
theorem Policy.parse_tooDeep_before_error :
    let source := "(a:1) or (b:2 and (c:3) d"
    let stream : TokenStream :=
      ⟨[⟨.openGroup, "(", 0⟩, ⟨.field, "a", 1⟩, ⟨.operator .equal, ":", 2⟩,
        ⟨.literal false, "1", 3⟩, ⟨.closeGroup, ")", 4⟩, ⟨.keyword .or, "or", 6⟩,
        ⟨.openGroup, "(", 9⟩, ⟨.field, "b", 10⟩, ⟨.operator .equal, ":", 11⟩,
        ⟨.literal false, "2", 12⟩, ⟨.keyword .and, "and", 14⟩, ⟨.openGroup, "(", 18⟩,
        ⟨.field, "c", 19⟩, ⟨.operator .equal, ":", 20⟩, ⟨.literal false, "3", 21⟩,
        ⟨.closeGroup, ")", 22⟩, ⟨.field, "d", 24⟩], 25⟩
    let policy : Policy := { Policy.unrestricted with maxDepth := some 1 }
    TokenStream.scan source = .ok stream ∧ IsLeast {i | stream.OpensInside 1 i} 11 ∧
      ¬ stream.RejectsBy (Policy.unrestricted.parse source) 11 ∧
        ∃ t ∈ stream.tokens[11]?, policy.parse source = .error (.tooDeep t.position 1) := by
  intro source stream policy
  have hscan : TokenStream.scan source = .ok stream := eq_ok_of_toOption (by decide +kernel)
  have hfirst : IsLeast {i | stream.OpensInside 1 i} 11 := by
    refine ⟨⟨⟨_, rfl, rfl⟩, by decide +kernel⟩, fun j hj => Nat.not_lt.mp fun hlt => ?_⟩
    obtain ⟨⟨t, ht, hopens⟩, hbalance⟩ := hj
    have hall : ∀ j < 11, (stream.tokens[j]?).all fun t => t.kind != .openGroup ||
        (stream.tokens.take j).countP opensGroup !=
          (stream.tokens.take j).countP closesGroup + 1 := by decide +kernel
    have hj := hall j hlt
    rw [ht] at hj
    simp [hopens, hbalance] at hj
  have hreads : ¬ stream.RejectsBy (Policy.unrestricted.parse source) 11 := by
    have hrun : ∃ s, Parse.State.start.run .unrestricted (stream.tokens.take 12) = .ok s :=
      ⟨_, rfl⟩
    obtain ⟨s, hrun⟩ := hrun
    rw [Parse.parse_of_scan hscan]
    exact Parse.not_rejectsBy_of_run hscan (List.take_prefix 12 _) hrun (by decide)
  exact ⟨hscan, hfirst, hreads, ((Policy.parse_tooDeep hscan 1).2 11 hfirst).2 hreads⟩

end FilterQuery
