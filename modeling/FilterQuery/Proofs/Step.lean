import FilterQuery.Parse

/-!
# FilterQuery.Proofs.Step

The reader of tokens as rules.  `Step policy s t s'` holds if the reader goes
from `s` to `s'` on the token `t`; there is one rule for each thing a token can
be, with all that is checked at that moment.

* `State.next_eq_ok_iff` — the rules are exactly the successes of `State.next`;
* `State.invariant_of_run` — what every step keeps every run keeps;
* `joinPending_eq_ok_iff` — joining operands fails at the height limit only;
* `Step.exact` — the height that is kept for an operand is the height of its
  tree.
-/

namespace FilterQuery.Parse

/-! ## joining operands -/

/-- The operand that a connective makes of two others. -/
def joined (connective : Connective) (left : Option Pending) (right : Operand) : Operand :=
  match left with
  | none => right
  | some left =>
    ⟨.logical connective left.operand.tree right.tree, max left.operand.height right.height + 1⟩

@[simp] theorem joined_none (connective : Connective) (right : Operand) :
    joined connective none right = right := rfl

@[simp] theorem tree_joined_some (connective : Connective) (left : Pending) (right : Operand) :
    (joined connective (some left) right).tree =
      .logical connective left.operand.tree right.tree := rfl

/-- Joining fails at the height limit only. -/
theorem joinPending_eq_ok_iff {policy : Policy} {connective : Connective}
    {left : Option Pending} {right o : Operand} :
    joinPending policy connective left right = .ok o ↔
      o = joined connective left right ∧
        ∀ l ∈ left, Policy.exceeded? policy.maxHeight (joined connective left right).height =
          none := by
  cases left with
  | none => simp [joinPending, eq_comm]
  | some l =>
    simp only [joinPending, join, joined, Option.mem_def, Option.some.injEq, forall_eq']
    cases Policy.exceeded? policy.maxHeight (max l.operand.height right.height + 1) with
    | none => simp [eq_comm]
    | some limit => simp

/-- Without limits joining never fails. -/
@[simp] theorem joinPending_unrestricted (connective : Connective) (left : Option Pending)
    (right : Operand) :
    joinPending .unrestricted connective left right = .ok (joined connective left right) :=
  joinPending_eq_ok_iff.mpr ⟨rfl, fun _ _ => rfl⟩

/-! ## the rules -/

/-- Reading the token `t` in the state `s` leads to the state `s'`. -/
inductive Step (policy : Policy) : State → Token → State → Prop
  /-- A group is opened, unless it is nested too deeply. -/
  | openGroup {outer : List Level} {level : Level} {t : Token} (ht : t.kind = .openGroup)
      (hdepth : Policy.exceeded? policy.maxDepth (outer.length + 1) = none) :
      Step policy ⟨outer, level, .operand⟩ t ⟨level :: outer, .empty, .operand⟩
  /-- A comparison starts. -/
  | field {outer : List Level} {level : Level} {t : Token} (ht : t.kind = .field) :
      Step policy ⟨outer, level, .operand⟩ t ⟨outer, level, .field t.text⟩
  /-- A comparison goes on. -/
  | operator {outer : List Level} {level : Level} {name : String} {t : Token} {op : Operator}
      (ht : t.kind = .operator op) :
      Step policy ⟨outer, level, .field name⟩ t ⟨outer, level, .comparison name op.relation⟩
  /-- A comparison is complete, its field is allowed, and it is joined by `AND`. -/
  | value {outer : List Level} {level : Level} {name : String} {relation : Relation} {t : Token}
      {quoted : Bool} {conjunction : Operand} (ht : t.kind = .literal quoted)
      (hallowed : policy.allows name = true)
      (hand : joinPending policy .and level.conjunction
        ⟨.comparison name relation (State.value quoted t.text), 1⟩ = .ok conjunction) :
      Step policy ⟨outer, level, .comparison name relation⟩ t
        ⟨outer, ⟨level.disjunction, none⟩, .connective conjunction⟩
  /-- A conjunction is prolonged. -/
  | and {outer : List Level} {level : Level} {conjunction : Operand} {t : Token}
      (ht : t.kind = .keyword .and) :
      Step policy ⟨outer, level, .connective conjunction⟩ t
        ⟨outer, ⟨level.disjunction, some ⟨conjunction, t.position⟩⟩, .operand⟩
  /-- A conjunction is complete and joined by `OR`, and that chain is prolonged. -/
  | or {outer : List Level} {level : Level} {conjunction expression : Operand} {t : Token}
      (ht : t.kind = .keyword .or)
      (hor : joinPending policy .or level.disjunction conjunction = .ok expression) :
      Step policy ⟨outer, level, .connective conjunction⟩ t
        ⟨outer, ⟨some ⟨expression, t.position⟩, none⟩, .operand⟩
  /-- A group is complete and joined by `AND` in the group around it. -/
  | closeGroup {outer : List Level} {around level : Level}
      {conjunction expression conjunction' : Operand} {t : Token} (ht : t.kind = .closeGroup)
      (hor : joinPending policy .or level.disjunction conjunction = .ok expression)
      (hand : joinPending policy .and around.conjunction expression = .ok conjunction') :
      Step policy ⟨around :: outer, level, .connective conjunction⟩ t
        ⟨outer, ⟨around.disjunction, none⟩, .connective conjunction'⟩

namespace State

variable {policy : Policy} {s s' : State} {t : Token} {ts : List Token}

/-- An operand is complete as soon as it can be joined. -/
theorem complete_eq_ok_iff {operand : Operand} :
    s.complete policy operand = .ok s' ↔
      ∃ conjunction, joinPending policy .and s.level.conjunction operand = .ok conjunction ∧
        s' = ⟨s.outer, ⟨s.level.disjunction, none⟩, .connective conjunction⟩ := by
  rw [complete]
  cases joinPending policy .and s.level.conjunction operand with
  | error e => simp [Except.map]
  | ok conjunction => simp [Except.map, eq_comm]

/-- What the reader does is allowed by the rules. -/
theorem step_of_next (h : s.next policy t = .ok s') : Step policy s t s' := by
  obtain ⟨outer, level, phase⟩ := s
  unfold next at h
  split at h
  · next hphase ht =>
    obtain rfl : phase = _ := hphase
    split at h
    · cases h
    · next hdepth => cases h; exact .openGroup ht hdepth
  · next hphase ht =>
    obtain rfl : phase = _ := hphase
    cases h; exact .field ht
  · next hphase ht =>
    obtain rfl : phase = _ := hphase
    cases h; exact .operator ht
  · next hphase ht =>
    obtain rfl : phase = _ := hphase
    split at h
    · next hallowed =>
      obtain ⟨conjunction, hand, rfl⟩ := complete_eq_ok_iff.mp h
      exact .value ht hallowed hand
    · cases h
  · next hphase ht =>
    obtain rfl : phase = _ := hphase
    cases h; exact .and ht
  · next hphase _ =>
    obtain rfl : phase = _ := hphase
    split at h
    · cases h
    · next hor =>
      split at h
      · next ht => cases h; exact .or ht hor
      · next ht houter =>
        obtain rfl : outer = _ := houter
        obtain ⟨conjunction', hand, rfl⟩ := complete_eq_ok_iff.mp h
        exact .closeGroup ht hor hand
      · cases h
  · cases h

/-- The reader does what the rules allow. -/
theorem next_of_step (h : Step policy s t s') : s.next policy t = .ok s' := by
  cases h with
  | openGroup ht hdepth => simp [next, ht, depth, hdepth]
  | field ht => simp [next, ht]
  | operator ht => simp [next, ht]
  | value ht hallowed hand =>
    simp only [next, ht, hallowed, if_true]
    exact complete_eq_ok_iff.mpr ⟨_, hand, rfl⟩
  | and ht => simp [next, ht]
  | or ht hor => simp [next, ht, expression, hor]
  | closeGroup ht hor hand =>
    simp only [next, ht, expression, hor]
    exact complete_eq_ok_iff.mpr ⟨_, hand, rfl⟩

/-- The rules are exactly the successes of the reader. -/
theorem next_eq_ok_iff : s.next policy t = .ok s' ↔ Step policy s t s' :=
  ⟨step_of_next, next_of_step⟩

/-- Reading several tokens is reading the first and then the others. -/
theorem run_cons_eq_ok_iff :
    s.run policy (t :: ts) = .ok s' ↔ ∃ s₁, Step policy s t s₁ ∧ s₁.run policy ts = .ok s' := by
  rw [run_cons]
  cases hnext : s.next policy t with
  | error e => simp [Except.bind, ← next_eq_ok_iff, hnext]
  | ok s₁ => simp [Except.bind, ← next_eq_ok_iff, hnext]

/-- Reading two parts is reading the first and then the second. -/
theorem run_append_eq_ok_iff {us : List Token} :
    s.run policy (ts ++ us) = .ok s' ↔
      ∃ s₁, s.run policy ts = .ok s₁ ∧ s₁.run policy us = .ok s' := by
  rw [run_append]
  cases s.run policy ts <;> simp [Except.bind]

/-- A run that fails does so at one of its tokens. -/
theorem run_eq_error {e : ParseError} (h : s.run policy ts = .error e) :
    ∃ before t after s₁, ts = before ++ t :: after ∧ s.run policy before = .ok s₁ ∧
      s₁.next policy t = .error e := by
  induction ts generalizing s with
  | nil => cases h
  | cons t ts ih =>
    cases hnext : s.next policy t with
    | error e' =>
      rw [run_cons, hnext] at h
      cases h
      exact ⟨[], t, ts, s, rfl, rfl, hnext⟩
    | ok s₁ =>
      rw [run_cons, hnext] at h
      obtain ⟨before, u, after, s₂, rfl, hrun, herror⟩ := ih h
      exact ⟨t :: before, u, after, s₂, rfl,
        run_cons_eq_ok_iff.mpr ⟨s₁, next_eq_ok_iff.mp hnext, hrun⟩, herror⟩

/-- Reading one token. -/
theorem run_singleton : s.run policy [t] = s.next policy t := by
  rw [run_cons]
  cases s.next policy t <;> rfl

/-- A run goes on where its first step leads. -/
theorem run_cons_of_step (h : Step policy s t s') (ts : List Token) :
    s.run policy (t :: ts) = s'.run policy ts := by
  rw [run_cons, next_of_step h]; rfl

/-- A run goes on where its first part leads. -/
theorem run_append_of_run (h : s.run policy ts = .ok s') (us : List Token) :
    s.run policy (ts ++ us) = s'.run policy us := by
  rw [run_append, h]; rfl

/-- What holds of the tokens that were read and the state that was reached, and
is kept by every step, is kept by every run. -/
theorem invariant_of_run {P : List Token → State → Prop}
    (hstep : ∀ {ts s t s'}, Step policy s t s' → P ts s → P (ts ++ [t]) s')
    (ts : List Token) {us : List Token} (h : s.run policy us = .ok s') (hs : P ts s) :
    P (ts ++ us) s' := by
  induction us generalizing s ts with
  | nil => cases h; simpa using hs
  | cons t us ih =>
    obtain ⟨s₁, hfirst, hrun⟩ := run_cons_eq_ok_iff.mp h
    simpa using ih _ hrun (hstep hfirst hs)

/-- A query may end behind a conjunction that stands in no group. -/
theorem finish_eq_ok_iff {position : Nat} {p : Predicate} :
    s.finish policy position = .ok p ↔
      ∃ level conjunction expression, s = ⟨[], level, .connective conjunction⟩ ∧
        joinPending policy .or level.disjunction conjunction = .ok expression ∧
        expression.tree = p := by
  obtain ⟨outer, level, phase⟩ := s
  constructor
  · intro h
    unfold finish at h
    split at h
    · next conjunction hphase =>
      obtain rfl : phase = _ := hphase
      split at h
      · cases h
      · next expression hor =>
        split at h
        · next houter =>
          obtain rfl : outer = [] := by simpa using houter
          cases h
          exact ⟨level, conjunction, expression, rfl, hor, rfl⟩
        · cases h
    · cases h
  · intro h
    obtain ⟨level, conjunction, expression, hs, hor, rfl⟩ := h
    cases hs
    simp [finish, State.expression, hor]

end State

/-- A token stream is accepted if it is read to its end and may end there. -/
theorem parseTokens_eq_ok_iff {policy : Policy} {stream : TokenStream} {p : Predicate} :
    policy.parseTokens stream = .ok p ↔
      ∃ s, State.start.run policy stream.tokens = .ok s ∧
        s.finish policy stream.size = .ok p := by
  rw [Policy.parseTokens]
  cases State.start.run policy stream.tokens <;> simp

/-- A query is accepted if it can be split into tokens that are. -/
theorem parse_eq_ok_iff {policy : Policy} {source : String} {p : Predicate} :
    policy.parse source = .ok p ↔
      ∃ stream, TokenStream.scan source = .ok stream ∧ policy.parseTokens stream = .ok p := by
  rw [Policy.parse]
  cases TokenStream.scan source <;> simp

/-- What can be split into tokens is answered as its tokens are. -/
theorem parse_of_scan {policy : Policy} {source : String} {stream : TokenStream}
    (hscan : TokenStream.scan source = .ok stream) :
    policy.parse source = policy.parseTokens stream := by
  rw [Policy.parse, hscan]

/-! ## what a state holds -/

/-- `P` holds of the operands of the connectives that wait. -/
def Level.All (P : Operand → Prop) (level : Level) : Prop :=
  (∀ d ∈ level.disjunction, P d.operand) ∧ ∀ c ∈ level.conjunction, P c.operand

@[simp] theorem Level.all_empty (P : Operand → Prop) : Level.empty.All P := by
  simp [Level.All, Level.empty]

/-- `P` holds of the operand that was read last, if one was. -/
def Phase.All (P : Operand → Prop) : Phase → Prop
  | .connective conjunction => P conjunction
  | _ => True

/-- `P` holds of all operands in a state. -/
def State.All (P : Operand → Prop) (s : State) : Prop :=
  (∀ level ∈ s.outer, level.All P) ∧ s.level.All P ∧ s.phase.All P

/-- Where a conjunction may go on no `AND` waits for it. -/
def State.Tidy (s : State) : Prop :=
  ∀ conjunction, s.phase = .connective conjunction → s.level.conjunction = none

/-- Nothing is asked of an `AND` that does not wait. -/
theorem State.Tidy.forall_conjunction {outer : List Level} {level : Level} {conjunction : Operand}
    (h : State.Tidy ⟨outer, level, .connective conjunction⟩) (P : Pending → Prop) :
    ∀ c ∈ level.conjunction, P c := by
  have hnone : level.conjunction = none := h conjunction rfl
  simp [hnone]

/-- There are no operands at the start. -/
theorem State.all_start (P : Operand → Prop) : State.start.All P :=
  ⟨by simp [State.start], Level.all_empty P, trivial⟩

/-- What follows of two things that hold of all operands holds of them, too. -/
theorem State.All.imp₂ {s : State} {P Q R : Operand → Prop} (hP : s.All P) (hQ : s.All Q)
    (h : ∀ o, P o → Q o → R o) : s.All R := by
  have hlevel (level : Level) (hp : level.All P) (hq : level.All Q) : level.All R :=
    ⟨fun d hd => h _ (hp.1 d hd) (hq.1 d hd), fun c hc => h _ (hp.2 c hc) (hq.2 c hc)⟩
  obtain ⟨houter, hl, hphase⟩ := hP
  obtain ⟨houter', hl', hphase'⟩ := hQ
  refine ⟨fun level hmem => hlevel level (houter level hmem) (houter' level hmem),
    hlevel _ hl hl', ?_⟩
  cases hp : s.phase with
  | connective conjunction =>
    rw [hp] at hphase hphase'
    exact h _ hphase hphase'
  | _ => trivial

/-- What follows of a thing that holds of all operands holds of them, too. -/
theorem State.All.imp {s : State} {P Q : Operand → Prop} (hP : s.All P)
    (h : ∀ o, P o → Q o) : s.All Q :=
  hP.imp₂ hP fun o ho _ => h o ho

namespace Step

variable {policy : Policy} {s s' : State} {t : Token} {P : Operand → Prop}

/-- After every step no `AND` waits where the conjunction may go on. -/
theorem tidy (h : Step policy s t s') : s'.Tidy := by
  cases h <;> simp [State.Tidy]

/-- What holds of comparisons and is kept by joining is kept by every step. -/
theorem all (h : Step policy s t s')
    (hcomparison : ∀ name relation value, P ⟨.comparison name relation value, 1⟩)
    (hjoined : ∀ {connective left right}, (∀ l ∈ left, P l.operand) → P right →
      P (joined connective left right))
    (hs : s.All P) : s'.All P := by
  obtain ⟨houter, ⟨hd, hc⟩, hphase⟩ := hs
  cases h with
  | openGroup ht hdepth => exact ⟨by simpa using ⟨⟨hd, hc⟩, houter⟩, Level.all_empty P, trivial⟩
  | field ht => exact ⟨houter, ⟨hd, hc⟩, trivial⟩
  | operator ht => exact ⟨houter, ⟨hd, hc⟩, trivial⟩
  | value ht hallowed hand =>
    obtain ⟨rfl, -⟩ := joinPending_eq_ok_iff.mp hand
    exact ⟨houter, ⟨hd, by simp⟩, hjoined hc (hcomparison _ _ _)⟩
  | and ht => exact ⟨houter, ⟨hd, fun _ hl => by cases hl; exact hphase⟩, trivial⟩
  | or ht hor =>
    obtain ⟨rfl, -⟩ := joinPending_eq_ok_iff.mp hor
    exact ⟨houter, ⟨by simpa using hjoined hd hphase, by simp⟩, trivial⟩
  | closeGroup ht hor hand =>
    obtain ⟨rfl, -⟩ := joinPending_eq_ok_iff.mp hor
    obtain ⟨rfl, -⟩ := joinPending_eq_ok_iff.mp hand
    obtain ⟨⟨hd', hc'⟩, houter⟩ := List.forall_mem_cons.mp houter
    exact ⟨houter, ⟨hd', by simp⟩, hjoined hc' (hjoined hd hphase)⟩

/-- What holds of the parts of each operand that has it held before the step,
if it holds behind it. -/
theorem all_of (h : Step policy s t s')
    (hparts : ∀ {connective left right}, P (joined connective left right) →
      (∀ l ∈ left, P l.operand) ∧ P right)
    (htidy : s.Tidy) (hs' : s'.All P) : s.All P := by
  obtain ⟨houter, ⟨hd, hc⟩, hphase⟩ := hs'
  cases h with
  | openGroup ht hdepth =>
    obtain ⟨hlevel, houter⟩ := List.forall_mem_cons.mp houter
    exact ⟨houter, hlevel, trivial⟩
  | field ht => exact ⟨houter, ⟨hd, hc⟩, trivial⟩
  | operator ht => exact ⟨houter, ⟨hd, hc⟩, trivial⟩
  | value ht hallowed hand =>
    obtain ⟨rfl, -⟩ := joinPending_eq_ok_iff.mp hand
    exact ⟨houter, ⟨hd, (hparts hphase).1⟩, trivial⟩
  | and ht => exact ⟨houter, ⟨hd, htidy.forall_conjunction _⟩, hc _ rfl⟩
  | or ht hor =>
    obtain ⟨rfl, -⟩ := joinPending_eq_ok_iff.mp hor
    obtain ⟨hd', hphase'⟩ := hparts (hd _ rfl)
    exact ⟨houter, ⟨hd', htidy.forall_conjunction _⟩, hphase'⟩
  | closeGroup ht hor hand =>
    obtain ⟨rfl, -⟩ := joinPending_eq_ok_iff.mp hor
    obtain ⟨rfl, -⟩ := joinPending_eq_ok_iff.mp hand
    obtain ⟨hc', hexpression⟩ := hparts hphase
    obtain ⟨hd', hphase'⟩ := hparts hexpression
    exact ⟨List.forall_mem_cons.mpr ⟨⟨hd, hc'⟩, houter⟩, ⟨hd', htidy.forall_conjunction _⟩, hphase'⟩

end Step

/-- A run ends as tidy as it started. -/
theorem tidy_of_run {policy : Policy} {s s' : State} {ts : List Token}
    (h : s.run policy ts = .ok s') (hs : s.Tidy) : s'.Tidy :=
  State.invariant_of_run (P := fun _ s => s.Tidy) (fun hstep _ => hstep.tidy) [] h hs

/-! ### heights -/

/-- The height that is kept for an operand is that of its tree. -/
def Operand.Exact (o : Operand) : Prop := o.height = o.tree.height

/-- A comparison has height 1. -/
theorem Operand.Exact.comparison (name : String) (relation : Relation) (value : Literal) :
    Operand.Exact ⟨.comparison name relation value, 1⟩ := rfl

/-- Joining keeps the heights exact. -/
theorem Operand.Exact.joined {connective : Connective} {left : Option Pending} {right : Operand}
    (hleft : ∀ l ∈ left, l.operand.Exact) (hright : right.Exact) :
    (joined connective left right).Exact := by
  cases left with
  | none => exact hright
  | some l =>
    have hl : l.operand.height = l.operand.tree.height := hleft l rfl
    have hr : right.height = right.tree.height := hright
    simp only [Exact, Parse.joined, Predicate.height, hl, hr]

/-- Every step keeps the heights exact. -/
theorem Step.exact {policy : Policy} {s s' : State} {t : Token} (h : Step policy s t s')
    (hs : s.All Operand.Exact) : s'.All Operand.Exact :=
  h.all Operand.Exact.comparison Operand.Exact.joined hs

/-- Every run keeps the heights exact. -/
theorem run_exact {policy : Policy} {s s' : State} {ts : List Token}
    (h : s.run policy ts = .ok s') (hs : s.All Operand.Exact) : s'.All Operand.Exact :=
  State.invariant_of_run (P := fun _ s => s.All Operand.Exact) Step.exact [] h hs

end FilterQuery.Parse
