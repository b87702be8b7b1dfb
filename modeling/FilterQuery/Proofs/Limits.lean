import FilterQuery.Proofs.Step

/-!
# FilterQuery.Proofs.Limits

A policy rejects queries and changes none.  Its three checks are made one by
one while tokens are read: the field of a comparison when its value is there,
the height of a predicate when its operands are joined, the depth of a group
when it is opened.  Together they say no more and no less than that the finished
predicate and the token stream are within the limits.

* `Policy.Admits` — what a policy asks of a predicate, and `admits_joined` how
  that comes down to one join;
* `TokenStream.nesting` — how deeply the groups of a token stream are nested;
* `Step.restricted_iff`, `run_restricted_iff` — a restricted step or run is an
  unrestricted one that ends within the limits.
-/

namespace FilterQuery

/-! ## what a policy asks -/

/-- The predicate is not too high and mentions allowed fields only.  A single
comparison is never too high. -/
def Policy.Admits (policy : Policy) (p : Predicate) : Prop :=
  (∀ limit ∈ policy.maxHeight, p.height ≤ max limit 1) ∧
    ∀ fields ∈ policy.allowed, ∀ name ∈ p.fields, name ∈ fields

/-- The number of open groups behind a token, `depth` of them being open before. -/
def Token.Kind.depthAfter (depth : Nat) : Token.Kind → Nat
  | .openGroup => depth + 1
  | .closeGroup => depth - 1
  | _ => depth

/-- The greatest number of groups that are open at once while the tokens are
read, `depth` of them being open before. -/
def Token.nestingFrom (depth : Nat) : List Token → Nat
  | [] => depth
  | t :: ts => max depth (nestingFrom (t.kind.depthAfter depth) ts)

/-- The groups that are open before count. -/
theorem Token.le_nestingFrom (depth : Nat) (ts : List Token) : depth ≤ nestingFrom depth ts := by
  cases ts with
  | nil => exact Nat.le_refl depth
  | cons t ts => exact Nat.le_max_left ..

/-- The greatest number of groups that are open at once in a token stream. -/
def TokenStream.nesting (stream : TokenStream) : Nat := Token.nestingFrom 0 stream.tokens

namespace Policy

variable {policy : Policy}

/-- A limit that is not exceeded is a bound. -/
theorem exceeded?_eq_none {limit : Option Nat} {n : Nat} :
    exceeded? limit n = none ↔ ∀ k ∈ limit, n ≤ k := by
  cases limit <;> simp [exceeded?, Option.filter]

/-- Without a list of fields all are allowed. -/
theorem allows_iff {field : String} :
    policy.allows field = true ↔ ∀ fields ∈ policy.allowed, field ∈ fields := by
  unfold allows
  split
  · next h => simp [h]
  · next h => simp [h]

/-- A comparison is admitted if its field is allowed. -/
@[simp] theorem admits_comparison {field : String} {relation : Relation} {value : Literal} :
    policy.Admits (.comparison field relation value) ↔ policy.allows field = true := by
  rw [allows_iff]
  constructor
  · exact fun h fields hfields => h.2 fields hfields field (by simp)
  · intro h
    refine ⟨fun limit _ => Nat.le_max_right limit 1, fun fields hfields name hname => ?_⟩
    rw [Predicate.mem_fields_comparison.mp hname]
    exact h fields hfields

/-- A connective is admitted if its operands are and it is not too high. -/
theorem admits_logical {connective : Connective} {left right : Predicate} :
    policy.Admits (.logical connective left right) ↔
      policy.Admits left ∧ policy.Admits right ∧
        exceeded? policy.maxHeight (Predicate.logical connective left right).height = none := by
  have hleft := left.height_pos
  have hright := right.height_pos
  simp only [Admits, exceeded?_eq_none, Predicate.height, Predicate.mem_fields_logical]
  constructor
  · intro h
    obtain ⟨hheight, hfields⟩ := h
    refine ⟨⟨fun h hh => ?_, fun fs hfs name hname => hfields fs hfs name (.inl hname)⟩,
      ⟨fun h hh => ?_, fun fs hfs name hname => hfields fs hfs name (.inr hname)⟩,
      fun h hh => ?_⟩
    all_goals have := hheight h hh; omega
  · intro h
    obtain ⟨⟨-, hfields⟩, ⟨-, hfields'⟩, hheight⟩ := h
    refine ⟨fun h hh => ?_, fun fs hfs name hname => ?_⟩
    · have := hheight h hh; omega
    · exact hname.elim (hfields fs hfs name) (hfields' fs hfs name)

end Policy

namespace Parse

/-! ## one step -/

variable {policy : Policy} {s s' : State} {t : Token} {ts : List Token}

/-- The height that is kept for the operand is right, and its tree is within the
limits. -/
structure Operand.Within (policy : Policy) (o : Operand) : Prop where
  exact : o.Exact
  admits : policy.Admits o.tree

/-- A comparison is within the limits if its field is allowed. -/
theorem within_comparison {name : String} {relation : Relation} {value : Literal} :
    Operand.Within policy ⟨.comparison name relation value, 1⟩ ↔ policy.allows name = true :=
  ⟨fun h => Policy.admits_comparison.mp h.admits, fun h => ⟨rfl, Policy.admits_comparison.mpr h⟩⟩

/-- A policy admits what a connective makes of two operands if it admits them and
the result is not too high. -/
theorem within_joined {connective : Connective} {left : Option Pending} {right : Operand}
    (hleft : ∀ l ∈ left, l.operand.Exact) (hright : right.Exact) :
    (joined connective left right).Within policy ↔
      (∀ l ∈ left, l.operand.Within policy) ∧ right.Within policy ∧
        ∀ l ∈ left, Policy.exceeded? policy.maxHeight (joined connective left right).height =
          none := by
  cases left with
  | none => simp
  | some l =>
    have hexact : (joined connective (some l) right).Exact := Operand.Exact.joined hleft hright
    simp only [Option.mem_def, Option.some.injEq, forall_eq'] at hleft ⊢
    constructor
    · intro h
      obtain ⟨-, hadmits⟩ := h
      rw [tree_joined_some, Policy.admits_logical, ← tree_joined_some, ← hexact] at hadmits
      exact ⟨⟨hleft, hadmits.1⟩, ⟨hright, hadmits.2.1⟩, hadmits.2.2⟩
    · intro h
      obtain ⟨hl, hr, hheight⟩ := h
      rw [hexact, tree_joined_some] at hheight
      exact ⟨hexact, Policy.admits_logical.mpr ⟨hl.admits, hr.admits, hheight⟩⟩

/-- Operands within the limits are joined if and only if the result is within
the limits, too. -/
theorem joinPending_eq_ok_iff_within {connective : Connective} {left : Option Pending}
    {right o : Operand} (hleft : ∀ l ∈ left, l.operand.Within policy)
    (hright : right.Within policy) :
    joinPending policy connective left right = .ok o ↔
      joinPending .unrestricted connective left right = .ok o ∧ o.Within policy := by
  rw [joinPending_eq_ok_iff, joinPending_unrestricted, Except.ok.injEq]
  constructor
  · intro h
    obtain ⟨rfl, hheight⟩ := h
    exact ⟨rfl, (within_joined (fun l hl => (hleft l hl).exact) hright.exact).mpr
      ⟨hleft, hright, hheight⟩⟩
  · intro h
    obtain ⟨rfl, hwithin⟩ := h
    exact ⟨rfl, ((within_joined (fun l hl => (hleft l hl).exact) hright.exact).mp hwithin).2.2⟩

/-- The groups that are open behind a step. -/
theorem Step.depth_eq (h : Step policy s t s') : s'.depth = t.kind.depthAfter s.depth := by
  cases h <;> simp_all [State.depth, Token.Kind.depthAfter]

/-- All operands and the open groups are within the limits. -/
structure State.Within (policy : Policy) (s : State) : Prop where
  operands : s.All (Operand.Within policy)
  depth : ∀ limit ∈ policy.maxDepth, s.depth ≤ limit

/-- Nothing is exceeded at the start. -/
theorem State.within_start (policy : Policy) : State.start.Within policy :=
  ⟨State.all_start _, fun _ _ => Nat.zero_le _⟩

/-- A restricted step is an unrestricted one that ends within the limits. -/
theorem Step.restricted_iff (hs : s.Within policy) :
    Step policy s t s' ↔ Step .unrestricted s t s' ∧ s'.Within policy := by
  obtain ⟨⟨houter, ⟨hd, hc⟩, hphase⟩, hdepth⟩ := hs
  constructor
  · intro h
    cases h with
    | openGroup ht hlimit =>
      refine ⟨.openGroup ht rfl, ⟨?_, Level.all_empty _, trivial⟩, ?_⟩
      · exact List.forall_mem_cons.mpr ⟨⟨hd, hc⟩, houter⟩
      · exact Policy.exceeded?_eq_none.mp hlimit
    | field ht => exact ⟨.field ht, ⟨houter, ⟨hd, hc⟩, trivial⟩, hdepth⟩
    | operator ht => exact ⟨.operator ht, ⟨houter, ⟨hd, hc⟩, trivial⟩, hdepth⟩
    | value ht hallowed hand =>
      obtain ⟨hand', hwithin⟩ :=
        (joinPending_eq_ok_iff_within hc (within_comparison.mpr hallowed)).mp hand
      exact ⟨.value ht rfl hand', ⟨houter, ⟨hd, by simp⟩, hwithin⟩, hdepth⟩
    | and ht =>
      exact ⟨.and ht, ⟨houter, ⟨hd, fun _ hl => by cases hl; exact hphase⟩, trivial⟩, hdepth⟩
    | or ht hor =>
      obtain ⟨hor', hwithin⟩ := (joinPending_eq_ok_iff_within hd hphase).mp hor
      exact ⟨.or ht hor', ⟨houter, ⟨fun _ hl => by cases hl; exact hwithin, by simp⟩, trivial⟩,
        hdepth⟩
    | closeGroup ht hor hand =>
      obtain ⟨⟨hd', hc'⟩, houter⟩ := List.forall_mem_cons.mp houter
      obtain ⟨hor', hwithin⟩ := (joinPending_eq_ok_iff_within hd hphase).mp hor
      obtain ⟨hand', hwithin'⟩ := (joinPending_eq_ok_iff_within hc' hwithin).mp hand
      refine ⟨.closeGroup ht hor' hand', ⟨houter, ⟨hd', by simp⟩, hwithin'⟩, ?_⟩
      exact fun limit hlimit => Nat.le_trans (Nat.le_succ _) (hdepth limit hlimit)
  · intro h
    obtain ⟨h, ⟨houter', ⟨hd', hc'⟩, hphase'⟩, hdepth'⟩ := h
    cases h with
    | openGroup ht hlimit => exact .openGroup ht (Policy.exceeded?_eq_none.mpr hdepth')
    | field ht => exact .field ht
    | operator ht => exact .operator ht
    | value ht _ hand =>
      have hparts := (joinPending_eq_ok_iff.mp hand).1 ▸ hphase'
      obtain ⟨-, hright, -⟩ := (within_joined (fun l hl => (hc l hl).exact)
        (.comparison _ _ _)).mp hparts
      exact .value ht (within_comparison.mp hright)
        ((joinPending_eq_ok_iff_within hc hright).mpr ⟨hand, hphase'⟩)
    | and ht => exact .and ht
    | or ht hor =>
      exact .or ht ((joinPending_eq_ok_iff_within hd hphase).mpr ⟨hor, hd' _ rfl⟩)
    | closeGroup ht hor hand =>
      obtain ⟨⟨-, hc'⟩, -⟩ := List.forall_mem_cons.mp houter
      have hexact : Operand.Exact _ := (joinPending_eq_ok_iff.mp hor).1 ▸
        Operand.Exact.joined (fun l hl => (hd l hl).exact) hphase.exact
      have hparts := (joinPending_eq_ok_iff.mp hand).1 ▸ hphase'
      obtain ⟨-, hwithin, -⟩ := (within_joined (fun l hl => (hc' l hl).exact) hexact).mp hparts
      exact .closeGroup ht ((joinPending_eq_ok_iff_within hd hphase).mpr ⟨hor, hwithin⟩)
        ((joinPending_eq_ok_iff_within hc' hwithin).mpr ⟨hand, hphase'⟩)

/-! ## runs -/

/-- The operands before a step are admitted if those behind it are. -/
theorem Step.admits_of (h : Step .unrestricted s t s') (htidy : s.Tidy)
    (hs' : s'.All fun o => policy.Admits o.tree) : s.All fun o => policy.Admits o.tree := by
  refine h.all_of (fun {connective left right} hjoined => ?_) htidy hs'
  cases left with
  | none => exact ⟨by simp, hjoined⟩
  | some l =>
    obtain ⟨hl, hright, -⟩ := Policy.admits_logical.mp hjoined
    exact ⟨by simpa using hl, hright⟩

/-- The operands before a run are admitted if those behind it are. -/
theorem run_admits_of (h : s.run .unrestricted ts = .ok s') (htidy : s.Tidy)
    (hs' : s'.All fun o => policy.Admits o.tree) : s.All fun o => policy.Admits o.tree := by
  induction ts generalizing s with
  | nil => cases h; exact hs'
  | cons t ts ih =>
    obtain ⟨s₁, hstep, hrun⟩ := State.run_cons_eq_ok_iff.mp h
    exact hstep.admits_of htidy (ih hrun hstep.tidy)

/-- A restricted run is an unrestricted one that stays within the limits. -/
theorem run_restricted_iff (hs : s.Within policy) (htidy : s.Tidy) :
    s.run policy ts = .ok s' ↔
      s.run .unrestricted ts = .ok s' ∧ s'.All (Operand.Within policy) ∧
        ∀ limit ∈ policy.maxDepth, Token.nestingFrom s.depth ts ≤ limit := by
  induction ts generalizing s with
  | nil =>
    simp only [State.run_nil, Except.ok.injEq, Token.nestingFrom]
    constructor
    · intro h
      subst h
      exact ⟨rfl, hs.operands, hs.depth⟩
    · exact fun h => h.1
  | cons t ts ih =>
    simp only [State.run_cons_eq_ok_iff, Token.nestingFrom, Nat.max_le]
    constructor
    · intro h
      obtain ⟨s₁, hstep, hrun⟩ := h
      obtain ⟨hstep', hs₁⟩ := (Step.restricted_iff hs).mp hstep
      obtain ⟨hrun', hs', hnesting⟩ := (ih hs₁ hstep.tidy).mp hrun
      exact ⟨⟨s₁, hstep', hrun'⟩, hs', fun limit hlimit =>
        ⟨hs.depth limit hlimit, hstep.depth_eq ▸ hnesting limit hlimit⟩⟩
    · -- Heights are exact from the start on; that operands are admitted comes
      -- back from the end of the run, where nothing has been lost of them.
      intro h
      obtain ⟨⟨s₁, hstep, hrun⟩, hs', hnesting⟩ := h
      rw [← hstep.depth_eq] at hnesting
      have hexact : s₁.All Operand.Exact := hstep.exact (hs.operands.imp fun _ ho => ho.exact)
      have hadmits := run_admits_of hrun hstep.tidy (hs'.imp fun _ ho => ho.admits)
      have hs₁ : s₁.Within policy := ⟨hexact.imp₂ hadmits fun _ => .mk, fun limit hlimit =>
        Nat.le_trans (Token.le_nestingFrom _ ts) (hnesting limit hlimit).2⟩
      exact ⟨s₁, (Step.restricted_iff hs).mpr ⟨hstep, hs₁⟩, (ih hs₁ hstep.tidy).mpr
        ⟨hrun, hs', fun limit hlimit => (hnesting limit hlimit).2⟩⟩

/-- Within the limits a query may end where the predicate is within them. -/
theorem finish_restricted_iff {position : Nat} {p : Predicate} (hexact : s.All Operand.Exact)
    (htidy : s.Tidy) :
    s.All (Operand.Within policy) ∧ s.finish policy position = .ok p ↔
      s.finish .unrestricted position = .ok p ∧ policy.Admits p := by
  simp only [State.finish_eq_ok_iff]
  constructor
  · intro h
    obtain ⟨⟨-, ⟨hd, -⟩, hphase⟩, level, conjunction, expression, rfl, hor, rfl⟩ := h
    obtain ⟨hor', hwithin⟩ := (joinPending_eq_ok_iff_within hd hphase).mp hor
    exact ⟨⟨level, conjunction, expression, rfl, hor', rfl⟩, hwithin.admits⟩
  · intro h
    obtain ⟨⟨level, conjunction, expression, rfl, hor, rfl⟩, hadmits⟩ := h
    obtain ⟨-, ⟨hd, -⟩, hphase⟩ := hexact
    obtain ⟨rfl, -⟩ := joinPending_eq_ok_iff.mp hor
    have hwithin : Operand.Within policy _ := ⟨Operand.Exact.joined hd hphase, hadmits⟩
    obtain ⟨hd', hphase', -⟩ := (within_joined hd hphase).mp hwithin
    exact ⟨⟨by simp, ⟨hd', htidy.forall_conjunction _⟩, hphase'⟩, level, conjunction, _, rfl,
      (joinPending_eq_ok_iff_within hd' hphase').mpr ⟨hor, hwithin⟩, rfl⟩

/-! ## queries -/

/-- A restricted policy accepts a token stream if and only if an unrestricted one
does and stream and predicate are within the limits. -/
theorem parseTokens_restricted_iff {stream : TokenStream} {p : Predicate} :
    policy.parseTokens stream = .ok p ↔
      Policy.unrestricted.parseTokens stream = .ok p ∧
        (∀ limit ∈ policy.maxDepth, stream.nesting ≤ limit) ∧ policy.Admits p := by
  have htidy : State.start.Tidy := by simp [State.Tidy, State.start]
  simp only [parseTokens_eq_ok_iff, run_restricted_iff (State.within_start policy) htidy]
  constructor
  · intro h
    obtain ⟨s, ⟨hrun, hwithin, hnesting⟩, hfinish⟩ := h
    have hexact := run_exact hrun (State.all_start _)
    obtain ⟨hfinish', hadmits⟩ :=
      (finish_restricted_iff hexact (tidy_of_run hrun htidy)).mp ⟨hwithin, hfinish⟩
    exact ⟨⟨s, hrun, hfinish'⟩, hnesting, hadmits⟩
  · intro h
    obtain ⟨⟨s, hrun, hfinish⟩, hnesting, hadmits⟩ := h
    have hexact := run_exact hrun (State.all_start _)
    obtain ⟨hwithin, hfinish'⟩ :=
      (finish_restricted_iff hexact (tidy_of_run hrun htidy)).mpr ⟨hfinish, hadmits⟩
    exact ⟨s, ⟨hrun, hwithin, hnesting⟩, hfinish'⟩

end Parse

/-! ## comparing policies -/

/-- Whatever the second policy restricts, the first restricts at least as much. -/
structure Policy.Stricter (strict loose : Policy) : Prop where
  allowed : ∀ fields' ∈ loose.allowed, ∃ fields ∈ strict.allowed,
    ∀ name ∈ fields, name ∈ fields'
  maxDepth : ∀ limit' ∈ loose.maxDepth, ∃ limit ∈ strict.maxDepth, limit ≤ limit'
  maxHeight : ∀ limit' ∈ loose.maxHeight, ∃ limit ∈ strict.maxHeight, limit ≤ limit'

/-- What a policy admits is admitted by every looser one. -/
theorem Policy.Stricter.admits {strict loose : Policy} (h : strict.Stricter loose)
    {p : Predicate} (hp : strict.Admits p) : loose.Admits p := by
  refine ⟨fun limit' hlimit' => ?_, fun fields' hfields' name hname => ?_⟩
  · obtain ⟨limit, hlimit, hle⟩ := h.maxHeight limit' hlimit'
    have := hp.1 limit hlimit
    omega
  · obtain ⟨fields, hfields, hsubset⟩ := h.allowed fields' hfields'
    exact hsubset name (hp.2 fields hfields name hname)

/-- What is accepted under a policy is accepted as the same predicate under every
looser one. -/
theorem parseTokens_of_stricter {strict loose : Policy} (h : strict.Stricter loose)
    {stream : TokenStream} {p : Predicate} (hp : strict.parseTokens stream = .ok p) :
    loose.parseTokens stream = .ok p := by
  obtain ⟨hparse, hnesting, hadmits⟩ := Parse.parseTokens_restricted_iff.mp hp
  refine Parse.parseTokens_restricted_iff.mpr ⟨hparse, fun limit' hlimit' => ?_, h.admits hadmits⟩
  obtain ⟨limit, hlimit, hle⟩ := h.maxDepth limit' hlimit'
  exact Nat.le_trans (hnesting limit hlimit) hle

/-- **Restrictions only filter**: a query is accepted under a policy if and only if
it is accepted, as the same predicate, without one, its groups are not nested
more deeply than allowed, and the predicate is not higher than allowed and
mentions allowed fields only.  Hence a looser policy accepts what a stricter one
accepts. -/
theorem Policy.parse_filters (source : String) (p : Predicate) :
    (∀ policy : Policy, policy.parse source = .ok p ↔
      Policy.unrestricted.parse source = .ok p ∧
        (∃ stream, TokenStream.scan source = .ok stream ∧
          ∀ limit ∈ policy.maxDepth, stream.nesting ≤ limit) ∧
        (∀ limit ∈ policy.maxHeight, p.height ≤ max limit 1) ∧
        ∀ fields ∈ policy.allowed, ∀ name ∈ p.fields, name ∈ fields) ∧
    ∀ strict loose : Policy, strict.Stricter loose →
      strict.parse source = .ok p → loose.parse source = .ok p := by
  simp only [Parse.parse_eq_ok_iff]
  refine ⟨fun policy => ⟨?_, ?_⟩, ?_⟩
  · intro h
    obtain ⟨stream, hscan, hparse⟩ := h
    obtain ⟨hparse', hnesting, hadmits⟩ := Parse.parseTokens_restricted_iff.mp hparse
    exact ⟨⟨stream, hscan, hparse'⟩, ⟨stream, hscan, hnesting⟩, hadmits⟩
  · intro h
    obtain ⟨⟨stream, hscan, hparse⟩, ⟨stream', hscan', hnesting⟩, hadmits⟩ := h
    obtain rfl : stream = stream' := by simpa [hscan] using hscan'
    exact ⟨stream, hscan, Parse.parseTokens_restricted_iff.mpr ⟨hparse, hnesting, hadmits⟩⟩
  · intro strict loose hstricter h
    obtain ⟨stream, hscan, hparse⟩ := h
    exact ⟨stream, hscan, parseTokens_of_stricter hstricter hparse⟩

end FilterQuery
