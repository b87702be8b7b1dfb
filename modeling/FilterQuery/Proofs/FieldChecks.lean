import FilterQuery.Proofs.Limits
import FilterQuery.Proofs.Refusals

/-!
# FilterQuery.Proofs.FieldChecks

Which field a query is refused for.  A field is checked when its comparison is complete,
so behind a field that is not allowed come only its operator and its value; whatever is
wrong with these two, or with what stands before, is reported first.

* `checked_of_run` — all fields that were read are allowed, except one whose comparison
  is not complete;
* `parseTokens_fields_cases` — one of the two errors comes first;
* `Policy.parse_fieldNotAllowed` — which one.  So nothing but the fields of the query
  matters of a set of allowed fields.
-/

namespace FilterQuery

/-- The token with index `m` is a field that is not in the set. -/
def TokenStream.NamesOutside (stream : TokenStream) (fields : FieldSet) (m : Nat) : Prop :=
  ∃ t ∈ stream.tokens[m]?, t.kind = .field ∧ t.text ∉ fields

namespace Parse

variable {policy : Policy} {s s' : State} {t : Token} {ts : List Token}

/-! ## what was checked -/

/-- The tokens of a comparison that is not complete yet. -/
inductive Phase.Opened : Phase → List Token → Prop
  | operand : Opened .operand []
  | field {field : Token} (hfield : field.kind = .field) : Opened (.field field.text) [field]
  | comparison {field operator : Token} {op : Operator} (hfield : field.kind = .field)
      (hoperator : operator.kind = .operator op) :
      Opened (.comparison field.text op.relation) [field, operator]
  | connective {conjunction : Operand} : Opened (.connective conjunction) []

/-- All tokens that were read belong to what was checked or to a comparison that is not
complete yet. -/
def State.Checked (policy : Policy) (s : State) (ts : List Token) : Prop :=
  ∃ checked opened, ts = checked ++ opened ∧ s.phase.Opened opened ∧
    ∀ t ∈ checked, t.kind = .field → policy.allows t.text = true

/-- A comparison is checked as soon as it is complete. -/
theorem Step.checked (h : Step policy s t s') (hs : s.Checked policy ts) :
    s'.Checked policy (ts ++ [t]) := by
  obtain ⟨checked, opened, rfl, hopened, hchecked⟩ := hs
  -- Outside of comparisons a token that is no field needs no check.
  have hother (ht : t.kind ≠ .field) :
      ∀ u ∈ checked ++ [t], u.kind = .field → policy.allows u.text = true := by
    intro u hu hfield
    obtain hu | hu := List.mem_append.mp hu
    · exact hchecked u hu hfield
    · rw [List.mem_singleton.mp hu] at hfield
      exact absurd hfield ht
  cases h with
  | openGroup ht hdepth =>
    cases hopened
    exact ⟨checked ++ [t], [], by simp, .operand, hother (by simp [ht])⟩
  | field ht =>
    cases hopened
    exact ⟨checked, [t], by simp, .field ht, hchecked⟩
  | operator ht =>
    cases hopened with
    | @field field hfield =>
      exact ⟨checked, [field, t], by simp, .comparison hfield ht, hchecked⟩
  | value ht hallowed hand =>
    cases hopened with
    | @comparison field operator op hfield hoperator =>
      refine ⟨checked ++ [field, operator, t], [], by simp, .connective, fun u hu hkind => ?_⟩
      obtain hu | hu := List.mem_append.mp hu
      · exact hchecked u hu hkind
      · simp only [List.mem_cons, List.not_mem_nil, or_false] at hu
        obtain rfl | rfl | rfl := hu
        · exact hallowed
        · simp [hoperator] at hkind
        · simp [ht] at hkind
  | and ht =>
    cases hopened
    exact ⟨checked ++ [t], [], by simp, .operand, hother (by simp [ht])⟩
  | or ht hor =>
    cases hopened
    exact ⟨checked ++ [t], [], by simp, .operand, hother (by simp [ht])⟩
  | closeGroup ht hor hand =>
    cases hopened
    exact ⟨checked ++ [t], [], by simp, .connective, hother (by simp [ht])⟩

/-- All fields that were read are allowed, except the one of a comparison that is not
complete yet. -/
theorem checked_of_run (h : State.start.run policy ts = .ok s) : s.Checked policy ts :=
  State.invariant_of_run (P := fun ts s => s.Checked policy ts) Step.checked [] h
    ⟨[], [], rfl, .operand, by simp⟩

/-! ## the first field outside -/

variable {fields : FieldSet} {stream : TokenStream}

/-- A set of allowed fields allows its members. -/
theorem allows_eq_false (hallowed : policy.allowed = some fields) {name : String} :
    policy.allows name = false ↔ name ∉ fields := by
  rw [← Bool.not_eq_true, Policy.allows_iff, hallowed]
  simp

/-- A query that is not rejected for a field or the two tokens behind it has a whole
comparison there. -/
theorem exists_comparison_of_not_rejectsBy {before after : List Token}
    (h : ¬ stream.RejectsBy (Policy.unrestricted.parseTokens stream) (before.length + 2))
    (htokens : stream.tokens = before ++ t :: after) (hfield : t.kind = .field) :
    ∃ operator value rest quoted outer level relation, after = operator :: value :: rest ∧
      value.kind = .literal quoted ∧
      State.start.run .unrestricted (before ++ [t, operator]) =
        .ok ⟨outer, level, .comparison t.text relation⟩ := by
  obtain ⟨s, hbefore⟩ := exists_run_of_not_rejectsBy h ⟨_, htokens.symm⟩ (by omega)
  have htokens₁ : stream.tokens = before ++ [t] ++ after := by simp [htokens]
  obtain ⟨s₁, hrun₁⟩ := exists_run_of_not_rejectsBy h ⟨after, htokens₁.symm⟩ (by simp)
  rw [State.run_append_of_run hbefore] at hrun₁
  obtain ⟨_, hstep₁, -⟩ := State.run_cons_eq_ok_iff.mp hrun₁
  cases hstep₁ with
  | @field outer level t _ =>
    have hrun₁ : State.start.run .unrestricted (before ++ [t]) =
        .ok ⟨outer, level, .field t.text⟩ :=
      (State.run_append_of_run hbefore _).trans (State.run_cons_of_step (.field hfield) [])
    obtain ⟨operator, rest, _, rfl, hstep₂⟩ := exists_step_of_not_rejectsBy h htokens₁ hrun₁
      (by simp) (by simp [State.expected])
    cases hstep₂ with
    | operator hoperator =>
      have hrun₂ : State.start.run .unrestricted (before ++ [t, operator]) = .ok _ :=
        (State.run_append_of_run hbefore _).trans ((State.run_cons_of_step (.field hfield) _).trans
          (State.run_cons_of_step (.operator hoperator) []))
      have htokens₂ : stream.tokens = before ++ [t, operator] ++ rest := by simp [htokens]
      obtain ⟨value, rest, _, rfl, hstep₃⟩ := exists_step_of_not_rejectsBy h htokens₂ hrun₂
        (by simp) (by simp [State.expected])
      cases hstep₃ with
      | value hvalue _ _ => exact ⟨operator, value, rest, _, _, _, _, rfl, hvalue, hrun₂⟩
  | _ => simp_all

/-- Where the set has no effect, a query that names a field outside of it is rejected for
that field or the two tokens behind it, if not before. -/
theorem rejectsBy_of_namesOutside {m : Nat}
    (hsame : policy.parseTokens stream = Policy.unrestricted.parseTokens stream)
    (hallowed : policy.allowed = some fields) (hnames : stream.NamesOutside fields m) :
    stream.RejectsBy (Policy.unrestricted.parseTokens stream) (m + 2) := by
  obtain ⟨t, ht, hfield, houtside⟩ := hnames
  obtain ⟨before, after, htokens, rfl⟩ := getElem?_eq_some_iff_append.mp ht
  by_cases hrejects :
      stream.RejectsBy (Policy.unrestricted.parseTokens stream) (before.length + 2)
  · exact hrejects
  · obtain ⟨operator, value, rest, quoted, outer, level, relation, rfl, hvalue, hrun⟩ :=
      exists_comparison_of_not_rejectsBy hrejects htokens hfield
    have hrefuses : Refuses policy ⟨outer, level, .comparison t.text relation⟩ value _ :=
      .fieldNotAllowed hvalue ((allows_eq_false hallowed).mpr houtside)
    have htokens' : stream.tokens = (before ++ [t, operator]) ++ value :: rest := by
      simp [htokens]
    exact absurd hrefuses (not_refuses_of_eq hsame htokens' hrun)

/-- The field of the first comparison that is refused is the first one outside of the
set. -/
theorem isLeast_namesOutside {before after : List Token} {name : String} {relation : Relation}
    (hallowed : policy.allowed = some fields) (htokens : stream.tokens = before ++ t :: after)
    (hrun : State.start.run policy before = .ok s) (hphase : s.phase = .comparison name relation)
    (hname : name ∉ fields) :
    ∃ m, IsLeast {m | stream.NamesOutside fields m} m ∧ before.length = m + 2 ∧
      ∃ field ∈ stream.tokens[m]?, field.text = name := by
  obtain ⟨checked, opened, rfl, hopened, hchecked⟩ := checked_of_run hrun
  rw [hphase] at hopened
  cases hopened with
  | @comparison field operator op hfield hoperator =>
    have hfound : stream.tokens[checked.length]? = some field :=
      getElem?_eq_some_iff_append.mpr ⟨checked, operator :: t :: after, by simp [htokens], rfl⟩
    refine ⟨checked.length, ⟨⟨field, hfound, hfield, hname⟩, ?_⟩, by simp, field, hfound, rfl⟩
    intro j hj
    obtain ⟨u, hu, hkind, houtside⟩ := hj
    refine Nat.not_lt.mp fun hlt => ?_
    have hmem : u ∈ checked := by
      rw [htokens, List.append_assoc, List.getElem?_append_left hlt] at hu
      exact List.mem_of_getElem? hu
    have hallows := hchecked u hmem hkind
    rw [(allows_eq_false hallowed).mpr houtside] at hallows
    cases hallows

/-- A set of allowed fields alone has no effect, or the query is refused for the first
field outside of it, whose comparison can be read. -/
theorem parseTokens_fields_cases {source : String} (hscan : TokenStream.scan source = .ok stream)
    (fields : FieldSet) :
    let policy : Policy := { Policy.unrestricted with allowed := some fields }
    let outcome := Policy.unrestricted.parseTokens stream
    policy.parseTokens stream = outcome ∨
      ∃ m, IsLeast {m | stream.NamesOutside fields m} m ∧ ¬ stream.RejectsBy outcome (m + 2) ∧
        ∃ t ∈ stream.tokens[m]?, policy.parseTokens stream = .error (.fieldNotAllowed t.text) := by
  intro policy outcome
  obtain hsame | ⟨e, herror, hhigh | ⟨before, t, after, s, htokens, hrun, hrefuses⟩⟩ :=
    parseTokens_same policy stream
  · exact .inl hsame
  · obtain ⟨position, limit, hnone, -⟩ := hhigh
    cases hnone
  · have hreads : ¬ stream.RejectsBy outcome before.length :=
      not_rejectsBy_of_refuses hscan htokens (State.run_unrestricted_of_run hrun) hrefuses
    cases hrefuses with
    | tooDeep ht hdepth => cases hdepth
    | fieldNotAllowed ht hname =>
      have hallowed : policy.allowed = some fields := rfl
      obtain ⟨m, hfirst, hlength, field, hfield, rfl⟩ := isLeast_namesOutside hallowed htokens
        hrun rfl ((allows_eq_false hallowed).mp hname)
      exact .inr ⟨m, hfirst, hlength ▸ hreads, field, hfield, herror⟩

end Parse

/-- Sets that agree on the fields of a query have the same of them outside. -/
theorem TokenStream.namesOutside_congr {stream : TokenStream} {fields fields' : FieldSet}
    (hagree : ∀ t ∈ stream.tokens, t.kind = .field → (t.text ∈ fields ↔ t.text ∈ fields'))
    (m : Nat) : stream.NamesOutside fields m ↔ stream.NamesOutside fields' m := by
  simp only [NamesOutside]
  refine exists_congr fun t => and_congr_right fun ht => and_congr_right fun hfield => ?_
  exact not_congr (hagree t (List.mem_of_getElem? ht) hfield)

/-- Sets that agree on the fields of a query have it parsed alike. -/
theorem Policy.parse_eq_of_fields_agree {source : String} {stream : TokenStream}
    (hscan : TokenStream.scan source = .ok stream) {fields fields' : FieldSet}
    (hagree : ∀ t ∈ stream.tokens, t.kind = .field → (t.text ∈ fields ↔ t.text ∈ fields')) :
    { Policy.unrestricted with allowed := some fields }.parse source =
      { Policy.unrestricted with allowed := some fields' }.parse source := by
  have houtside := TokenStream.namesOutside_congr hagree
  rw [Parse.parse_of_scan hscan, Parse.parse_of_scan hscan]
  -- A set has an effect only if a field outside of it can be read, and then so has the other.
  obtain hsame | ⟨m, hm, hreads, t, ht, hrefused⟩ := Parse.parseTokens_fields_cases hscan fields
    <;> obtain hsame' | ⟨m', hm', hreads', t', ht', hrefused'⟩ :=
      Parse.parseTokens_fields_cases hscan fields'
  · exact hsame.trans hsame'.symm
  · exact absurd (Parse.rejectsBy_of_namesOutside hsame rfl ((houtside m').mpr hm'.1)) hreads'
  · exact absurd (Parse.rejectsBy_of_namesOutside hsame' rfl ((houtside m).mp hm.1)) hreads
  · obtain rfl : m = m' :=
      Nat.le_antisymm (hm.2 ((houtside m').mpr hm'.1)) (hm'.2 ((houtside m).mp hm.1))
    obtain rfl : t = t' := Option.mem_unique ht ht'
    exact hrefused.trans hrefused'.symm

/-- **A field that is not allowed is the first one, and hides no syntax error**: let `m` be
the first field outside of the set.  If there is none, or if the query is rejected for that
field, its operator or its value, if not before, the set changes nothing; otherwise the
query is refused for this field.  So sets that agree on the fields of a query do not differ
for it. -/
theorem Policy.parse_fieldNotAllowed {source : String} {stream : TokenStream}
    (hscan : TokenStream.scan source = .ok stream) (fields : FieldSet) :
    let policy (fields : FieldSet) : Policy :=
      { Policy.unrestricted with allowed := some fields }
    let outcome := Policy.unrestricted.parse source
    ((∀ m, ¬ stream.NamesOutside fields m) → (policy fields).parse source = outcome) ∧
      (∀ m, IsLeast {m | stream.NamesOutside fields m} m →
        (stream.RejectsBy outcome (m + 2) → (policy fields).parse source = outcome) ∧
          (¬ stream.RejectsBy outcome (m + 2) → ∃ t ∈ stream.tokens[m]?,
            (policy fields).parse source = .error (.fieldNotAllowed t.text))) ∧
      ∀ fields' : FieldSet,
        (∀ t ∈ stream.tokens, t.kind = .field → (t.text ∈ fields ↔ t.text ∈ fields')) →
          (policy fields).parse source = (policy fields').parse source := by
  intro policy outcome
  obtain ⟨hnone, hfirst⟩ := Outcome.same_or_refused (Parse.parseTokens_fields_cases hscan fields)
    fun hsame _ hm => Parse.rejectsBy_of_namesOutside hsame rfl hm
  rw [← Parse.parse_of_scan hscan, ← Parse.parse_of_scan hscan] at hnone hfirst
  exact ⟨hnone, hfirst, fun fields' hagree => Policy.parse_eq_of_fields_agree hscan hagree⟩

/-- The field is refused although the query is rejected further on, and a field that does
not occur makes no difference. -/
theorem Policy.parse_fieldNotAllowed_before_error :
    let source := "a:1 and b:2 d"
    let stream : TokenStream :=
      ⟨[⟨.field, "a", 0⟩, ⟨.operator .equal, ":", 1⟩, ⟨.literal false, "1", 2⟩,
        ⟨.keyword .and, "and", 4⟩, ⟨.field, "b", 8⟩, ⟨.operator .equal, ":", 9⟩,
        ⟨.literal false, "2", 10⟩, ⟨.field, "d", 12⟩], 13⟩
    let policy (fields : FieldSet) : Policy :=
      { Policy.unrestricted with allowed := some fields }
    let fields := FieldSet.ofNames ["a"]
    let fields' := FieldSet.ofNames ["a", "z"]
    TokenStream.scan source = .ok stream ∧ IsLeast {m | stream.NamesOutside fields m} 4 ∧
      ¬ stream.RejectsBy (Policy.unrestricted.parse source) 6 ∧
        (∃ t ∈ stream.tokens[4]?,
          (policy fields).parse source = .error (.fieldNotAllowed t.text)) ∧
          (policy fields).parse source = (policy fields').parse source := by
  intro source stream policy fields fields'
  have hscan : TokenStream.scan source = .ok stream := eq_ok_of_toOption (by decide +kernel)
  have hfirst : IsLeast {m | stream.NamesOutside fields m} 4 := by
    refine ⟨⟨_, rfl, rfl, by simp [fields]⟩, fun m hm => Nat.not_lt.mp fun hlt => ?_⟩
    obtain ⟨t, ht, hfield, houtside⟩ := hm
    have hall : ∀ m < 4, (stream.tokens[m]?).all fun t => t.kind != .field || t.text == "a" := by
      decide +kernel
    have hm := hall m hlt
    rw [ht] at hm
    simp_all [fields]
  have hreads : ¬ stream.RejectsBy (Policy.unrestricted.parse source) 6 := by
    have hrun : ∃ s, Parse.State.start.run .unrestricted (stream.tokens.take 7) = .ok s :=
      ⟨_, rfl⟩
    obtain ⟨s, hrun⟩ := hrun
    rw [Parse.parse_of_scan hscan]
    exact Parse.not_rejectsBy_of_run hscan (List.take_prefix 7 _) hrun (by decide)
  have hagree : ∀ t ∈ stream.tokens, t.kind = .field → (t.text ∈ fields ↔ t.text ∈ fields') := by
    intro t ht _
    have hz : t.text ≠ "z" := by
      have hall : ∀ t ∈ stream.tokens, t.text ≠ "z" := by decide
      exact hall t ht
    simp [fields, fields', hz]
  obtain ⟨-, hrefused, hsame⟩ := Policy.parse_fieldNotAllowed hscan fields
  exact ⟨hscan, hfirst, hreads, (hrefused 4 hfirst).2 hreads, hsame fields' hagree⟩

end FilterQuery
