import FilterQuery.Proofs.Limits
import FilterQuery.Proofs.Scanning
import FilterQuery.Proofs.TokenLines
import FilterQuery.Proofs.Trimming

/-!
# FilterQuery.Proofs.Enforcement

The commands enforce the policy that options and environment choose.  What is chosen is
said without the settings that are computed from it (`Chosen`): a list allows the names
that stand in it between commas and blanks (`Listed`), and without any list all fields
are allowed.

* `Settings.mem_names_iff` — the names read off a list are those that stand in it;
* `Policy.parse_congr` — policies that restrict the same answer every query alike;
* `run_of_ok`, `run_of_error` — the reports on an accepted and on a rejected query;
* `run_enforces` — so the exit code says whether the chosen policy accepts the query.
-/

namespace FilterQuery

/-! ## policies that agree -/

/-- The policies restrict the same, even if their fields are listed differently. -/
structure Policy.Agrees (policy policy' : Policy) : Prop where
  allows : ∀ field, policy.allows field = policy'.allows field
  maxDepth : policy.maxDepth = policy'.maxDepth
  maxHeight : policy.maxHeight = policy'.maxHeight

namespace Parse

variable {policy policy' : Policy}

/-- Only the limit on the height matters to a connective. -/
theorem joinPending_congr (h : policy.maxHeight = policy'.maxHeight) (k : Connective)
    (left : Option Pending) (right : Operand) :
    joinPending policy k left right = joinPending policy' k left right := by
  cases left with
  | none => rfl
  | some left => simp only [joinPending, join, h]

/-- Policies that restrict the same read every token alike. -/
theorem State.next_congr (h : policy.Agrees policy') (s : State) (t : Token) :
    s.next policy t = s.next policy' t := by
  simp only [next, complete, expression, h.allows, h.maxDepth, joinPending_congr h.maxHeight]

end Parse

/-- Policies that restrict the same answer every query alike. -/
theorem Policy.parse_congr {policy policy' : Policy} (h : policy.Agrees policy')
    (source : String) : policy.parse source = policy'.parse source := by
  simp only [parse, parseTokens, Parse.State.run, Parse.State.finish, Parse.State.expression,
    Parse.State.next_congr h, Parse.joinPending_congr h.maxHeight]

/-- Every predicate mentions a field. -/
theorem Predicate.exists_mem_fields (p : Predicate) : ∃ name, name ∈ p.fields := by
  induction p with
  | comparison field relation value => exact ⟨field, by simp⟩
  | logical connective left right ihl ihr =>
    obtain ⟨name, hname⟩ := ihl
    exact ⟨name, by simp [hname]⟩

/-- Where no field is allowed no query is accepted. -/
theorem Policy.parse_ne_ok {policy : Policy} {fields : FieldSet}
    (hfields : fields ∈ policy.allowed) (hnone : ∀ name, name ∉ fields) (source : String)
    (p : Predicate) : policy.parse source ≠ .ok p := by
  intro h
  obtain ⟨stream, -, hparse⟩ := Parse.parse_eq_ok_iff.mp h
  obtain ⟨-, -, hadmits⟩ := Parse.parseTokens_restricted_iff.mp hparse
  obtain ⟨name, hname⟩ := p.exists_mem_fields
  exact hnone name (hadmits.2 fields hfields name hname)

namespace Command

/-! ## what is chosen -/

/-- The name stands in the list: it is not empty, and nothing but blanks stands between
it and the commas or ends of the list around it. -/
structure Listed (list name : String) : Prop where
  ne_empty : name ≠ ""
  trimmed : Text.Trimmed name.toList
  part : ∃ left right, (∀ c ∈ left ++ right, Text.isBlank c = true) ∧
    Text.IsPart ',' list.toList (left ++ name.toList ++ right)

/-- The names read off a list are those that stand in it. -/
theorem Settings.mem_names_iff {list name : String} : name ∈ names list ↔ Listed list name := by
  simp only [names, List.mem_map, List.mem_filter]
  constructor
  · intro h
    obtain ⟨_, ⟨⟨part, hpart, rfl⟩, hne⟩, rfl⟩ := h
    have htrim : (String.ofList (Text.trim part)).toList = Text.trim part := String.toList_ofList
    obtain ⟨left, right, hall, hblank⟩ := Text.exists_trim part
    refine ⟨fun hempty => ?_, ?_, left, right, hblank, ?_⟩
    · rw [hempty] at htrim
      simp [← htrim] at hne
    · rw [htrim]
      exact Text.trimmed_trim part
    · rw [htrim, ← hall]
      exact Text.mem_splitAt_iff.mp hpart
  · intro h
    obtain ⟨hne, htrimmed, left, right, hblank, hpart⟩ := h
    have hnot : name.toList ≠ [] := fun hnil => hne (String.toList_eq_nil_iff.mp hnil)
    exact ⟨name.toList, ⟨⟨_, Text.mem_splitAt_iff.mpr hpart, Text.trim_append htrimmed hblank⟩,
      by simpa using hnot⟩, String.ofList_toList⟩

/-- The policy is the one that options and environment choose.  Options prevail; fields
are restricted only where a list is given, and to the names in that list. -/
structure Chosen (options environment : Settings) (policy : Policy) : Prop where
  unlisted : policy.allowed = none ↔ options.allow = none ∧ environment.allow = none
  listed : ∀ list ∈ options.allow <|> environment.allow, ∃ fields ∈ policy.allowed,
    ∀ name, name ∈ fields ↔ Listed list name
  maxDepth : policy.maxDepth = some ((options.maxDepth <|> environment.maxDepth).getD 64)
  maxHeight : policy.maxHeight = some ((options.maxHeight <|> environment.maxHeight).getD 256)

/-- The settings give the policy that is chosen. -/
theorem chosen_policy (options environment : Settings) :
    Chosen options environment (options.orElse environment).policy := by
  refine ⟨by simp [Settings.policy, Settings.orElse], fun list hlist => ?_, ?_, ?_⟩
  · have hlist : (options.orElse environment).allow = some list := hlist
    refine ⟨FieldSet.ofNames (Settings.names list), by rw [Settings.policy, hlist]; rfl, ?_⟩
    intro name
    rw [FieldSet.mem_ofNames, Settings.mem_names_iff]
  · simp only [Settings.policy, Settings.orElse]
    cases options.maxDepth <|> environment.maxDepth <;> rfl
  · simp only [Settings.policy, Settings.orElse]
    cases options.maxHeight <|> environment.maxHeight <;> rfl

/-- Only one thing can be chosen. -/
theorem Chosen.agrees {options environment : Settings} {policy policy' : Policy}
    (h : Chosen options environment policy) (h' : Chosen options environment policy') :
    policy.Agrees policy' := by
  refine ⟨fun field => ?_, h.maxDepth.trans h'.maxDepth.symm, h.maxHeight.trans h'.maxHeight.symm⟩
  rw [Bool.eq_iff_iff, Policy.allows_iff, Policy.allows_iff]
  cases hlist : options.allow <|> environment.allow with
  | none =>
    have hnone : options.allow = none ∧ environment.allow = none := by simpa using hlist
    simp [h.unlisted.mpr hnone, h'.unlisted.mpr hnone]
  | some list =>
    obtain ⟨fields, hfields, hlisted⟩ := h.listed list hlist
    obtain ⟨fields', hfields', hlisted'⟩ := h'.listed list hlist
    have hsame := (hlisted field).trans (hlisted' field).symm
    simpa [Option.mem_def.mp hfields, Option.mem_def.mp hfields'] using hsame

/-! ## reports -/

/-- Does the command read a predicate?  The others show tokens, whatever the policy. -/
def Action.readsPredicate : Action → Bool
  | .check | .parse _ => true
  | .tokens _ => false

/-- What a report says apart from its output. -/
def Report.verdict (report : Report) : UInt8 × String := (report.exitCode, report.stderr)

section

variable {action : Action} {settings : Settings} {source : String}

/-- The report on a query that is accepted. -/
theorem run_of_ok (haction : action.readsPredicate = true) {p : Predicate}
    (h : settings.policy.parse source = .ok p) (color : Bool) : ∃ output, ∀ debug,
      run ⟨action, settings, debug, color⟩ source =
        ⟨0, shownTokens debug color source ++ output, ""⟩ := by
  cases action with
  | check =>
    refine ⟨Style.success.paint color "Query is valid" ++ "\n", fun debug => ?_⟩
    simp only [run, withPredicate, h, shownTokens]
  | parse format =>
    refine ⟨renderPredicate color p format, fun debug => ?_⟩
    simp only [run, withPredicate, h, shownTokens]
  | tokens format => cases haction

/-- The report on a query that is rejected. -/
theorem run_of_error (haction : action.readsPredicate = true) {e : ParseError}
    (h : settings.policy.parse source = .error e) (debug color : Bool) :
    run ⟨action, settings, debug, color⟩ source =
      failure color source (shownTokens debug color source) e := by
  cases action with
  | tokens format => cases haction
  | _ => simp only [run, withPredicate, h, shownTokens]

/-- The exit code and the error output do not depend on how tokens are shown. -/
theorem verdict_tokens (format format' : Format) (debug debug' color : Bool) :
    (run ⟨.tokens format, settings, debug, color⟩ source).verdict =
      (run ⟨.tokens format', settings, debug', color⟩ source).verdict := by
  simp only [run]
  cases TokenStream.scan source <;> rfl

end

/-- The reports on a query, one for each command with and without the tokens that are
`shown`, say whether the policy accepts it, and nothing else of it is shown where it does
not. -/
structure Enforces (policy : Policy) (source : String) (shown : Bool → String)
    (report : Action → Bool → Report) : Prop where
  accepts : ∀ action debug, action.readsPredicate = true →
    ((report action debug).exitCode = 0 ↔ ∃ p, policy.parse source = .ok p)
  rejects : ∀ action debug, action.readsPredicate = true →
    (report action debug).exitCode ≠ 0 → (report action debug).exitCode = 1 ∧
      (report action debug).stdout = shown debug
  verdict : ∀ action action' debug debug', action.readsPredicate = true →
    action'.readsPredicate = true →
    (report action debug).verdict = (report action' debug').verdict
  stdout : ∀ action debug, action.readsPredicate = true →
    (report action debug).stdout = shown debug ++ (report action false).stdout
  tokens : ∀ format format' debug debug',
    (report (.tokens format) debug).verdict = (report (.tokens format') debug').verdict

/-- The reports under some settings say what their policy does with the query. -/
theorem enforces_policy (settings : Settings) (color : Bool) (source : String) :
    Enforces settings.policy source (fun debug => shownTokens debug color source)
      fun action debug => run ⟨action, settings, debug, color⟩ source := by
  cases hparse : settings.policy.parse source with
  | error e =>
    refine ⟨fun action debug haction => ?_, fun action debug haction _ => ?_,
      fun action action' debug debug' haction haction' => ?_, fun action debug haction => ?_,
      fun format format' debug debug' => verdict_tokens format format' debug debug' color⟩
    · simp [run_of_error haction hparse, failure, hparse]
    · simp [run_of_error haction hparse, failure]
    · simp [run_of_error haction hparse, run_of_error haction' hparse, failure, Report.verdict]
    · simp [run_of_error haction hparse, failure, shownTokens]
  | ok p =>
    refine ⟨fun action debug haction => ?_, fun action debug haction hfail => ?_,
      fun action action' debug debug' haction haction' => ?_, fun action debug haction => ?_,
      fun format format' debug debug' => verdict_tokens format format' debug debug' color⟩
    · obtain ⟨output, hrun⟩ := run_of_ok haction hparse color
      simp [hrun, hparse]
    · obtain ⟨output, hrun⟩ := run_of_ok haction hparse color
      simp [hrun] at hfail
    · obtain ⟨output, hrun⟩ := run_of_ok haction hparse color
      obtain ⟨output', hrun'⟩ := run_of_ok haction' hparse color
      simp [hrun, hrun', Report.verdict]
    · obtain ⟨output, hrun⟩ := run_of_ok haction hparse color
      simp [hrun, shownTokens]

/-- **The commands enforce the policy that is chosen, and only that one.**  Whatever is
given by options and environment, `check` and `parse` succeed on exactly the queries that
a policy with these limits and these names accepts; where they fail, nothing is shown but
the error and the tokens that were asked for; and formats and tokens leave exit code and
error as they are.  Tokens are shown, line by line, where there are any.  A list without
names admits no query at all. -/
theorem run_enforces (options environment : Settings) (words : List String) (color : Bool) :
    let source := sourceOfWords words
    let report (action : Action) (debug : Bool) : Report :=
      run ⟨action, options.orElse environment, debug, color⟩ source
    (∃ policy, Chosen options environment policy) ∧
      (∃ shown, ShowsTokens color source shown ∧
        (shown true ≠ "" ↔ ∃ stream, TokenStream.scan source = .ok stream) ∧
        ∀ policy, Chosen options environment policy → Enforces policy source shown report) ∧
      ∀ list ∈ options.allow <|> environment.allow, (∀ name, ¬ Listed list name) →
        ∀ action debug, action.readsPredicate = true → (report action debug).exitCode = 1 := by
  intro source report
  have hchosen := chosen_policy options environment
  have henforces := enforces_policy (options.orElse environment) color source
  have hshown := showsTokens color source
  refine ⟨⟨_, hchosen⟩, ⟨_, hshown, hshown.ne_empty_iff, fun policy hpolicy => ?_⟩, ?_⟩
  · have hparse := Policy.parse_congr (hpolicy.agrees hchosen) source
    exact { henforces with accepts := by simpa only [hparse] using henforces.accepts }
  · intro list hlist hnone action debug haction
    obtain ⟨fields, hfields, hlisted⟩ := hchosen.listed list hlist
    refine (henforces.rejects action debug haction fun hzero => ?_).1
    obtain ⟨p, hparse⟩ := (henforces.accepts action debug haction).mp hzero
    exact Policy.parse_ne_ok hfields (fun name hname => hnone name ((hlisted name).mp hname))
      source p hparse

/-- An option prevails over the environment.  Its list allows `a` and `b`, but not `c`;
a list of blanks and commas allows nothing.  Before the error the tokens are shown. -/
theorem run_enforces_prevailing :
    let options (list : String) : Settings := ⟨some list, none, some 2⟩
    let environment : Settings := ⟨some "c", some 3, none⟩
    let words := ["a:1", "AND", "(c:2)"]
    let report (list : String) (action : Action) (debug : Bool) : Report :=
      run ⟨action, (options list).orElse environment, debug, false⟩ (sourceOfWords words)
    let policy : Policy := ⟨some (FieldSet.ofNames ["b", "a"]), some 3, some 2⟩
    Chosen (options " b ,, a\t") environment policy ∧
      (∃ shown, ShowsTokens false "a:1 AND (c:2)" shown ∧
        Enforces policy "a:1 AND (c:2)" shown (report " b ,, a\t")) ∧
      (report " b ,, a\t" (.parse .json) true).stderr =
        "error: querying on field `c` is not allowed\n" ∧
      (report " b ,, a\t" (.parse .json) true).stdout = "Tokens:\n" ++
        "Token \x7b kind: Field, text: \"a\", position: 0 \x7d\n" ++
        "Token \x7b kind: Operator(Eq), text: \":\", position: 1 \x7d\n" ++
        "Token \x7b kind: Literal \x7b quoted: false \x7d, text: \"1\", position: 2 \x7d\n" ++
        "Token \x7b kind: Keyword(And), text: \"AND\", position: 4 \x7d\n" ++
        "Token \x7b kind: LParen, text: \"(\", position: 8 \x7d\n" ++
        "Token \x7b kind: Field, text: \"c\", position: 9 \x7d\n" ++
        "Token \x7b kind: Operator(Eq), text: \":\", position: 10 \x7d\n" ++
        "Token \x7b kind: Literal \x7b quoted: false \x7d, text: \"2\", position: 11 \x7d\n" ++
        "Token \x7b kind: RParen, text: \")\", position: 12 \x7d\n" ++
        "Token \x7b kind: End, text: \"\", position: 13 \x7d\n\n" ∧
      (∀ name, ¬ Listed " , " name) ∧ (report " , " .check true).exitCode = 1 := by
  intro options environment words report policy
  have hnames : Settings.names " b ,, a\t" = ["b", "a"] := by decide +kernel
  have hpolicy : ((options " b ,, a\t").orElse environment).policy = policy := by
    simp [options, environment, policy, Settings.orElse, Settings.policy, hnames]
  have hchosen : Chosen (options " b ,, a\t") environment policy := hpolicy ▸ chosen_policy _ _
  have hnone : ∀ name, ¬ Listed " , " name := by
    have hnames' : Settings.names " , " = [] := by decide +kernel
    intro name hname
    rw [← Settings.mem_names_iff, hnames'] at hname
    cases hname
  obtain ⟨-, ⟨shown, hshown, -, henforces⟩, -⟩ :=
    run_enforces (options " b ,, a\t") environment words false
  obtain ⟨-, -, hrejects⟩ := run_enforces (options " , ") environment words false
  exact ⟨hchosen, ⟨shown, hshown, henforces policy hchosen⟩, by decide +kernel,
    by decide +kernel, hnone, hrejects " , " rfl hnone .check true rfl⟩

end Command

end FilterQuery
