import FilterQuery.Proofs.RoundTrip
import FilterQuery.Proofs.Spans

/-!
# FilterQuery.Proofs.BareStrings

Which strings may stand without quotes.  A string is written bare exactly if every operator
in front of it leaves it one value with its own text, and that value denotes the string; all
others are one quoted value in quotes.

* `Reads.of_lexeme`, `Reads.of_append` — what a text says is what its first token and its
  first part say, and what the others do;
* `value_of_reads` — an unquoted value has no blank and no `)` in it and starts with no quote;
* `scansAsComparison_text` — the text of a string behind a field and any operator;
* `exists_of_scans` — a text that stays one value behind `:` passes the tests for bare strings;
* `isBare_iff` — so these tests are the right ones.
-/

namespace FilterQuery

open Token

/-! ## what a text says, part by part -/

/-- The first token is the one that starts the text. -/
theorem Reads.of_lexeme {awaited : Bool} {c : Char} {cs : List Char} {l : Lexeme}
    {contents : List (Kind × String)} (h : Reads awaited (c :: cs) contents)
    (hc : Text.isBlank c = false) (hl : Spelled awaited c cs l) :
    ∃ more, contents = (l.kind, String.ofList l.text) :: more := by
  obtain ⟨pieces, hpieces, rfl⟩ := h 0
  cases hpieces with
  | blank hblank _ =>
    rw [hblank] at hc
    cases hc
  | @lexeme _ _ _ _ l' pieces _ hl' _ =>
    have hsame := (lexeme_of_spelled hl').symm.trans (lexeme_of_spelled hl)
    obtain rfl := Except.ok.inj hsame
    exact ⟨_, rfl⟩

/-- A text in front of another that does not prolong it says what it says by itself, and the
other one says the rest. -/
theorem Reads.of_append {awaited : Bool} {cs rest : List Char}
    {contents all : List (Kind × String)} (hall : Reads awaited (cs ++ rest) all)
    (h : Reads awaited cs contents) (hseparate : Separate (contents.map Prod.fst) rest) :
    ∃ more, all = contents ++ more ∧
      Reads (awaitedAfter awaited (contents.map Prod.fst)) rest more := by
  obtain ⟨pieces, hpieces, rfl⟩ := h 0
  obtain ⟨others, hothers, rfl⟩ := hall 0
  rw [List.map_map] at hseparate ⊢
  have hscan := hothers.scanFrom_eq []
  rw [hpieces.scanFrom_append hseparate, List.append_nil] at hscan
  obtain ⟨more, hmore, htokens⟩ := scans_of_scanFrom hscan
  rw [List.reverse_nil, List.nil_append, List.reverse_reverse] at htokens
  refine ⟨_, ?_, hmore.reads⟩
  have hcontents := congrArg (List.map content) htokens
  simpa [Function.comp_def] using hcontents

/-- Nothing of an unquoted value can end it, and its first character opens no quoted one. -/
theorem value_of_reads {s : String} (h : Reads true s.toList [(.literal false, s)]) :
    ∃ c cs, s.toList = c :: cs ∧ c ≠ '"' ∧ ∀ d ∈ c :: cs, isValuePart d = true := by
  obtain ⟨pieces, hpieces, hcontents⟩ := h 0
  obtain ⟨piece, rfl, hcontent⟩ := List.map_eq_singleton_iff.mp hcontents
  obtain ⟨hkind, htext⟩ := Prod.mk.inj hcontent
  have hfirst : [piece] = [] ++ piece :: [] := rfl
  obtain ⟨_, back, -, -, -, hshape⟩ :=
    hpieces.exists_shape Text.byteWidth_nil.symm (fun h => by cases h) hfirst
  rw [hkind, htext] at hshape
  generalize s.toList = cs at hshape
  cases hshape with
  | value hne hquote hinside hback =>
    obtain ⟨c, cs, hspan⟩ := List.exists_cons_of_ne_nil hne
    rw [hspan] at hquote hinside
    exact ⟨c, cs, hspan, fun hc => hquote (by rw [hc]; rfl), hinside⟩

/-! ## strings behind operators -/

/-- A field, an operator and the text behind them are scanned as these two and one value. -/
def ScansAsComparison (field : String) (op : Operator) (written : String) (quoted : Bool)
    (value : String) : Prop :=
  ∃ stream, TokenStream.scan (field ++ op.lexeme ++ written) = .ok stream ∧
    stream.tokens.map content =
      [(.field, field), (.operator op, op.lexeme), (.literal quoted, value)]

variable {field : String} {op : Operator} {written : String} {quoted : Bool} {value : String}

/-- The same of the characters. -/
theorem scansAsComparison_iff : ScansAsComparison field op written quoted value ↔
    Reads false (field.toList ++ (op.lexeme.toList ++ written.toList))
      [(.field, field), (.operator op, op.lexeme), (.literal quoted, value)] := by
  rw [ScansAsComparison, ← TokenStream.reads_iff, String.toList_append, String.toList_append,
    List.append_assoc]

/-- The text of a string is one value behind every operator, in quotes unless it is bare. -/
theorem scansAsComparison_text (hfield : isFieldName field = true) (op : Operator) (s : String) :
    ScansAsComparison field op (Literal.string s).text (!isBare s) s := by
  have hfinite : (Literal.string s).isFinite = true := rfl
  have hvalue : Reads true (Literal.string s).text.toList [(.literal (!isBare s), s)] :=
    Literal.reads_text hfinite
  have hseparate := Literal.separate_text hfinite op []
  rw [List.append_nil] at hseparate
  exact scansAsComparison_iff.mpr ((reads_field hfield).append (separate_operator op _)
    ((reads_operator op).append hseparate hvalue))

/-- A text behind `:` that is one value with its own text makes no other operator of it. -/
theorem head_ne_of_scans (hfield : isFieldName field = true) {s : String}
    (h : ScansAsComparison field .equal s false s) (cs : List Char) : s.toList ≠ '=' :: cs := by
  intro hs
  have hreads := scansAsComparison_iff.mp h
  obtain ⟨more, hmore, hrest⟩ :=
    hreads.of_append (reads_field hfield) (separate_operator .equal s.toList)
  rw [hs] at hrest
  have halias : Spelled false ':' ('=' :: cs)
      (verbatim (.operator .equalAlias) Operator.equalAlias.lexeme.toList cs) :=
    .operator (by simp [Operator.leading?, Operator.all, Operator.lexeme]) rfl
  obtain ⟨others, rfl⟩ := hrest.of_lexeme (by decide) halias
  cases hmore

/-- So it has all that a bare string needs. -/
theorem exists_of_scans (hfield : isFieldName field = true) {s : String}
    (h : ScansAsComparison field .equal s false s) : ∃ c cs, s.toList = c :: cs ∧
      c ≠ '"' ∧ c ≠ '=' ∧ ∀ d ∈ c :: cs, isValuePart d = true := by
  have hequal := head_ne_of_scans hfield h
  have hseparate : Separate [.field, .operator .equal] s.toList := by
    intro kind hkind d hd
    cases hkind
    obtain ⟨cs, hs⟩ := List.head?_eq_some_iff.mp hd
    exact beq_false_of_ne fun hd => hequal cs (hd ▸ hs)
  have hfront : Reads false (field.toList ++ Operator.equal.lexeme.toList)
      [(.field, field), (.operator .equal, Operator.equal.lexeme)] :=
    (reads_field hfield).append (separate_operator .equal []) (reads_operator .equal)
  have hreads := scansAsComparison_iff.mp h
  rw [← List.append_assoc] at hreads
  obtain ⟨more, hmore, hrest⟩ := hreads.of_append hfront hseparate
  cases hmore
  obtain ⟨c, cs, hs, hquote, hparts⟩ := value_of_reads hrest
  exact ⟨c, cs, hs, hquote, fun hc => hequal cs (hc ▸ hs), hparts⟩

/-- **A string is bare exactly when that is safe**: behind every operator it is one unquoted
value with its own text, and that value denotes the string.  Every other string is one quoted
value in quotes. -/
theorem isBare_iff (hfield : isFieldName field = true) (s : String) :
    (isBare s = true ↔
      (∀ op, ScansAsComparison field op s false s) ∧ Literal.ofUnquoted s = .string s) ∧
    (isBare s = false → ∀ op, ScansAsComparison field op (Literal.string s).text true s) := by
  have htext (op : Operator) := scansAsComparison_text hfield op s
  rw [Literal.isBare_eq_true_iff]
  refine ⟨⟨fun hbare => ⟨fun op => ?_, hbare.2⟩, fun h => ?_⟩, fun hbare op => ?_⟩
  · simpa [Literal.text, Literal.isBare_eq_true_iff.mpr hbare] using htext op
  · exact ⟨exists_of_scans hfield (h.1 .equal), h.2⟩
  · simpa [hbare] using htext op

/-- A backslash inside does no harm; a sign that would prolong an operator does. -/
theorem isBare_iff_backslash :
    isFieldName "a" = true ∧ (∀ op, ScansAsComparison "a" op "C:\\=é" false "C:\\=é") ∧
      isBare "=x\\" = false ∧
      ∀ op, ScansAsComparison "a" op "\"=x\\\\\"" true "=x\\" := by
  have hfield : isFieldName "a" = true := by decide
  have hbare : isBare "C:\\=é" = true := by decide +kernel
  have hquoted : isBare "=x\\" = false := by decide +kernel
  have htext : (Literal.string "=x\\").text = "\"=x\\\\\"" := by decide +kernel
  have hscans := (isBare_iff hfield "=x\\").2 hquoted
  rw [htext] at hscans
  exact ⟨hfield, ((isBare_iff hfield _).1.mp hbare).1, hquoted, hscans⟩

end FilterQuery
