import FilterQuery.Proofs.Spans

/-!
# FilterQuery.Proofs.ScanErrors

Where scanning stops, and why.  It stops at the first character at which no token starts:
what stands in front of that character can be scanned by itself, and the reason given says
what is wrong there (`Stuck`).

* `Text.splitClosing_eq_none_iff` — a quoted value has no end if each quote behind its start
  belongs to a backslash;
* `Token.cases_of_lexeme_error` — there are two reasons why no token starts at a character;
* `TokenStream.scan_stuck` — what an error says about the query.
-/

namespace FilterQuery

/-! ## quotes without an end -/

namespace Text

/-- The characters that are left when each backslash, from left to right, has taken the next
character with it; a backslash at the end has none to take. -/
def unconsumed : List Char → List Char
  | [] => []
  | '\\' :: _ :: rest => unconsumed rest
  | c :: rest => c :: unconsumed rest

/-- There is no closing quote if no quote is left. -/
theorem splitClosingFrom_eq_none_iff {body cs : List Char} :
    splitClosingFrom body cs = none ↔ '"' ∉ unconsumed cs := by
  fun_induction splitClosingFrom body cs with
  | case1 => simp [unconsumed]
  | case2 => simp [unconsumed]
  | case3 body c cs ih => simpa [unconsumed] using ih
  | case4 body c cs hquote hescape ih =>
    rw [unconsumed, List.mem_cons, not_or, ih]
    · exact (and_iff_right fun h => hquote h.symm).symm
    · exact fun d rest hc hcs => hescape d rest hc hcs

theorem splitClosing_eq_none_iff {cs : List Char} :
    splitClosing cs = none ↔ '"' ∉ unconsumed cs :=
  splitClosingFrom_eq_none_iff

end Text

/-! ## no token -/

/-- There is no operator where none of them fits. -/
theorem Operator.leading?_eq_none_iff {cs : List Char} :
    leading? cs = none ↔ ∀ op : Operator, ¬ op.lexeme.toList <+: cs := by
  simp only [leading?, List.find?_eq_none, List.isPrefixOf_iff_prefix]
  exact ⟨fun h op => h op (mem_all op), fun h op _ => h op⟩

namespace Token

/-- No token starts at a quote that is never closed, and none, unless a value is awaited, at
a character with which no token can start. -/
theorem cases_of_lexeme_error {awaited : Bool} {c : Char} {cs : List Char}
    {reason : ScanError.Reason} (h : lexeme awaited c cs = .error reason) :
    (reason = .unterminated ∧ c = '"' ∧ Text.splitClosing cs = none) ∨
      (reason = .unexpected c ∧ awaited = false ∧ (c ≠ '(' ∧ c ≠ ')' ∧ c ≠ '"') ∧
        isIdentifierStart c = false ∧ Operator.leading? (c :: cs) = none) := by
  unfold lexeme at h
  split at h
  · cases h
  rename_i hvalue
  split at h
  · cases h
  rename_i hopen
  split at h
  · cases h
  rename_i hclose
  split at h
  case isTrue hquote =>
    split at h
    · cases h
    · next hsplit =>
      cases h
      exact .inl ⟨rfl, hquote, hsplit⟩
  rename_i hquote
  split at h
  · cases h
  rename_i hword
  split at h
  · cases h
  · next hoperator =>
    cases h
    have hawaited : awaited = false := by simpa [hclose, hquote] using hvalue
    exact .inr ⟨rfl, hawaited, ⟨hopen, hclose, hquote⟩, by simpa using hword, hoperator⟩

end Token

/-! ## what an error says -/

/-- Why no token starts at `c`, behind the tokens `before` and in front of `back`. -/
inductive Stuck (before : List Token) (c : Char) (back : List Char) : ScanError.Reason → Prop
  /-- No value is awaited, and nothing else starts with the character. -/
  | unexpected (hvalue : ∀ last ∈ before.getLast?, last.kind.awaitsValue = false)
      (hblank : Text.isBlank c = false) (hword : isIdentifierStart c = false)
      (hmark : c ≠ '(' ∧ c ≠ ')' ∧ c ≠ '"')
      (hoperator : ∀ op : Operator, ¬ op.lexeme.toList <+: c :: back) :
      Stuck before c back (.unexpected c)
  /-- The value in quotes that starts here has no end. -/
  | unterminated (hquote : c = '"') (hopen : '"' ∉ Text.unconsumed back) :
      Stuck before c back .unterminated

/-- **An error names the first character at which no token starts, and why none does.**  What
stands in front of it can be scanned by itself. -/
theorem TokenStream.scan_stuck {source : String} {e : ScanError} (h : scan source = .error e) :
    ∃ (front : String) (c : Char) (back : List Char) (stream : TokenStream),
      source.toList = front.toList ++ c :: back ∧ e.position = front.utf8ByteSize ∧
        e.position < source.utf8ByteSize ∧ scan front = .ok stream ∧
        Stuck stream.tokens c back e.reason := by
  unfold scan at h
  cases hscan : Token.scanFrom [] false 0 source.toList with
  | ok tokens =>
    rw [hscan] at h
    cases h
  | error e' =>
    rw [hscan] at h
    cases h
    obtain ⟨front, c, back, pieces, hsource, hc, hposition, hfront, hstop⟩ :=
      scans_of_scanFrom_error hscan
    rw [Nat.zero_add] at hposition
    have hstream : scan (String.ofList front) = .ok ⟨pieces.map Piece.token, _⟩ :=
      scan_eq_ok_iff.mpr ⟨pieces, by rwa [String.toList_ofList], rfl⟩
    refine ⟨String.ofList front, c, back, _, by rw [hsource, String.toList_ofList],
      by rw [hposition, Text.utf8ByteSize_ofList], ?_, hstream, ?_⟩
    · have hpos := c.utf8Size_pos
      rw [hposition, ← Text.byteWidth_toList, hsource, Text.byteWidth_append,
        Text.byteWidth_cons]
      omega
    · obtain ⟨hreason, rfl, hopen⟩ | ⟨hreason, hawaited, hmark, hword, hoperator⟩ :=
        Token.cases_of_lexeme_error hstop
      · rw [hreason]
        exact .unterminated rfl (Text.splitClosing_eq_none_iff.mp hopen)
      · rw [hreason]
        exact .unexpected (awaitedAfter_eq_false_iff.mp hawaited) hc hword hmark
          (Operator.leading?_eq_none_iff.mp hoperator)

/-- Half an operator behind a character of two bytes, and a quote that only seems to be
closed. -/
theorem TokenStream.scan_stuck_both :
    (scan "a:\"é\" ~b" = .error ⟨7, .unexpected '~'⟩ ∧
      ∃ (front : String) (c : Char) (back : List Char) (stream : TokenStream),
        "a:\"é\" ~b".toList = front.toList ++ c :: back ∧ 7 = front.utf8ByteSize ∧
          7 < "a:\"é\" ~b".utf8ByteSize ∧ scan front = .ok stream ∧
          Stuck stream.tokens c back (.unexpected '~')) ∧
      scan "a:\"x\\\"" = .error ⟨2, .unterminated⟩ ∧
      ∃ (front : String) (c : Char) (back : List Char) (stream : TokenStream),
        "a:\"x\\\"".toList = front.toList ++ c :: back ∧ 2 = front.utf8ByteSize ∧
          2 < "a:\"x\\\"".utf8ByteSize ∧ scan front = .ok stream ∧
          Stuck stream.tokens c back .unterminated := by
  have hunexpected : scan "a:\"é\" ~b" = .error ⟨7, .unexpected '~'⟩ :=
    eq_error_of_error? (by decide +kernel)
  have hunterminated : scan "a:\"x\\\"" = .error ⟨2, .unterminated⟩ :=
    eq_error_of_error? (by decide +kernel)
  exact ⟨⟨hunexpected, scan_stuck hunexpected⟩, hunterminated, scan_stuck hunterminated⟩

end FilterQuery
