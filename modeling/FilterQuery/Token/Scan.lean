import FilterQuery.Identifier
import FilterQuery.Literal.Unquoted
import FilterQuery.Text.Blank
import FilterQuery.Text.Quoted
import FilterQuery.Text.Width
import FilterQuery.Token

/-!
# FilterQuery.Token.Scan

Splitting the text of a query into tokens.  Blanks separate tokens and are
dropped.  What starts at a character that is not blank depends on that
character and on one bit of memory, whether a value is awaited because the
token before was an operator:

* where a value is awaited, any character but `)` and `"` starts an unquoted
  value, which runs to the next blank or `)`;
* `(` and `)` stand alone, and `"` starts a quoted value;
* a letter or underscore starts a word, a run of identifier characters;
* everything else has to be an operator, the longest that fits.

Each step covers a nonempty span of the text (`span_append_rest`,
`span_ne_nil`), so scanning ends.
-/

namespace FilterQuery

/-! ## errors -/

/-- Why a text cannot be split into tokens. -/
inductive ScanError.Reason where
  | unexpected (c : Char)
  | unterminated
deriving DecidableEq

/-- A reason and the byte at which the token would have started. -/
structure ScanError where
  position : Nat
  reason : ScanError.Reason
deriving DecidableEq

namespace ScanError

/-- The reason in words. -/
def Reason.message : Reason → String
  | .unexpected c => "unrecognized character `" ++ c.toString ++ "`"
  | .unterminated => "unterminated quoted string"

/-- The reason and the place. -/
def message (e : ScanError) : String :=
  e.reason.message ++ " at position " ++ toString e.position

end ScanError

namespace Token

/-! ## one token -/

/-- A token without its position: the text it denotes, the characters it covers
and those that follow. -/
structure Lexeme where
  kind : Kind
  text : List Char
  span : List Char
  rest : List Char

/-- The token that starts at byte `position`. -/
def Lexeme.token (lexeme : Lexeme) (position : Nat) : Token :=
  ⟨lexeme.kind, String.ofList lexeme.text, position⟩

/-- An unquoted value runs to the next blank or `)`. -/
def isValuePart (c : Char) : Bool := !(Text.isBlank c || c == ')')

/-- The characters between the parentheses and the blanks beyond ASCII may be part
of a value. -/
theorem isValuePart_of_code {c : Char} (hlow : 0x2A ≤ c.toNat) (hhigh : c.toNat < 0x85) :
    isValuePart c = true := by
  have hblank := Text.inRanges_of_gap Text.blanks (c := c) (by decide) hlow hhigh
  have hclose : c ≠ ')' := by
    intro hc
    subst hc
    exact absurd hlow (by decide)
  simp [isValuePart, Text.isBlank, hblank, hclose]

/-- A word is a connective, a constant, or else the name of a field. -/
def wordKind (word : List Char) : Kind :=
  match Connective.ofWord? word with
  | some connective => .keyword connective
  | none => if (Literal.constant? word).isSome then .literal false else .field

/-- A token of the given kind that covers exactly its text. -/
def verbatim (kind : Kind) (text rest : List Char) : Lexeme := ⟨kind, text, text, rest⟩

/-- The token that starts at `c`, which is not blank, and goes on in `cs`. -/
def lexeme (valueAwaited : Bool) (c : Char) (cs : List Char) : Except ScanError.Reason Lexeme :=
  if valueAwaited && c != ')' && c != '"' then
    .ok (verbatim (.literal false) (c :: cs.takeWhile isValuePart) (cs.dropWhile isValuePart))
  else if c = '(' then .ok (verbatim .openGroup [c] cs)
  else if c = ')' then .ok (verbatim .closeGroup [c] cs)
  else if c = '"' then
    match Text.splitClosing cs with
    | some (body, rest) =>
      .ok ⟨.literal true, Text.unescape body, '"' :: body ++ ['"'], rest⟩
    | none => .error .unterminated
  else if isIdentifierStart c then
    let word := c :: cs.takeWhile isIdentifierPart
    .ok (verbatim (wordKind word) word (cs.dropWhile isIdentifierPart))
  else
    match Operator.leading? (c :: cs) with
    | some op =>
      let written := op.lexeme.toList
      .ok (verbatim (.operator op) written ((c :: cs).drop written.length))
    | none => .error (.unexpected c)

/-- The span and what follows it make up the text. -/
theorem span_append_rest {valueAwaited : Bool} {c : Char} {cs : List Char} {l : Lexeme}
    (h : lexeme valueAwaited c cs = .ok l) : l.span ++ l.rest = c :: cs := by
  unfold lexeme at h
  split at h
  · cases h; simp [verbatim, List.takeWhile_append_dropWhile]
  split at h
  · cases h; rfl
  split at h
  · cases h; rfl
  split at h
  · split at h
    · next hsplit =>
      cases h
      subst c
      simp [Text.splitClosing_eq_some hsplit]
    · cases h
  split at h
  · cases h; simp [verbatim, List.takeWhile_append_dropWhile]
  · split at h
    · next hop =>
      cases h
      exact Operator.lexeme_append_drop hop
    · cases h

/-- No span is empty. -/
theorem span_ne_nil {valueAwaited : Bool} {c : Char} {cs : List Char} {l : Lexeme}
    (h : lexeme valueAwaited c cs = .ok l) : l.span ≠ [] := by
  unfold lexeme at h
  split at h
  · cases h; simp [verbatim]
  split at h
  · cases h; simp [verbatim]
  split at h
  · cases h; simp [verbatim]
  split at h
  · split at h
    · cases h; simp
    · cases h
  split at h
  · cases h; simp [verbatim]
  · split at h
    · cases h; exact Operator.lexeme_ne_nil _
    · cases h

/-- Less is left than there was. -/
theorem length_rest_lt {valueAwaited : Bool} {c : Char} {cs : List Char} {l : Lexeme}
    (h : lexeme valueAwaited c cs = .ok l) : l.rest.length < (c :: cs).length := by
  have hpos := List.length_pos_iff.mpr (span_ne_nil h)
  rw [← span_append_rest h, List.length_append]
  omega

/-! ## all tokens -/

/-- Scan the characters from byte `position` on; `tokens` are those before it,
last first. -/
def scanFrom (tokens : List Token) (valueAwaited : Bool) (position : Nat) :
    List Char → Except ScanError (List Token)
  | [] => .ok tokens.reverse
  | c :: cs =>
    if Text.isBlank c then scanFrom tokens valueAwaited (position + c.utf8Size) cs
    else
      match _found : lexeme valueAwaited c cs with
      | .error reason => .error ⟨position, reason⟩
      | .ok l =>
        scanFrom (l.token position :: tokens) l.kind.awaitsValue
          (position + Text.byteWidth l.span) l.rest
termination_by cs => cs.length
decreasing_by
  · exact Nat.lt_succ_self cs.length
  · exact length_rest_lt _found

/-! ### one step -/

@[simp] theorem scanFrom_nil (tokens : List Token) (valueAwaited : Bool) (position : Nat) :
    scanFrom tokens valueAwaited position [] = .ok tokens.reverse := by
  rw [scanFrom]

/-- A blank is dropped, and a value that was awaited still is. -/
theorem scanFrom_blank {c : Char} (hc : Text.isBlank c = true) (tokens : List Token)
    (valueAwaited : Bool) (position : Nat) (cs : List Char) :
    scanFrom tokens valueAwaited position (c :: cs) =
      scanFrom tokens valueAwaited (position + c.utf8Size) cs := by
  rw [scanFrom, if_pos hc]

/-- A token is kept, and scanning goes on behind its span. -/
theorem scanFrom_lexeme {c : Char} {cs : List Char} {valueAwaited : Bool} {l : Lexeme}
    (hc : Text.isBlank c = false) (h : lexeme valueAwaited c cs = .ok l) (tokens : List Token)
    (position : Nat) :
    scanFrom tokens valueAwaited position (c :: cs) =
      scanFrom (l.token position :: tokens) l.kind.awaitsValue
        (position + Text.byteWidth l.span) l.rest := by
  rw [scanFrom, if_neg (by simp [hc])]
  split
  · next h' => rw [h] at h'; cases h'
  · next h' => rw [h] at h'; cases h'; rfl

/-- Scanning stops where no token starts. -/
theorem scanFrom_error {c : Char} {cs : List Char} {valueAwaited : Bool}
    {reason : ScanError.Reason} (hc : Text.isBlank c = false)
    (h : lexeme valueAwaited c cs = .error reason) (tokens : List Token) (position : Nat) :
    scanFrom tokens valueAwaited position (c :: cs) = .error ⟨position, reason⟩ := by
  rw [scanFrom, if_neg (by simp [hc])]
  split
  · next h' => rw [h] at h'; cases h'; rfl
  · next h' => rw [h] at h'; cases h'

/-- Tokens scanned earlier only precede the others. -/
theorem scanFrom_append (tokens earlier : List Token) (valueAwaited : Bool) (position : Nat)
    (cs : List Char) : scanFrom (tokens ++ earlier) valueAwaited position cs =
      (scanFrom tokens valueAwaited position cs).map (earlier.reverse ++ ·) := by
  fun_induction scanFrom tokens valueAwaited position cs with
  | case1 => simp [Except.map]
  | case2 _ _ _ c cs hc ih => rw [scanFrom_blank hc, ih]
  | case3 _ _ _ c cs hc reason h => rw [scanFrom_error (by simpa using hc) h]; rfl
  | case4 _ _ _ c cs hc l h ih =>
    rw [scanFrom_lexeme (by simpa using hc) h, ← List.cons_append, ih]

end Token

/-- The tokens of a query, or the first place where there is none. -/
def TokenStream.scan (source : String) : Except ScanError TokenStream :=
  (Token.scanFrom [] false 0 source.toList).map fun tokens => ⟨tokens, source.utf8ByteSize⟩

end FilterQuery
