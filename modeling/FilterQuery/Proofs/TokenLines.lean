import FilterQuery.Command.Report
import FilterQuery.Proofs.Numerals

/-!
# FilterQuery.Proofs.TokenLines

The dump of the tokens of a query, line by line: a heading, a line for each token with its
kind, its text in quotes and its position, a line for the end, and an empty line.

* `Lookahead.line` — the line of a token;
* `Lookahead.not_mem_line` — it is one line, whatever the text of the token, since a line
  feed is escaped in quotes;
* `ShowsTokens`, `showsTokens` — the whole dump, if it is asked for and there are tokens.
-/

namespace FilterQuery

/-! ## lines -/

/-- The kind of a token, with what belongs to it. -/
def Token.Kind.label : Token.Kind → String
  | .field => "Field"
  | .operator op => "Operator(" ++ op.name ++ ")"
  | .keyword connective => "Keyword(" ++ connective.name ++ ")"
  | .openGroup => "LParen"
  | .closeGroup => "RParen"
  | .literal true => "Literal \x7b quoted: true \x7d"
  | .literal false => "Literal \x7b quoted: false \x7d"

/-- That is the dump of the kind on one line. -/
theorem Token.Kind.inline_dump (kind : Token.Kind) : kind.dump.inline = kind.label := by
  cases kind with
  | operator op =>
    rw [dump, Dump.inline, Dump.inlineItems, Dump.inlineItems, Dump.inline]
    simp [label]
  | keyword connective =>
    rw [dump, Dump.inline, Dump.inlineItems, Dump.inlineItems, Dump.inline]
    simp [label]
  | literal quoted =>
    rw [dump, Dump.inline, Dump.inlineMembers, Dump.inlineMembers, Dump.inlineMember,
      Dump.ofBool, Dump.inline]
    cases quoted <;> simp [label]
  | _ => simp only [dump, Dump.inline, label]

namespace Lookahead

/-- The kind of what was found. -/
def label : Lookahead → String
  | .token t => t.kind.label
  | .endOfInput _ => "End"

/-- The line that shows what was found. -/
def line (found : Lookahead) : String :=
  "Token \x7b " ++ ", ".intercalate ["kind: " ++ found.label, "text: " ++ Dump.quote found.text,
    "position: " ++ toString found.position] ++ " \x7d"

/-- That is its dump on one line. -/
theorem inline_dump (found : Lookahead) : found.dump.inline = found.line := by
  have hkind : found.kindDump.inline = found.label := by
    cases found with
    | token t => exact t.kind.inline_dump
    | endOfInput position => simp only [kindDump, Dump.inline, label]
  simp [dump, Dump.inline, Dump.inlineMembers, Dump.inlineMember, hkind, Dump.ofNat, line]

end Lookahead

/-! ## line feeds -/

/-- Hexadecimal digits are no line feed. -/
theorem Dump.not_mem_toDigits (n : Nat) : '\n' ∉ Nat.toDigits 16 n := by
  have hdigit : ∀ m < 16, Nat.digitChar m ≠ '\n' := by decide
  induction n using Nat.strongRecOn with
  | _ n ih =>
    by_cases hn : n < 16
    · rw [Nat.toDigits_of_lt_base hn, List.mem_singleton]
      exact (hdigit n hn).symm
    · rw [Nat.toDigits_of_base_le (by decide) (Nat.le_of_not_lt hn), List.mem_append,
        List.mem_singleton, not_or]
      exact ⟨ih _ (Nat.div_lt_self (by omega) (by decide)),
        (hdigit _ (Nat.mod_lt n (by decide))).symm⟩

/-- No character is written with a line feed. -/
theorem Dump.not_mem_escapeChar (c : Char) : '\n' ∉ escapeChar c := by
  by_cases hc : c = '\n'
  · subst hc
    decide
  · have hdigits := not_mem_toDigits c.toNat
    unfold escapeChar
    grind

/-- So no string in quotes is. -/
theorem Dump.not_mem_quote (s : String) : '\n' ∉ (quote s).toList := by
  rw [quote, String.toList_ofList]
  simp [not_mem_escapeChar]

/-- No kind is. -/
theorem Token.Kind.not_mem_label (kind : Token.Kind) : '\n' ∉ kind.label.toList := by
  cases kind with
  | operator op => cases op <;> decide +kernel
  | keyword connective => cases connective <;> decide +kernel
  | literal quoted => cases quoted <;> decide +kernel
  | _ => decide +kernel

/-- **What was found is shown on one line.** -/
theorem Lookahead.not_mem_line (found : Lookahead) : '\n' ∉ found.line.toList := by
  have hlabel : '\n' ∉ found.label.toList := by
    cases found with
    | token t => exact t.kind.not_mem_label
    | endOfInput position =>
      rw [label]
      decide +kernel
  have hposition : '\n' ∉ Nat.toDigits 10 found.position :=
    fun hmem => absurd (Decimal.isDigit_of_mem_toDigits hmem) (by decide)
  have hquote := Dump.not_mem_quote found.text
  simp [line, String.intercalate_cons_cons, hlabel, hposition, hquote]

/-! ## the dump -/

namespace Command

/-- What is shown of the tokens of a query, if that is asked for: a heading, in bold type
if there is colour, the lines of all that a reader of the tokens sees, in its order, and an
empty line.  Without tokens nothing is shown. -/
structure ShowsTokens (color : Bool) (source : String) (shown : Bool → String) : Prop where
  unasked : shown false = ""
  rejected : ∀ e, TokenStream.scan source = .error e → shown true = ""
  lines : ∀ stream, TokenStream.scan source = .ok stream → shown true =
    (if color then "\x1b[1mTokens:\x1b[0m" else "Tokens:") ++ "\n" ++
      String.join (stream.lookaheads.map fun found => found.line ++ "\n") ++ "\n"
  /-- A line is no more than one line. -/
  unbroken : ∀ stream, TokenStream.scan source = .ok stream →
    ∀ found ∈ stream.lookaheads, '\n' ∉ found.line.toList

/-- The tokens in front of the output, if that was asked for. -/
def shownTokens (debug color : Bool) (source : String) : String :=
  if debug then renderTokenDump color source else ""

/-- **Tokens are shown line by line.** -/
theorem showsTokens (color : Bool) (source : String) :
    ShowsTokens color source fun debug => shownTokens debug color source where
  unasked := rfl
  rejected e h := by simp [shownTokens, renderTokenDump, h]
  lines stream h := by
    have hheading : Style.strong.paint color "Tokens:" =
        if color then "\x1b[1mTokens:\x1b[0m" else "Tokens:" := by
      cases color <;> decide +kernel
    simp [shownTokens, renderTokenDump, h, hheading, Lookahead.inline_dump]
  unbroken stream _ found _ := found.not_mem_line

/-- Something is shown where there are tokens. -/
theorem ShowsTokens.ne_empty_iff {color : Bool} {source : String} {shown : Bool → String}
    (h : ShowsTokens color source shown) :
    shown true ≠ "" ↔ ∃ stream, TokenStream.scan source = .ok stream := by
  cases hscan : TokenStream.scan source with
  | error e => simp [h.rejected e hscan]
  | ok stream => simp [h.lines stream hscan]

end Command

end FilterQuery
