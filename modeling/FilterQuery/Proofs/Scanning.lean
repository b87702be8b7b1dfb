import FilterQuery.Proofs.Spelling

/-!
# FilterQuery.Proofs.Scanning

Scanning as a relation, and how it takes texts apart and together.  `Scans`
lists the pieces of a text, each a token with the characters that it covers;
scanning succeeds exactly with the tokens so listed (`scan_eq_ok_iff`).

* `scans_of_scanFrom_error` — an error leaves behind what was scanned before it;
* `Scans.scanFrom_append`, `Scans.append` — texts may be put side by side where nothing is
  prolonged, whatever comes of the second one;
* `Scans.cut`, `Scans.split` — a text may be cut where one of its tokens starts, and
  where it ends;
* `Reads` — what a text says, wherever it stands.
-/

namespace FilterQuery

/-! ## all tokens -/

open Token

/-- A token together with the characters that it covers. -/
structure Piece where
  token : Token
  span : List Char

/-- The byte right behind a piece. -/
def Piece.stop (piece : Piece) : Nat := piece.token.position + Text.byteWidth piece.span

/-- The pieces of a text whose first character stands at byte `position`. -/
inductive Scans : Bool → Nat → List Char → List Piece → Prop where
  | done {valueAwaited position} : Scans valueAwaited position [] []
  | blank {valueAwaited position c cs pieces} (hc : Text.isBlank c = true)
      (h : Scans valueAwaited (position + c.utf8Size) cs pieces) :
      Scans valueAwaited position (c :: cs) pieces
  | lexeme {valueAwaited position c cs l pieces} (hc : Text.isBlank c = false)
      (hl : Spelled valueAwaited c cs l)
      (h : Scans l.kind.awaitsValue (position + Text.byteWidth l.span) l.rest pieces) :
      Scans valueAwaited position (c :: cs) (⟨l.token position, l.span⟩ :: pieces)

/-- What scanning finds are the tokens of pieces. -/
theorem scans_of_scanFrom {tokens ts : List Token} {valueAwaited : Bool} {position : Nat}
    {cs : List Char} (h : scanFrom tokens valueAwaited position cs = .ok ts) :
    ∃ pieces, Scans valueAwaited position cs pieces ∧
      ts = tokens.reverse ++ pieces.map Piece.token := by
  fun_induction scanFrom tokens valueAwaited position cs with
  | case1 =>
    cases h
    exact ⟨[], .done, by simp⟩
  | case2 _ _ _ _ _ hc ih =>
    obtain ⟨pieces, hpieces, hts⟩ := ih h
    exact ⟨pieces, .blank hc hpieces, hts⟩
  | case3 => cases h
  | case4 _ _ _ _ _ hc l hl ih =>
    obtain ⟨pieces, hpieces, hts⟩ := ih h
    exact ⟨_, .lexeme (by simpa using hc) (lexeme_eq_ok_iff.mp hl) hpieces, by simp [hts]⟩

/-- Scanning finds the tokens of the pieces. -/
theorem Scans.scanFrom_eq {valueAwaited : Bool} {position : Nat} {cs : List Char}
    {pieces : List Piece} (h : Scans valueAwaited position cs pieces) (tokens : List Token) :
    scanFrom tokens valueAwaited position cs =
      .ok (tokens.reverse ++ pieces.map Piece.token) := by
  induction h generalizing tokens with
  | done => simp
  | blank hc _ ih => rw [scanFrom_blank hc, ih]
  | lexeme hc hl _ ih =>
    rw [scanFrom_lexeme hc (lexeme_eq_ok_iff.mpr hl), ih]
    simp

/-- Is a value awaited behind tokens of these kinds? -/
def awaitedAfter (valueAwaited : Bool) : List Kind → Bool
  | [] => valueAwaited
  | kind :: kinds => awaitedAfter kind.awaitsValue kinds

@[simp] theorem awaitedAfter_concat (valueAwaited : Bool) (kinds : List Kind) (kind : Kind) :
    awaitedAfter valueAwaited (kinds ++ [kind]) = kind.awaitsValue := by
  induction kinds generalizing valueAwaited with
  | nil => rfl
  | cons first kinds ih => exact ih _

/-- Scanning stops at a character that is not blank; what stands in front of it has
pieces, and behind them no token starts there. -/
theorem scans_of_scanFrom_error {tokens : List Token} {awaited : Bool} {position : Nat}
    {cs : List Char} {e : ScanError} (h : scanFrom tokens awaited position cs = .error e) :
    ∃ front c back pieces, cs = front ++ c :: back ∧ Text.isBlank c = false ∧
      e.position = position + Text.byteWidth front ∧ Scans awaited position front pieces ∧
      lexeme (awaitedAfter awaited (pieces.map (·.token.kind))) c back = .error e.reason := by
  fun_induction scanFrom tokens awaited position cs with
  | case1 => cases h
  | case2 _ awaited position c cs hc ih =>
    obtain ⟨front, d, back, pieces, rfl, hd, hposition, hfront, hstop⟩ := ih h
    refine ⟨c :: front, d, back, pieces, rfl, hd, ?_, .blank hc hfront, hstop⟩
    rw [hposition, Text.byteWidth_cons, Nat.add_assoc]
  | case3 _ awaited position c cs hc reason hreason =>
    cases h
    exact ⟨[], c, cs, [], rfl, by simpa using hc, rfl, .done, hreason⟩
  | case4 _ awaited position c cs hc l hl ih =>
    obtain ⟨front, d, back, pieces, hrest, hd, hposition, hfront, hstop⟩ := ih h
    obtain ⟨span, hspan, rfl, htruncated⟩ := (spelled_of_lexeme hl).cut hrest
    refine ⟨c :: (span ++ front), d, back, _, rfl, hd, ?_,
      .lexeme (l := { l with rest := front }) (by simpa using hc) htruncated hfront, hstop⟩
    rw [hposition, hspan, ← List.cons_append, Text.byteWidth_append, Nat.add_assoc]

/-- The tokens of a query are those of its pieces. -/
theorem TokenStream.scan_eq_ok_iff {source : String} {stream : TokenStream} :
    scan source = .ok stream ↔ ∃ pieces, Scans false 0 source.toList pieces ∧
      stream = ⟨pieces.map Piece.token, source.utf8ByteSize⟩ := by
  unfold scan
  constructor
  · intro h
    cases hscan : scanFrom [] false 0 source.toList with
    | error e =>
      rw [hscan] at h
      cases h
    | ok tokens =>
      rw [hscan] at h
      cases h
      obtain ⟨pieces, hpieces, rfl⟩ := scans_of_scanFrom hscan
      exact ⟨pieces, hpieces, rfl⟩
  · intro h
    obtain ⟨pieces, hpieces, rfl⟩ := h
    rw [hpieces.scanFrom_eq]
    rfl

/-- What has a result succeeds with it. -/
theorem eq_ok_of_toOption {ε α : Type} {outcome : Except ε α} {a : α}
    (h : outcome.toOption = some a) : outcome = .ok a := by
  cases outcome with
  | error e => cases h
  | ok b => rw [Option.some.inj h]

/-- What has an error fails with it. -/
theorem eq_error_of_error? {ε α : Type} {outcome : Except ε α} {e : ε}
    (h : (match outcome with | .error e => some e | .ok _ => none) = some e) :
    outcome = .error e := by
  cases outcome with
  | error e => rw [Option.some.inj h]
  | ok a => cases h

/-- The text does not prolong the last of the tokens right before it. -/
def Separate (kinds : List Kind) (cs : List Char) : Prop :=
  ∀ kind ∈ kinds.getLast?, ∀ d ∈ cs.head?, kind.prolongedBy d = false

/-- Only the last token counts. -/
theorem Separate.of_cons {kind : Kind} {kinds : List Kind} {cs : List Char}
    (h : Separate (kind :: kinds) cs) : Separate kinds cs := by
  intro last hlast
  refine h last ?_
  rw [List.getLast?_cons, hlast]
  rfl

/-- The text ends every token before it: it is empty or starts with a blank or a
closing parenthesis. -/
def EndsTokens (cs : List Char) : Prop := ∀ c ∈ cs.head?, isValuePart c = false

/-- One character decides. -/
theorem endsTokens_cons {c : Char} (h : isValuePart c = false) (cs : List Char) :
    EndsTokens (c :: cs) := by
  intro d hd
  cases hd
  exact h

/-- Nothing before it is prolonged. -/
theorem EndsTokens.separate {cs : List Char} (h : EndsTokens cs) (kinds : List Kind) :
    Separate kinds cs :=
  fun kind _ c hc => kind.prolongedBy_of_isValuePart (h c hc)

/-- In front of a text that does not prolong the last token, no token runs on: only one
that reaches to the end of the first text could. -/
theorem Scans.spelled_append {awaited : Bool} {position : Nat} {c : Char} {cs rest : List Char}
    {l : Lexeme} {pieces : List Piece} (h : Scans l.kind.awaitsValue position l.rest pieces)
    (hl : Spelled awaited c cs l)
    (hseparate : Separate (l.kind :: pieces.map (·.token.kind)) rest) :
    Spelled awaited c (cs ++ rest) { l with rest := l.rest ++ rest } := by
  refine hl.append fun hnil => ?_
  rw [hnil] at h
  cases h
  exact hseparate _ rfl

/-- Two texts may be put side by side when the second one does not prolong the
last token of the first. -/
theorem Scans.append {valueAwaited : Bool} {position : Nat} {cs rest : List Char}
    {pieces more : List Piece} (h : Scans valueAwaited position cs pieces)
    (hseparate : Separate (pieces.map (·.token.kind)) rest)
    (hrest : Scans (awaitedAfter valueAwaited (pieces.map (·.token.kind)))
      (position + Text.byteWidth cs) rest more) :
    Scans valueAwaited position (cs ++ rest) (pieces ++ more) := by
  induction h with
  | done => exact hrest
  | blank hc _ ih =>
    refine .blank hc (ih hseparate ?_)
    rwa [Text.byteWidth_cons, ← Nat.add_assoc] at hrest
  | @lexeme _ position c cs l pieces hc hl h ih =>
    refine .lexeme (l := { l with rest := l.rest ++ rest }) hc (h.spelled_append hl hseparate)
      (ih hseparate.of_cons ?_)
    rwa [Nat.add_assoc, ← Text.byteWidth_append, span_append_rest (lexeme_of_spelled hl)]

/-- Behind a first text that is not prolonged scanning goes on with the second one,
whatever comes of it. -/
theorem Scans.scanFrom_append {awaited : Bool} {position : Nat} {cs rest : List Char}
    {pieces : List Piece} (h : Scans awaited position cs pieces)
    (hseparate : Separate (pieces.map (·.token.kind)) rest) (tokens : List Token) :
    scanFrom tokens awaited position (cs ++ rest) =
      scanFrom ((pieces.map Piece.token).reverse ++ tokens)
        (awaitedAfter awaited (pieces.map (·.token.kind))) (position + Text.byteWidth cs)
        rest := by
  induction h generalizing tokens with
  | done => rfl
  | blank hc _ ih =>
    rw [List.cons_append, scanFrom_blank hc, ih hseparate, Text.byteWidth_cons, Nat.add_assoc]
  | @lexeme _ position c cs l pieces hc hl h ih =>
    rw [List.cons_append,
      scanFrom_lexeme hc (lexeme_eq_ok_iff.mpr (h.spelled_append hl hseparate)),
      ih hseparate.of_cons, Nat.add_assoc, ← Text.byteWidth_append,
      span_append_rest (lexeme_of_spelled hl)]
    simp [awaitedAfter, Lexeme.token]

/-- A text may be cut where one of its tokens starts. -/
theorem Scans.cut {awaited : Bool} {position : Nat} {cs : List Char}
    {before after : List Piece} {piece : Piece}
    (h : Scans awaited position cs (before ++ piece :: after)) :
    ∃ front c back, cs = front ++ c :: back ∧ Text.isBlank c = false ∧
      piece.token.position = position + Text.byteWidth front ∧
      Scans awaited position front before ∧
      Scans (awaitedAfter awaited (before.map (·.token.kind))) piece.token.position (c :: back)
        (piece :: after) := by
  generalize hpieces : before ++ piece :: after = pieces at h
  induction h generalizing before with
  | done => simp at hpieces
  | @blank awaited position c cs pieces hc _ ih =>
    obtain ⟨front, d, back, rfl, hd, hstart, hfront, hback⟩ := ih hpieces
    refine ⟨c :: front, d, back, rfl, hd, ?_, .blank hc hfront, hback⟩
    rw [hstart, Text.byteWidth_cons, Nat.add_assoc]
  | @lexeme awaited position c cs l pieces hc hl h ih =>
    cases before with
    | nil =>
      cases hpieces
      exact ⟨[], c, cs, rfl, hc, rfl, .done, .lexeme hc hl h⟩
    | cons first before =>
      obtain ⟨rfl, rfl⟩ := List.cons.inj hpieces
      obtain ⟨front, d, back, hrest, hd, hstart, hfront, hback⟩ := ih rfl
      obtain ⟨span, hspan, rfl, htruncated⟩ := hl.cut hrest
      refine ⟨c :: (span ++ front), d, back, rfl, hd, ?_,
        .lexeme (l := { l with rest := front }) hc htruncated hfront, hback⟩
      rw [hstart, hspan, ← List.cons_append, Text.byteWidth_append, Nat.add_assoc]

/-- A text may be cut where any of its tokens starts, and at its end.  No blank
stands there. -/
theorem Scans.exists_cut {cs : List Char} {pieces : List Piece} {l : Lookahead}
    (h : Scans false 0 cs pieces)
    (hl : l ∈ TokenStream.lookaheads ⟨pieces.map Piece.token, Text.byteWidth cs⟩) :
    ∃ front back before after, cs = front ++ back ∧ pieces = before ++ after ∧
      l.position = Text.byteWidth front ∧ (∀ c ∈ back.head?, Text.isBlank c = false) ∧
      Scans false 0 front before ∧
      Scans (awaitedAfter false (before.map (·.token.kind))) l.position back after := by
  obtain hl | hl := List.mem_append.mp hl
  · obtain ⟨t, ht, rfl⟩ := List.mem_map.mp hl
    obtain ⟨piece, hpiece, rfl⟩ := List.mem_map.mp ht
    obtain ⟨before, after, rfl⟩ := List.append_of_mem hpiece
    obtain ⟨front, c, back, hcs, hc, hstart, hfront, hback⟩ := h.cut
    rw [Nat.zero_add] at hstart
    refine ⟨front, c :: back, before, piece :: after, hcs, rfl, hstart, ?_, hfront, hback⟩
    intro d hd
    cases hd
    exact hc
  · rw [List.mem_singleton] at hl
    subst hl
    exact ⟨cs, [], pieces, [], by simp, by simp, rfl, by simp, h, .done⟩

/-- A text may be cut where one of its tokens starts, and where it ends. -/
theorem Scans.split {valueAwaited : Bool} {position : Nat} {cs : List Char}
    {before after : List Piece} {piece : Piece}
    (h : Scans valueAwaited position cs (before ++ piece :: after)) :
    ∃ front back, cs = front ++ piece.span ++ back ∧
      piece.token.position = position + Text.byteWidth front ∧
      Scans valueAwaited position front before ∧
      Scans piece.token.kind.awaitsValue piece.stop back after := by
  obtain ⟨front, c, cs, rfl, hc, hposition, hfront, hpiece⟩ := h.cut
  generalize hstart : piece.token.position = start at hposition hpiece
  cases hpiece with
  | blank hblank _ =>
    rw [hblank] at hc
    cases hc
  | @lexeme _ _ _ _ l _ _ hl hafter =>
    refine ⟨front, l.rest, ?_, hposition, hfront, hafter⟩
    rw [List.append_assoc, span_append_rest (lexeme_of_spelled hl)]

/-! ## what a text says -/

/-- The text, wherever it stands, has tokens with these contents. -/
def Reads (valueAwaited : Bool) (cs : List Char) (contents : List (Kind × String)) : Prop :=
  ∀ position, ∃ pieces, Scans valueAwaited position cs pieces ∧
    pieces.map (·.token.content) = contents

/-- Where a text stands does not change what it says. -/
theorem Scans.reads {valueAwaited : Bool} {position : Nat} {cs : List Char}
    {pieces : List Piece} (h : Scans valueAwaited position cs pieces) :
    Reads valueAwaited cs (pieces.map (·.token.content)) := by
  intro position'
  induction h generalizing position' with
  | done => exact ⟨[], .done, rfl⟩
  | blank hc _ ih =>
    obtain ⟨moved, hmoved, hcontents⟩ := ih (position' + _)
    exact ⟨moved, .blank hc hmoved, hcontents⟩
  | lexeme hc hl _ ih =>
    obtain ⟨moved, hmoved, hcontents⟩ := ih (position' + _)
    exact ⟨_, .lexeme hc hl hmoved, congrArg (_ :: ·) hcontents⟩

namespace Reads

theorem nil (valueAwaited : Bool) : Reads valueAwaited [] [] :=
  fun _ => ⟨[], .done, rfl⟩

/-- A blank says nothing. -/
theorem blank {valueAwaited : Bool} {c : Char} {cs : List Char}
    {contents : List (Kind × String)} (hc : Text.isBlank c = true)
    (h : Reads valueAwaited cs contents) : Reads valueAwaited (c :: cs) contents := by
  intro position
  obtain ⟨pieces, hpieces, hcontents⟩ := h (position + c.utf8Size)
  exact ⟨pieces, .blank hc hpieces, hcontents⟩

/-- One token, and what follows its span. -/
theorem lexeme {valueAwaited : Bool} {c : Char} {cs : List Char} {l : Lexeme}
    {contents : List (Kind × String)} (hc : Text.isBlank c = false)
    (hl : Spelled valueAwaited c cs l) (h : Reads l.kind.awaitsValue l.rest contents) :
    Reads valueAwaited (c :: cs) ((l.kind, String.ofList l.text) :: contents) := by
  intro position
  obtain ⟨pieces, hpieces, rfl⟩ := h (position + Text.byteWidth l.span)
  exact ⟨_, .lexeme hc hl hpieces, rfl⟩

/-- Two texts side by side say what each of them says. -/
theorem append {valueAwaited : Bool} {cs rest : List Char}
    {contents more : List (Kind × String)} (h : Reads valueAwaited cs contents)
    (hseparate : Separate (contents.map Prod.fst) rest)
    (hrest : Reads (awaitedAfter valueAwaited (contents.map Prod.fst)) rest more) :
    Reads valueAwaited (cs ++ rest) (contents ++ more) := by
  intro position
  obtain ⟨pieces, hpieces, rfl⟩ := h position
  obtain ⟨others, hothers, rfl⟩ := hrest (position + Text.byteWidth cs)
  rw [List.map_map] at hseparate hothers
  exact ⟨pieces ++ others, hpieces.append hseparate hothers, List.map_append⟩

/-- An open parenthesis, where no value is awaited. -/
theorem openGroup {cs : List Char} {contents : List (Kind × String)}
    (h : Reads false cs contents) : Reads false ('(' :: cs) ((.openGroup, "(") :: contents) :=
  lexeme (by decide) .openGroup h

/-- A closing parenthesis. -/
theorem closeGroup {valueAwaited : Bool} {cs : List Char} {contents : List (Kind × String)}
    (h : Reads false cs contents) :
    Reads valueAwaited (')' :: cs) ((.closeGroup, ")") :: contents) :=
  lexeme (by decide) .closeGroup h

/-- A text in parentheses, and what follows. -/
theorem group {cs rest : List Char} {contents more : List (Kind × String)}
    (h : Reads false cs contents) (hrest : Reads false rest more) :
    Reads false ('(' :: (cs ++ ')' :: rest))
      ((.openGroup, "(") :: (contents ++ (.closeGroup, ")") :: more)) := by
  have hends : EndsTokens (')' :: rest) := endsTokens_cons (by decide) rest
  exact (h.append (hends.separate _) hrest.closeGroup).openGroup

/-- The word for a connective, between blanks. -/
theorem keyword {rest : List Char} {contents : List (Kind × String)}
    (h : Reads false rest contents) (k : Connective) :
    Reads false (' ' :: (k.keyword.toList ++ ' ' :: rest))
      ((.keyword k, k.keyword) :: contents) := by
  have hword : Reads false k.keyword.toList [(.keyword k, k.keyword)] := by
    cases k <;> exact lexeme (by decide) (.word (by decide)) (.nil false)
  have hends : EndsTokens (' ' :: rest) := endsTokens_cons (by decide) rest
  exact blank (by decide) (hword.append (hends.separate _) (h.blank (by decide)))

end Reads

/-- What a query says is what the contents of its tokens are. -/
theorem TokenStream.reads_iff {source : String} {contents : List (Kind × String)} :
    Reads false source.toList contents ↔
      ∃ stream, scan source = .ok stream ∧ stream.tokens.map content = contents := by
  constructor
  · intro h
    obtain ⟨pieces, hpieces, hcontents⟩ := h 0
    refine ⟨_, scan_eq_ok_iff.mpr ⟨pieces, hpieces, rfl⟩, ?_⟩
    rw [← hcontents, List.map_map]
    rfl
  · intro h
    obtain ⟨stream, hscan, rfl⟩ := h
    obtain ⟨pieces, hpieces, rfl⟩ := scan_eq_ok_iff.mp hscan
    rw [List.map_map]
    exact hpieces.reads

end FilterQuery
