import FilterQuery.Proofs.Lists
import FilterQuery.Proofs.Scanning
import FilterQuery.Proofs.Words

/-!
# FilterQuery.Proofs.Spans

Scanning loses nothing and cuts nothing short.  The tokens of a text cover spans
that follow one another, only blanks stand between them (`Scans.pairwise`,
`Scans.blank_or_covered`), and each span has the `Shape` of its token: what the
token says is what stands there, and the span goes on as far as the rules for
that kind of token allow.

* `Operator.length_le_of_leading?` — the operator that is found is the longest;
* `Text.quotes_of_splitClosing` — what stands between two quotes denotes the
  text of the token;
* `Spelled.apart` — no name is cut in two, so a word is a whole run of name
  characters and not only the end of one.
-/

namespace FilterQuery

/-! ## parts of a text -/

namespace Text

/-- The characters, between two parts of a text, are all of one class, and neither
part goes on with that class. -/
structure IsRun (p : Char → Bool) (front run back : List Char) : Prop where
  inside : ∀ c ∈ run, p c = true
  before : ∀ c ∈ front.getLast?, p c = false
  after : ∀ c ∈ back.head?, p c = false

/-- What the characters between two quotes denote.  A backslash takes the next
character with it: it disappears in front of a quote or another backslash and
stays in front of everything else.  So no quote stands there without a backslash,
and no backslash without another character. -/
inductive Quotes : List Char → List Char → Prop
  | nil : Quotes [] []
  | plain {c : Char} {body text : List Char} (hquote : c ≠ '"') (hescape : c ≠ '\\')
      (h : Quotes body text) : Quotes (c :: body) (c :: text)
  | escaped {c : Char} {body text : List Char} (hc : c = '"' ∨ c = '\\')
      (h : Quotes body text) : Quotes ('\\' :: c :: body) (c :: text)
  | kept {c : Char} {body text : List Char} (hquote : c ≠ '"') (hescape : c ≠ '\\')
      (h : Quotes body text) : Quotes ('\\' :: c :: body) ('\\' :: c :: text)

/-- What precedes the closing quote denotes a text. -/
theorem exists_quotes {body cs inside rest : List Char}
    (h : splitClosingFrom body cs = some (inside, rest)) :
    ∃ more text, inside = body.reverse ++ more ∧ Quotes more text := by
  fun_induction splitClosingFrom body cs with
  | case1 => cases h
  | case2 =>
    cases h
    exact ⟨[], [], by simp, .nil⟩
  | case3 body c cs ih =>
    obtain ⟨more, text, rfl, hquotes⟩ := ih h
    by_cases hc : c = '"' ∨ c = '\\'
    · exact ⟨_, _, by simp, .escaped hc hquotes⟩
    · obtain ⟨hquote, hescape⟩ := not_or.mp hc
      exact ⟨_, _, by simp, .kept hquote hescape hquotes⟩
  | case4 body c cs hquote hescape ih =>
    obtain ⟨more, text, rfl, hquotes⟩ := ih h
    have hbackslash : c ≠ '\\' := by
      cases cs with
      | nil => cases h
      | cons d cs => exact fun hc => hescape d cs hc rfl
    exact ⟨_, _, by simp, .plain hquote hbackslash hquotes⟩

/-- A character that is no backslash is kept. -/
theorem unescapeFrom_cons {c : Char} (hescape : c ≠ '\\') (before cs : List Char) :
    unescapeFrom before (c :: cs) = unescapeFrom (c :: before) cs := by
  rw [unescapeFrom]
  · exact fun _ hc _ => hescape hc
  · exact fun _ hc _ => hescape hc

/-- The text that quoted characters denote is the one that is read. -/
theorem Quotes.unescapeFrom_eq {body text : List Char} (h : Quotes body text)
    (before : List Char) : unescapeFrom before body = before.reverse ++ text := by
  induction h generalizing before with
  | nil => simp [unescapeFrom]
  | plain hquote hescape _ ih => simp [unescapeFrom_cons hescape, ih]
  | escaped hc _ ih => obtain rfl | rfl := hc <;> simp [unescapeFrom, ih]
  | kept hquote hescape _ ih =>
    rw [unescapeFrom, unescapeFrom_cons hescape, ih]
    · simp
    · exact fun _ _ hc => hquote (List.cons.inj hc).1
    · exact fun _ _ hc => hescape (List.cons.inj hc).1

/-- What precedes the closing quote denotes what is read of it. -/
theorem quotes_of_splitClosing {cs body rest : List Char}
    (h : splitClosing cs = some (body, rest)) : Quotes body (unescape body) := by
  obtain ⟨more, text, rfl, hquotes⟩ := exists_quotes h
  have htext := hquotes.unescapeFrom_eq []
  simp only [List.reverse_nil, List.nil_append] at htext ⊢
  rwa [unescape, htext]

/-- Where a run ends the class does not go on. -/
theorem head?_dropWhile {p : Char → Bool} {cs : List Char} :
    ∀ d ∈ (cs.dropWhile p).head?, p d = false := by
  intro d hd
  have hstop := List.head?_dropWhile_not p cs
  rwa [hd] at hstop

/-- No name goes on from the first text into the second. -/
def Apart (front cs : List Char) : Prop :=
  ∀ c ∈ front.getLast?, isIdentifierPart c = true → ∀ d ∈ cs.head?, isIdentifierPart d = false

/-- Nothing goes on from an empty text. -/
theorem apart_nil (cs : List Char) : Apart [] cs := by
  intro c hc
  cases hc

/-- The last character decides. -/
theorem Apart.append {front cs : List Char} (h : Apart front cs) (hne : front ≠ [])
    (before : List Char) : Apart (before ++ front) cs := by
  intro c hc
  rw [List.getLast?_append] at hc
  cases hlast : front.getLast? with
  | none => exact absurd (List.getLast?_eq_none_iff.mp hlast) hne
  | some d =>
    rw [hlast] at hc
    cases hc
    exact h c hlast

end Text

/-- The operator that is found is the longest that fits. -/
theorem Operator.length_le_of_leading? {cs : List Char} {op other : Operator}
    (h : leading? cs = some op) (hfits : other.lexeme.toList <+: cs) :
    other.lexeme.toList.length ≤ op.lexeme.toList.length := by
  obtain ⟨-, before, after, hall, hbefore⟩ := List.find?_eq_some_iff_append.mp h
  have hsorted : all.Pairwise fun a b => b.lexeme.toList.length ≤ a.lexeme.toList.length := by
    decide
  have hmem : other ∈ before ++ op :: after := hall ▸ mem_all other
  rw [hall] at hsorted
  obtain hother | rfl | hother : other ∈ before ∨ other = op ∨ other ∈ after := by
    simpa using hmem
  · have hnot := hbefore other hother
    rw [List.isPrefixOf_iff_prefix.mpr hfits] at hnot
    cases hnot
  · exact Nat.le_refl _
  · exact (List.pairwise_cons.mp (List.pairwise_append.mp hsorted).2.1).1 other hother

/-! ## the shape of a token -/

namespace Token

/-- A token where it stands in a text: its kind, its text and its span, behind
`front` and in front of `back`.  `awaited` tells whether the token before it is an
operator. -/
inductive Shape (front back : List Char) : (awaited : Bool) → Kind → List Char → List Char → Prop
  | openGroup : Shape front back false .openGroup ['('] ['(']
  | closeGroup {awaited : Bool} : Shape front back awaited .closeGroup [')'] [')']
  /-- A quoted value, and what its characters denote. -/
  | quoted {awaited : Bool} {body text : List Char} (h : Text.Quotes body text) :
      Shape front back awaited (.literal true) text ('"' :: (body ++ ['"']))
  /-- An operator, the longest that fits here. -/
  | operator {op : Operator}
      (hlongest : ∀ other : Operator, other.lexeme.toList <+: op.lexeme.toList ++ back →
        other.lexeme.toList.length ≤ op.lexeme.toList.length) :
      Shape front back false (.operator op) op.lexeme.toList op.lexeme.toList
  /-- A word, a name that cannot be prolonged on either side. -/
  | word {kind : Kind} {word : List Char} (hname : isIdentifier word = true)
      (hrun : Text.IsRun isIdentifierPart front word back) (hkind : Classifies word kind) :
      Shape front back false kind word word
  /-- An unquoted value, up to the next blank or `)`. -/
  | value {value : List Char} (hne : value ≠ []) (hquote : value.head? ≠ some '"')
      (hinside : ∀ c ∈ value, isValuePart c = true)
      (hback : ∀ c ∈ back.head?, isValuePart c = false) :
      Shape front back true (.literal false) value value

variable {awaited : Bool} {c : Char} {cs front : List Char} {l : Lexeme}

/-- A token has the shape that belongs to it. -/
theorem Spelled.shape (h : Spelled awaited c cs l) (hc : Text.isBlank c = false)
    (hapart : awaited = false → Text.Apart front (c :: cs)) :
    Shape front l.rest awaited l.kind l.text l.span := by
  cases h with
  | value hclose hquote =>
    refine .value (List.cons_ne_nil _ _) (fun hhead => hquote (Option.some.inj hhead)) ?_
      Text.head?_dropWhile
    intro d hd
    obtain rfl | hd := List.mem_cons.mp hd
    · simp [isValuePart, hc, hclose]
    · exact List.all_eq_true.mp List.all_takeWhile d hd
  | openGroup => exact .openGroup
  | closeGroup => exact .closeGroup
  | quoted hsplit => exact .quoted (Text.quotes_of_splitClosing hsplit)
  | word hstart =>
    have hrun : ∀ d ∈ cs.takeWhile isIdentifierPart, isIdentifierPart d = true :=
      List.all_eq_true.mp List.all_takeWhile
    refine .word ?_ ⟨?_, ?_, Text.head?_dropWhile⟩ (classifies_wordKind _)
    · exact Bool.and_eq_true_iff.mpr ⟨hstart, List.all_takeWhile⟩
    · exact List.forall_mem_cons.mpr ⟨isIdentifierPart_of_start hstart, hrun⟩
    · intro d hd
      refine Bool.eq_false_iff.mpr fun hpart => ?_
      have hnot := hapart rfl d hd hpart c rfl
      rw [isIdentifierPart_of_start hstart] at hnot
      cases hnot
  | operator hop hall =>
    refine .operator fun other hfits => Operator.length_le_of_leading? hop ?_
    rwa [← hall]

/-- No name goes on behind a token, unless a value is awaited there. -/
theorem Spelled.apart (h : Spelled awaited c cs l) (hawaits : l.kind.awaitsValue = false) :
    Text.Apart l.span l.rest := by
  cases h with
  | value =>
    intro _ _ _ d hd
    exact Bool.eq_false_iff.mpr fun hpart => absurd (isValuePart_of_isIdentifierPart hpart)
      (Bool.eq_false_iff.mp (Text.head?_dropWhile d hd))
  | openGroup =>
    intro d hd hpart
    cases hd
    exact absurd hpart (by decide)
  | closeGroup =>
    intro d hd hpart
    cases hd
    exact absurd hpart (by decide)
  | quoted =>
    intro d hd hpart
    rw [List.getLast?_concat] at hd
    cases hd
    exact absurd hpart (by decide)
  | word => exact fun _ _ _ d hd => Text.head?_dropWhile d hd
  | operator => cases hawaits

end Token

/-! ## all spans of a text -/

open Token

variable {awaited : Bool} {position : Nat} {cs : List Char} {pieces : List Piece}

/-- Every piece stands where the text starts or behind that place. -/
theorem Scans.le_position (h : Scans awaited position cs pieces) :
    ∀ piece ∈ pieces, position ≤ piece.token.position := by
  induction h with
  | done => simp
  | blank _ _ ih => exact fun piece hpiece => Nat.le_trans (Nat.le_add_right ..) (ih piece hpiece)
  | lexeme _ _ _ ih =>
    refine List.forall_mem_cons.mpr ⟨Nat.le_refl _, fun piece hpiece => ?_⟩
    exact Nat.le_trans (Nat.le_add_right ..) (ih piece hpiece)

/-- A piece starts in front of the end of its text. -/
theorem Scans.position_lt (h : Scans awaited position cs pieces) :
    ∀ piece ∈ pieces, piece.token.position < position + Text.byteWidth cs := by
  intro piece hpiece
  obtain ⟨before, after, rfl⟩ := List.append_of_mem hpiece
  obtain ⟨front, c, back, rfl, -, hposition, -, -⟩ := h.cut
  have hpos := c.utf8Size_pos
  rw [hposition, Text.byteWidth_append, Text.byteWidth_cons]
  omega

/-- Each piece ends before the next one starts. -/
theorem Scans.pairwise (h : Scans awaited position cs pieces) :
    pieces.Pairwise fun a b => a.stop ≤ b.token.position := by
  induction h with
  | done => exact .nil
  | blank _ _ ih => exact ih
  | lexeme _ _ hrest ih => exact .cons hrest.le_position ih

/-- Each piece starts before the next one does. -/
theorem Scans.pairwise_position (h : Scans awaited position cs pieces) :
    pieces.Pairwise fun a b => a.token.position < b.token.position := by
  induction h with
  | done => exact .nil
  | blank _ _ ih => exact ih
  | @lexeme _ position c cs l pieces _ hl hrest ih =>
    refine .cons (fun piece hpiece => ?_) ih
    have hwidth := Text.byteWidth_pos (span_ne_nil (lexeme_of_spelled hl))
    have hstart : position + Text.byteWidth l.span ≤ piece.token.position :=
      hrest.le_position piece hpiece
    show position < piece.token.position
    omega

/-- What a reader of the tokens sees stands one behind the other, the end behind all
tokens. -/
theorem TokenStream.pairwise_position {source : String} {stream : TokenStream}
    (h : scan source = .ok stream) :
    stream.lookaheads.Pairwise fun a b => a.position < b.position := by
  obtain ⟨pieces, hscans, rfl⟩ := scan_eq_ok_iff.mp h
  rw [lookaheads, List.map_map, List.pairwise_append, List.pairwise_map]
  refine ⟨hscans.pairwise_position, List.pairwise_singleton .., ?_⟩
  intro l hl l' hend
  obtain ⟨piece, hpiece, rfl⟩ := List.mem_map.mp hl
  rw [List.mem_singleton] at hend
  subst hend
  have hlt := hscans.position_lt piece hpiece
  rwa [Nat.zero_add, Text.byteWidth_toList] at hlt

/-- Every character is blank or belongs to a piece. -/
theorem Scans.blank_or_covered (h : Scans awaited position cs pieces) {front back : List Char}
    {d : Char} (hcs : cs = front ++ d :: back) :
    Text.isBlank d = true ∨ ∃ piece ∈ pieces,
      piece.token.position ≤ position + Text.byteWidth front ∧
        position + Text.byteWidth (front ++ [d]) ≤ piece.stop := by
  induction h generalizing front with
  | done => simp at hcs
  | blank hc _ ih =>
    cases front with
    | nil =>
      cases hcs
      exact .inl hc
    | cons e front =>
      obtain ⟨rfl, hrest⟩ := List.cons.inj hcs
      simpa [Nat.add_assoc] using ih hrest
  | @lexeme _ position c cs l pieces hc hl _ ih =>
    rw [← span_append_rest (lexeme_of_spelled hl)] at hcs
    obtain ⟨middle, hspan, -⟩ | ⟨middle, rfl, hrest⟩ := append_eq_append_cons hcs
    · refine .inr ⟨_, List.mem_cons_self, Nat.le_add_right .., Nat.add_le_add_left ?_ position⟩
      simp only [hspan, Text.byteWidth_append, Text.byteWidth_cons, Text.byteWidth_nil]
      omega
    · obtain hblank | ⟨piece, hmem, hcovered⟩ := ih hrest
      · exact .inl hblank
      · exact .inr ⟨piece, List.mem_cons_of_mem _ hmem, by simpa [Nat.add_assoc] using hcovered⟩

/-- Each piece has its shape between what stands before it and what stands
behind it. -/
theorem Scans.exists_shape (h : Scans awaited position cs pieces) {front : List Char}
    (hposition : position = Text.byteWidth front)
    (hapart : awaited = false → Text.Apart front cs) {before after : List Piece} {piece : Piece}
    (hpieces : pieces = before ++ piece :: after) :
    ∃ middle back, cs = middle ++ piece.span ++ back ∧
      piece.token.position = Text.byteWidth (front ++ middle) ∧ piece.span ≠ [] ∧
      Shape (front ++ middle) back (awaitedAfter awaited (before.map (·.token.kind)))
        piece.token.kind piece.token.text.toList piece.span := by
  induction h generalizing front before with
  | done => simp at hpieces
  | @blank _ position c cs pieces hc _ ih =>
    have hapart' : Text.Apart [c] cs := by
      intro d hd hpart
      cases hd
      have hvalue := isValuePart_of_isIdentifierPart hpart
      simp [isValuePart, hc] at hvalue
    obtain ⟨middle, back, rfl, hstart, hne, hshape⟩ := @ih (front ++ [c])
      (by simp [hposition]) (fun _ => hapart'.append (List.cons_ne_nil _ _) front) _ hpieces
    refine ⟨c :: middle, back, rfl, ?_, hne, ?_⟩
    · rw [hstart, List.append_assoc, List.singleton_append]
    · rwa [List.append_assoc, List.singleton_append] at hshape
  | @lexeme awaited position c cs l pieces hc hl _ ih =>
    have hne := span_ne_nil (lexeme_of_spelled hl)
    cases before with
    | nil =>
      cases hpieces
      refine ⟨[], l.rest, (span_append_rest (lexeme_of_spelled hl)).symm, ?_, hne, ?_⟩
      · rw [List.append_nil]
        exact hposition
      · rw [List.append_nil, Lexeme.token, String.toList_ofList]
        exact hl.shape hc hapart
    | cons first before =>
      obtain ⟨rfl, hrest⟩ := List.cons.inj hpieces
      obtain ⟨middle, back, hcs, hstart, hne', hshape⟩ := @ih (front ++ l.span)
        (by simp [hposition]) (fun hawaits => (hl.apart hawaits).append hne front) _ hrest
      refine ⟨l.span ++ middle, back, ?_, ?_, hne', ?_⟩
      · rw [← span_append_rest (lexeme_of_spelled hl), hcs]
        simp
      · rw [hstart, List.append_assoc]
      · rwa [List.append_assoc] at hshape

/-- Behind tokens a value is awaited if the last of them is an operator. -/
theorem awaitedAfter_false (kinds : List Kind) :
    awaitedAfter false kinds = kinds.getLast?.any Kind.awaitsValue := by
  obtain rfl | ⟨init, kind, rfl⟩ := List.eq_nil_or_concat kinds
  · rfl
  · rw [List.concat_eq_append, awaitedAfter_concat, List.getLast?_concat, Option.any_some]

/-- No value is awaited behind the tokens of a text whose last one is no operator. -/
theorem awaitedAfter_eq_false_iff :
    awaitedAfter false (pieces.map (·.token.kind)) = false ↔
      ∀ last ∈ (pieces.map Piece.token).getLast?, last.kind.awaitsValue = false := by
  rw [awaitedAfter_false, List.getLast?_map, List.getLast?_map]
  cases pieces.getLast? <;> simp

/-- A token of a text has its shape there. -/
theorem TokenStream.exists_shape {source : String} {stream : TokenStream}
    (h : scan source = .ok stream) {before after : List Token} {t : Token}
    (ht : stream.tokens = before ++ t :: after) :
    ∃ front back span, Shape front back (before.getLast?.any (·.kind.awaitsValue)) t.kind
      t.text.toList span := by
  obtain ⟨pieces, hscans, rfl⟩ := scan_eq_ok_iff.mp h
  obtain ⟨earlier, rest, rfl, rfl, hrest⟩ := List.map_eq_append_iff.mp ht
  obtain ⟨piece, later, rfl, rfl, -⟩ := List.map_eq_cons_iff.mp hrest
  obtain ⟨_, _, -, -, -, hshape⟩ :=
    hscans.exists_shape Text.byteWidth_nil.symm (fun _ => Text.apart_nil _) rfl
  rw [awaitedAfter_false, List.getLast?_map, Option.any_map] at hshape
  rw [List.getLast?_map, Option.any_map]
  exact ⟨_, _, _, hshape⟩

/-- The pieces of a text and of its tokens: nothing but blanks stands outside of
their spans, and each span has the shape of its token, which names the byte where
it starts. -/
structure Tiles (source : String) (stream : TokenStream) (pieces : List Piece) : Prop where
  lookaheads : stream.lookaheads = pieces.map (fun piece => .token piece.token) ++
    [.endOfInput source.utf8ByteSize]
  ordered : pieces.Pairwise fun a b => a.stop ≤ b.token.position
  covered : ∀ front c back, source.toList = front ++ c :: back →
    Text.isBlank c = true ∨ ∃ piece ∈ pieces,
      piece.token.position ≤ Text.byteWidth front ∧ Text.byteWidth (front ++ [c]) ≤ piece.stop
  shape : ∀ before piece after, pieces = before ++ piece :: after →
    ∃ front back, source.toList = front ++ piece.span ++ back ∧
      piece.token.position = Text.byteWidth front ∧ piece.span ≠ [] ∧
      Shape front back (before.getLast?.any fun last => last.token.kind.awaitsValue)
        piece.token.kind piece.token.text.toList piece.span

/-- **Scanning loses nothing and cuts nothing short**: the tokens of a text cover
spans that follow one another and leave out blanks only, and each span says what
its token says and goes as far as such a token can go. -/
theorem TokenStream.exists_tiles {source : String} {stream : TokenStream}
    (h : scan source = .ok stream) : ∃ pieces, Tiles source stream pieces := by
  obtain ⟨pieces, hscans, rfl⟩ := scan_eq_ok_iff.mp h
  refine ⟨pieces, ?_, hscans.pairwise, fun front c back hsource => ?_,
    fun before piece after hpieces => ?_⟩
  · rw [TokenStream.lookaheads, List.map_map]
    rfl
  · simpa using hscans.blank_or_covered hsource
  · have hshape := hscans.exists_shape Text.byteWidth_nil.symm (fun _ => Text.apart_nil _) hpieces
    rwa [awaitedAfter_false, List.getLast?_map, Option.any_map] at hshape

/-- Escaped characters, a word that touches the quote before it, and a value beyond
ASCII that ends in front of `)`. -/
theorem TokenStream.exists_tiles_escaped :
    let source := "(a~=\"x\\\" \\y\"AND b:=é)"
    let stream : TokenStream :=
      ⟨[⟨.openGroup, "(", 0⟩, ⟨.field, "a", 1⟩, ⟨.operator .contains, "~=", 2⟩,
        ⟨.literal true, "x\" \\y", 4⟩, ⟨.keyword .and, "AND", 12⟩, ⟨.field, "b", 16⟩,
        ⟨.operator .equalAlias, ":=", 17⟩, ⟨.literal false, "é", 19⟩,
        ⟨.closeGroup, ")", 21⟩], 22⟩
    TokenStream.scan source = .ok stream ∧ ∃ pieces, Tiles source stream pieces := by
  intro source stream
  have hscan : TokenStream.scan source = .ok stream := eq_ok_of_toOption (by decide +kernel)
  exact ⟨hscan, TokenStream.exists_tiles hscan⟩

end FilterQuery
