import FilterQuery.Proofs.Insertion

/-!
# FilterQuery.Proofs.Juxtaposition

Two texts with blanks between them scan as each of them does by itself.  Nothing but the one
bit of memory, whether a value is awaited, goes from a text into the next one: a blank ends
every token, and where a text stands only shows in positions.

* `Token.scanFrom_moved` — the same text further behind has the same tokens there, or stops
  at the same character;
* `Token.scanFrom_blanks_append` — blanks in front only move it;
* `TokenStream.scan_append_blanks` — what is scanned of two texts.
-/

namespace FilterQuery

/-! ## further behind -/

namespace Token

/-- The token, `width` bytes further behind. -/
def moved (width : Nat) (t : Token) : Token := { t with position := t.position + width }

/-- A text that stands further behind has its tokens, or the end of them, further behind. -/
theorem scanFrom_moved (width : Nat) (tokens : List Token) (awaited : Bool) (position : Nat)
    (cs : List Char) :
    scanFrom (tokens.map (moved width)) awaited (position + width) cs =
      match scanFrom tokens awaited position cs with
      | .ok ts => .ok (ts.map (moved width))
      | .error e => .error ⟨e.position + width, e.reason⟩ := by
  fun_induction scanFrom tokens awaited position cs with
  | case1 => simp
  | case2 tokens awaited position c cs hc ih => rw [scanFrom_blank hc, Nat.add_right_comm, ih]
  | case3 tokens awaited position c cs hc reason hl =>
    rw [scanFrom_error (by simpa using hc) hl]
  | case4 tokens awaited position c cs hc l hl ih =>
    rw [scanFrom_lexeme (by simpa using hc) hl, Nat.add_right_comm]
    exact ih

/-- Blanks in front of a text are dropped. -/
theorem scanFrom_blanks_append {blanks : List Char}
    (hblanks : ∀ c ∈ blanks, Text.isBlank c = true) (tokens : List Token) (awaited : Bool)
    (position : Nat) (cs : List Char) :
    scanFrom tokens awaited position (blanks ++ cs) =
      scanFrom tokens awaited (position + Text.byteWidth blanks) cs := by
  induction blanks generalizing position with
  | nil => rfl
  | cons c blanks ih =>
    obtain ⟨hc, hblanks⟩ := List.forall_mem_cons.mp hblanks
    rw [List.cons_append, scanFrom_blank hc, ih hblanks, Text.byteWidth_cons, Nat.add_assoc]

end Token

/-! ## side by side -/

open Token

/-- **Blanks keep two texts apart**: behind a first text that can be scanned and does not end
in an operator, and behind blanks, a second text has its own tokens, or stops where it does by
itself, only moved by the width of what stands in front of it. -/
theorem TokenStream.scan_append_blanks {front blanks : String} {stream : TokenStream}
    (hscan : scan front = .ok stream)
    (hlast : ∀ last ∈ stream.tokens.getLast?, last.kind.awaitsValue = false)
    (hne : blanks ≠ "") (hblanks : ∀ c ∈ blanks.toList, Text.isBlank c = true)
    (back : String) :
    let width := (front ++ blanks).utf8ByteSize
    scan (front ++ blanks ++ back) =
      match scan back with
      | .ok more => .ok ⟨stream.tokens ++ more.tokens.map (moved width), more.size + width⟩
      | .error e => .error ⟨e.position + width, e.reason⟩ := by
  intro width
  obtain ⟨pieces, hpieces, rfl⟩ := scan_eq_ok_iff.mp hscan
  have hends : EndsTokens (blanks.toList ++ back.toList) :=
    endsTokens_blanks_append (fun hnil => hne (String.toList_inj.mp hnil)) hblanks _
  have hwidth : 0 + Text.byteWidth front.toList + Text.byteWidth blanks.toList = 0 + width := by
    simp only [Text.byteWidth_toList, width, String.utf8ByteSize_append, Nat.zero_add]
  have hsize : (front ++ blanks ++ back).utf8ByteSize = back.utf8ByteSize + width := by
    rw [String.utf8ByteSize_append, Nat.add_comm]
  have hbehind : scanFrom [] false 0 (front ++ blanks ++ back).toList =
      (scanFrom [] false (0 + width) back.toList).map (pieces.map Piece.token ++ ·) := by
    have hearlier := scanFrom_append [] (pieces.map Piece.token).reverse false (0 + width)
      back.toList
    rw [List.nil_append, List.reverse_reverse] at hearlier
    rw [String.toList_append, String.toList_append, List.append_assoc,
      hpieces.scanFrom_append (hends.separate _), awaitedAfter_eq_false_iff.mpr hlast,
      scanFrom_blanks_append hblanks, hwidth, List.append_nil, hearlier]
  have hmoved := scanFrom_moved width [] false 0 back.toList
  rw [List.map_nil] at hmoved
  rw [scan, hbehind, hmoved, hsize, scan]
  cases scanFrom [] false 0 back.toList <;> rfl

/-- A value that would run on, a blank of three bytes, and two texts behind: one with tokens,
and one with a quote that is not closed. -/
theorem TokenStream.scan_append_blanks_wide :
    let stream : TokenStream :=
      ⟨[⟨.field, "a", 0⟩, ⟨.operator .equal, ":", 1⟩, ⟨.literal false, "é", 2⟩], 4⟩
    scan "a:é" = .ok stream ∧
      scan ("a:é" ++ "\u2003" ++ "or b:") = .ok ⟨stream.tokens ++
        [⟨.keyword .or, "or", 7⟩, ⟨.field, "b", 10⟩, ⟨.operator .equal, ":", 11⟩], 12⟩ ∧
      scan ("a:é" ++ "\u2003" ++ "b \"") = .error ⟨9, .unterminated⟩ := by
  intro stream
  have hscan : scan "a:é" = .ok stream := eq_ok_of_toOption (by decide +kernel)
  have htokens : scan "or b:" = .ok
      ⟨[⟨.keyword .or, "or", 0⟩, ⟨.field, "b", 3⟩, ⟨.operator .equal, ":", 4⟩], 5⟩ :=
    eq_ok_of_toOption (by decide +kernel)
  have herror : scan "b \"" = .error ⟨2, .unterminated⟩ := eq_error_of_error? (by decide +kernel)
  have hjoined := scan_append_blanks hscan (by decide) (by decide)
    (List.all_eq_true.mp (show "\u2003".toList.all Text.isBlank = true by decide))
  refine ⟨hscan, ?_, ?_⟩
  · rw [hjoined, htokens]
    rfl
  · rw [hjoined, herror]
    rfl

end FilterQuery
