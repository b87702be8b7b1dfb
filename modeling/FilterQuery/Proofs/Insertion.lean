import FilterQuery.Proofs.Relabelling
import FilterQuery.Proofs.Spans

/-!
# FilterQuery.Proofs.Insertion

Blanks between the tokens of a query do not matter: wherever a token starts, and
at the end, any blanks may be inserted.  The tokens behind them move, and so does
the place of an error; nothing else changes.

* `Scans.shifted` — the same text, further behind, has the same tokens there;
* `scan_insert`, `Policy.parse_insert_blanks` — what insertion does to the tokens
  and to the outcome.
-/

namespace FilterQuery

open Token

variable {awaited : Bool} {position : Nat} {cs : List Char} {pieces : List Piece}

/-! ## the same text further behind -/

/-- What stands at the byte `start` or behind it moves by `width`. -/
def Relabelling.shift (start width : Nat) : Relabelling :=
  .moving fun position => if position < start then position else position + width

/-- The token of the piece, relabelled. -/
def Piece.relabelled (g : Relabelling) (piece : Piece) : Piece := ⟨g.token piece.token, piece.span⟩

/-- What stands in front of `start` stays. -/
theorem Piece.relabelled_shift_of_lt {start : Nat} {piece : Piece}
    (h : piece.token.position < start) (width : Nat) :
    piece.relabelled (.shift start width) = piece := by
  obtain ⟨⟨kind, text, position⟩, span⟩ := piece
  have hposition : (if position < start then position else position + width) = position := if_pos h
  simp only [relabelled, Relabelling.shift, Relabelling.moving, hposition]

/-- The same text, further behind, has the same pieces there. -/
theorem Scans.shifted {start : Nat} (h : Scans awaited position cs pieces)
    (hstart : start ≤ position) (width : Nat) :
    Scans awaited (position + width) cs
      (pieces.map (Piece.relabelled (.shift start width))) := by
  induction h with
  | done => exact .done
  | @blank _ position c _ _ hc _ ih =>
    have hmoved := ih (Nat.le_trans hstart (Nat.le_add_right ..))
    rw [Nat.add_right_comm] at hmoved
    exact .blank hc hmoved
  | @lexeme _ position c cs l pieces hc hl _ ih =>
    have hmoved := ih (Nat.le_trans hstart (Nat.le_add_right ..))
    rw [Nat.add_right_comm] at hmoved
    have hposition : (if position < start then position else position + width) =
        position + width := if_neg (Nat.not_lt.mpr hstart)
    have hpiece : (Piece.mk (l.token position) l.span).relabelled (.shift start width) =
        ⟨l.token (position + width), l.span⟩ := by
      simp only [Piece.relabelled, Relabelling.shift, Relabelling.moving, Lexeme.token, hposition]
    rw [List.map_cons, hpiece]
    exact .lexeme hc hl hmoved

/-- Blanks in front of a text only move it. -/
theorem Scans.blanks_append {blanks : List Char} (hblanks : ∀ c ∈ blanks, Text.isBlank c = true)
    (h : Scans awaited (position + Text.byteWidth blanks) cs pieces) :
    Scans awaited position (blanks ++ cs) pieces := by
  induction blanks generalizing position with
  | nil => exact h
  | cons c blanks ih =>
    obtain ⟨hc, hblanks⟩ := List.forall_mem_cons.mp hblanks
    rw [Text.byteWidth_cons, ← Nat.add_assoc] at h
    exact .blank hc (ih hblanks h)

/-- A blank ends every token. -/
theorem endsTokens_blanks_append {blanks : List Char} (hne : blanks ≠ [])
    (hblanks : ∀ c ∈ blanks, Text.isBlank c = true) (cs : List Char) :
    EndsTokens (blanks ++ cs) := by
  obtain ⟨c, blanks, rfl⟩ := List.exists_cons_of_ne_nil hne
  have hc : Text.isBlank c = true := hblanks c List.mem_cons_self
  exact endsTokens_cons (by simp [isValuePart, hc]) (blanks ++ cs)

/-! ## inserting blanks -/

/-- Blanks between two parts of a text move the second one. -/
theorem Scans.append_blanks {blanks rest : List Char} {more : List Piece}
    (h : Scans false 0 cs pieces) (hne : blanks ≠ [])
    (hblanks : ∀ c ∈ blanks, Text.isBlank c = true)
    (hrest : Scans (awaitedAfter false (pieces.map (·.token.kind))) (Text.byteWidth cs) rest more) :
    Scans false 0 (cs ++ (blanks ++ rest)) ((pieces ++ more).map
      (Piece.relabelled (.shift (Text.byteWidth cs) (Text.byteWidth blanks)))) := by
  have hstay : pieces.map (Piece.relabelled (.shift (Text.byteWidth cs) (Text.byteWidth blanks))) =
      pieces := by
    rw [List.map_congr_left (g := id), List.map_id]
    intro piece hpiece
    have hlt := h.position_lt piece hpiece
    rw [Nat.zero_add] at hlt
    exact Piece.relabelled_shift_of_lt hlt _
  have hmoved := hrest.shifted (Nat.le_refl _) (Text.byteWidth blanks)
  rw [List.map_append, hstay]
  refine h.append ((endsTokens_blanks_append hne hblanks rest).separate _) ?_
  rw [Nat.zero_add]
  exact hmoved.blanks_append hblanks

/-- Nothing moves by nothing. -/
theorem Relabelling.stream_shift_zero (start : Nat) (stream : TokenStream) :
    (shift start 0).stream stream = stream :=
  stream_moving fun l _ => by simp

/-- The tokens of pieces that were moved. -/
theorem stream_pieces_relabelled (g : Relabelling) (pieces : List Piece) (size : Nat) :
    (⟨(pieces.map (Piece.relabelled g)).map Piece.token, g.position size⟩ : TokenStream) =
      g.stream ⟨pieces.map Piece.token, size⟩ := by
  simp only [Relabelling.stream, List.map_map]
  rfl

/-- Blanks in front of a token, or at the end, move what stands behind them. -/
theorem scan_insert {source blanks : String} {stream : TokenStream}
    (hscan : TokenStream.scan source = .ok stream) {l : Lookahead} (hl : l ∈ stream.lookaheads)
    (hblanks : ∀ c ∈ blanks.toList, Text.isBlank c = true) :
    ∃ front back : String, source = front ++ back ∧ front.utf8ByteSize = l.position ∧
      TokenStream.scan (front ++ blanks ++ back) =
        .ok ((Relabelling.shift l.position blanks.utf8ByteSize).stream stream) := by
  obtain ⟨pieces, hpieces, rfl⟩ := TokenStream.scan_eq_ok_iff.mp hscan
  rw [← Text.byteWidth_toList] at hl
  obtain ⟨front, back, before, after, hsource, rfl, hposition, -, hfront, hback⟩ :=
    hpieces.exists_cut hl
  have hjoined : source = String.ofList front ++ String.ofList back := by
    rw [← String.ofList_append, ← hsource, String.ofList_toList]
  refine ⟨String.ofList front, String.ofList back, hjoined, ?_, ?_⟩
  · rw [Text.utf8ByteSize_ofList, hposition]
  by_cases hne : blanks.toList = []
  · -- Nothing is inserted, and then a token may well touch the one behind it.
    obtain rfl : blanks = "" := String.toList_inj.mp hne
    rw [String.append_empty, ← hjoined, hscan]
    exact congrArg Except.ok (Relabelling.stream_shift_zero _ _).symm
  · rw [hposition] at hback ⊢
    have hinserted := hfront.append_blanks hne hblanks hback
    rw [Text.byteWidth_toList] at hinserted
    have hsize :
        (Relabelling.shift (Text.byteWidth front) blanks.utf8ByteSize).position source.utf8ByteSize =
          (String.ofList front ++ blanks ++ String.ofList back).utf8ByteSize := by
      have hle : ¬ source.utf8ByteSize < Text.byteWidth front := by
        rw [hjoined, String.utf8ByteSize_append, Text.utf8ByteSize_ofList]
        omega
      rw [show (Relabelling.shift _ _).position _ = _ from if_neg hle, hjoined]
      simp only [String.utf8ByteSize_append]
      omega
    have hchars : (String.ofList front ++ blanks ++ String.ofList back).toList =
        front ++ (blanks.toList ++ back) := by simp
    rw [← hchars] at hinserted
    refine TokenStream.scan_eq_ok_iff.mpr ⟨_, hinserted, ?_⟩
    rw [← stream_pieces_relabelled, hsize]

/-! ## what insertion does to the outcome -/

/-- A query whose tokens were moved has the outcome of the query, moved. -/
theorem Policy.parse_relabelled {g : Relabelling} {source moved : String} {stream : TokenStream}
    (hscan : TokenStream.scan source = .ok stream)
    (hmoved : TokenStream.scan moved = .ok (g.stream stream)) (policy : Policy) :
    policy.parse moved = (policy.parse source).mapError g.error := by
  rw [parse, parse, hscan, hmoved]
  exact g.parseTokens_relabelled policy stream

/-- **Blanks between tokens do not matter.**  Blanks inserted where a token starts, or
at the end of the query, leave all tokens as they are and move those from there on
by the width of the blanks; and under every policy the outcome is the same, but
that an error which points there moves as well. -/
theorem Policy.parse_insert_blanks {source blanks : String} {stream : TokenStream}
    (hscan : TokenStream.scan source = .ok stream)
    {start : Nat} (hstart : start ∈ stream.lookaheads.map Lookahead.position)
    (hblanks : ∀ c ∈ blanks.toList, Text.isBlank c = true) :
    ∃ front back : String, source = front ++ back ∧ front.utf8ByteSize = start ∧
      TokenStream.scan (front ++ blanks ++ back) =
        .ok ((Relabelling.shift start blanks.utf8ByteSize).stream stream) ∧
      ∀ policy : Policy, policy.parse (front ++ blanks ++ back) =
        (policy.parse source).mapError (Relabelling.shift start blanks.utf8ByteSize).error := by
  obtain ⟨l, hl, rfl⟩ := List.mem_map.mp hstart
  obtain ⟨front, back, hsource, hfront, hinserted⟩ := scan_insert hscan hl hblanks
  exact ⟨front, back, hsource, hfront, hinserted, parse_relabelled hscan hinserted⟩

/-- A tab and a no-break space, three bytes wide, in front of the operator of `a>=5)`. -/
theorem Policy.parse_insert_blanks_operator :
    ∃ front back : String, "a>=5)" = front ++ back ∧ front.utf8ByteSize = 1 ∧
      TokenStream.scan (front ++ "\t\u00A0" ++ back) = .ok ⟨[⟨.field, "a", 0⟩,
        ⟨.operator .greaterEqual, ">=", 4⟩, ⟨.literal false, "5", 6⟩, ⟨.closeGroup, ")", 7⟩], 8⟩ ∧
      ∀ policy : Policy, policy.parse (front ++ "\t\u00A0" ++ back) =
        (policy.parse "a>=5)").mapError (Relabelling.shift 1 3).error := by
  have hscan : TokenStream.scan "a>=5)" = .ok ⟨[⟨.field, "a", 0⟩,
      ⟨.operator .greaterEqual, ">=", 1⟩, ⟨.literal false, "5", 3⟩, ⟨.closeGroup, ")", 4⟩], 5⟩ :=
    eq_ok_of_toOption (by decide +kernel)
  exact parse_insert_blanks hscan (by decide) (List.all_eq_true.mp (by decide))

end FilterQuery
