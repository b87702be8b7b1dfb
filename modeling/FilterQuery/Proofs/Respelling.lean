import FilterQuery.Proofs.LetterCase
import FilterQuery.Proofs.Relabelling
import FilterQuery.Proofs.Spans

/-!
# FilterQuery.Proofs.Respelling

How keywords, constants and equality are spelled does not matter.  A keyword or a
constant has the same role in small letters, and `:=` has the same role as `:`,
so there are a `Relabelling` that forgets the letter case of such tokens and one
that forgets how equality is written.

* `Text.Recased` — texts that differ in the case of letters, at given places;
* `Scans.recased` — respelling keywords and constants changes nothing of the
  tokens but their texts;
* `Policy.parse_recased`, `Policy.parseTokens_realiased`, `Policy.parse_spelling` —
  what respelling does to the outcome.
-/

namespace FilterQuery

open Token

/-! ## texts in another letter case -/

namespace Text

/-- The texts are the same but for the case of letters at places where it is free;
the first character stands at the given byte. -/
inductive Recased (free : Nat → Prop) : Nat → List Char → List Char → Prop where
  | nil {position : Nat} : Recased free position [] []
  | cons {position : Nat} {c d : Char} {cs ds : List Char}
      (hc : c = d ∨ free position ∧ c.toLower = d.toLower)
      (h : Recased free (position + c.utf8Size) cs ds) : Recased free position (c :: cs) (d :: ds)

namespace Recased

/-- Both texts are read once. -/
instance decidable {free : Nat → Prop} [DecidablePred free] :
    (position : Nat) → (cs ds : List Char) → Decidable (Recased free position cs ds)
  | _, [], [] => .isTrue .nil
  | _, [], _ :: _ => .isFalse nofun
  | _, _ :: _, [] => .isFalse nofun
  | position, c :: cs, d :: ds =>
    have : Decidable (Recased free (position + c.utf8Size) cs ds) := decidable _ cs ds
    decidable_of_iff ((c = d ∨ free position ∧ c.toLower = d.toLower) ∧
        Recased free (position + c.utf8Size) cs ds)
      ⟨fun h => .cons h.1 h.2, fun h => by cases h with | cons hc h => exact ⟨hc, h⟩⟩

variable {free : Nat → Prop} {position : Nat} {cs ds : List Char}

/-- In small letters the texts are the same. -/
theorem lowerCase_eq (h : Recased free position cs ds) : lowerCase cs = lowerCase ds := by
  induction h with
  | nil => rfl
  | cons hc _ ih =>
    obtain rfl | ⟨-, hc⟩ := hc
    · rw [lowerCase_cons, lowerCase_cons, ih]
    · rw [lowerCase_cons, lowerCase_cons, hc, ih]

/-- Where nothing is free the texts are the same. -/
theorem eq_of_not_free (h : Recased free position cs ds)
    (hfree : ∀ p, position ≤ p → p < position + byteWidth cs → ¬ free p) : cs = ds := by
  induction h with
  | nil => rfl
  | @cons position c d cs ds hc _ ih =>
    have hpos := c.utf8Size_pos
    rw [byteWidth_cons] at hfree
    obtain rfl | ⟨hfirst, -⟩ := hc
    · rw [ih fun p hp hlt => hfree p (by omega) (by omega)]
    · exact absurd hfirst (hfree position (Nat.le_refl _) (by omega))

/-- Parts of equal length correspond. -/
theorem of_append {xs ys : List Char} (h : Recased free position (cs ++ xs) (ds ++ ys))
    (hlength : cs.length = ds.length) :
    Recased free position cs ds ∧ Recased free (position + byteWidth cs) xs ys := by
  induction cs generalizing position ds with
  | nil =>
    obtain rfl := List.eq_nil_of_length_eq_zero hlength.symm
    exact ⟨.nil, h⟩
  | cons c cs ih =>
    cases ds with
    | nil => cases hlength
    | cons d ds =>
      cases h with
      | cons hc h =>
        obtain ⟨hfirst, hsecond⟩ := ih h (Nat.succ.inj hlength)
        rw [byteWidth_cons, ← Nat.add_assoc]
        exact ⟨.cons hc hfirst, hsecond⟩

end Recased

end Text

/-! ## tokens in another letter case -/

namespace Token

/-- Does the token mean the same in each letter case?  Connectives do, and so do
constants that are not in quotes. -/
def isCaseless (t : Token) : Bool :=
  match t.kind with
  | .keyword _ => true
  | .literal false => (Literal.constant? t.text.toList).isSome
  | _ => false

/-- The text of the token in small letters. -/
def small (t : Token) : Token := { t with text := String.ofList (Text.lowerCase t.text.toList) }

/-- In small letters a token means the same if it does in each letter case. -/
theorem role_small {t : Token} (h : t.isCaseless = true) : t.small.role = t.role := by
  obtain ⟨kind, text, position⟩ := t
  cases kind with
  | keyword k => rfl
  | literal quoted =>
    cases quoted with
    | true => cases h
    | false =>
      obtain ⟨value, hvalue⟩ := Option.isSome_iff_exists.mp h
      have hsmall := (Literal.constant?_congr (Text.lowerCase_lowerCase text.toList)).trans hvalue
      have hrole (text : String) :
          Token.role ⟨.literal false, text, position⟩ = .value (.ofUnquoted text) := rfl
      simp only [small, hrole, Literal.ofUnquoted, String.toList_ofList, hsmall, hvalue]
  | _ => cases h

/-- The span of such a token is its text. -/
theorem denoted_of_isCaseless {t : Token} (h : t.isCaseless = true) (span : List Char) :
    t.kind.denoted span = span := by
  unfold isCaseless at h
  split at h
  · next hkind => rw [hkind]; rfl
  · next hkind => rw [hkind]; rfl
  · cases h

/-- The bytes of such tokens. -/
def Caseless (tokens : List Token) (p : Nat) : Prop :=
  ∃ t ∈ tokens, t.isCaseless = true ∧ t.position ≤ p ∧ p < t.position + t.text.utf8ByteSize

instance (tokens : List Token) : DecidablePred (Caseless tokens) :=
  fun p => inferInstanceAs (Decidable (∃ t ∈ tokens, t.isCaseless = true ∧ t.position ≤ p ∧
    p < t.position + t.text.utf8ByteSize))

end Token

/-- Tokens that mean the same in each letter case, in small letters. -/
def Relabelling.foldingCase : Relabelling where
  token t := if t.isCaseless then t.small else t
  position := id
  position_token t := by split <;> rfl
  role_token t := by
    split
    · next h => exact role_small h
    · rfl

/-- Tokens that differ in the case of letters only. -/
theorem Relabelling.foldingCase_congr {l l' : Lexeme} {position : Nat}
    (h : (l.token position).isCaseless = true) (hkind : l'.kind = l.kind)
    (htext : Text.lowerCase l'.text = Text.lowerCase l.text) :
    foldingCase.token (l'.token position) = foldingCase.token (l.token position) := by
  have h' : (l'.token position).isCaseless = true := by
    unfold isCaseless at h ⊢
    simp only [Lexeme.token, String.toList_ofList, hkind, Literal.constant?_congr htext] at h ⊢
    exact h
  have hsmall : (l'.token position).small = (l.token position).small := by
    simp only [small, Lexeme.token, String.toList_ofList, hkind, htext]
  exact (if_pos h').trans (hsmall.trans (if_pos h).symm)

section

variable {awaited : Bool} {position : Nat} {c : Char} {cs : List Char} {l : Lexeme}

/-- The span of a token that means the same in each letter case is its text. -/
theorem Token.Spelled.text_eq_span (hl : Spelled awaited c cs l)
    (h : (l.token position).isCaseless = true) : l.text = l.span :=
  hl.text_eq.trans (denoted_of_isCaseless h l.span)

/-- Where only such tokens may change, a token changes in the case of letters at
most. -/
theorem Token.Spelled.fold_eq {free : Nat → Prop} {d : Char} {ds : List Char} {l' : Lexeme}
    (hl : Spelled awaited c cs l) (hl' : Spelled awaited d ds l') (hkind : l'.kind = l.kind)
    (hcase : Text.Recased free position l.span l'.span)
    (hfree : (l.token position).isCaseless = false →
      ∀ p, position ≤ p → p < position + Text.byteWidth l.span → ¬ free p) :
    Relabelling.foldingCase.token (l'.token position) =
      Relabelling.foldingCase.token (l.token position) := by
  cases hcaseless : (l.token position).isCaseless with
  | true =>
    have hdenoted : ∀ span, l.kind.denoted span = span := denoted_of_isCaseless hcaseless
    refine Relabelling.foldingCase_congr hcaseless hkind ?_
    rw [hl.text_eq, hl'.text_eq, hkind, hdenoted, hdenoted, hcase.lowerCase_eq]
  | false =>
    have hspan := hcase.eq_of_not_free (hfree hcaseless)
    rw [Lexeme.token, Lexeme.token, hl.text_eq, hl'.text_eq, hkind, hspan]

end

/-! ## all tokens -/

variable {awaited : Bool} {position : Nat} {cs ds : List Char} {pieces : List Piece}

/-- No token stands in front of the text. -/
theorem Scans.le_of_caseless (h : Scans awaited position cs pieces) {p : Nat}
    (hp : Caseless (pieces.map Piece.token) p) : position ≤ p := by
  obtain ⟨t, ht, -, hle, -⟩ := hp
  obtain ⟨piece, hpiece, rfl⟩ := List.mem_map.mp ht
  exact Nat.le_trans (h.le_position piece hpiece) hle

/-- Tokens that mean the same in each letter case may be respelled: the others stay,
and so do the kinds and places of all. -/
theorem Scans.recased {free : Nat → Prop} (h : Scans awaited position cs pieces)
    (hcase : Text.Recased free position cs ds)
    (hfree : ∀ p, position ≤ p → free p → Caseless (pieces.map Piece.token) p) :
    ∃ respelled, Scans awaited position ds respelled ∧
      (respelled.map Piece.token).map Relabelling.foldingCase.token =
        (pieces.map Piece.token).map Relabelling.foldingCase.token := by
  induction h generalizing ds with
  | done =>
    cases hcase
    exact ⟨[], .done, rfl⟩
  | @blank awaited position c cs pieces hc h ih =>
    have hpos := c.utf8Size_pos
    cases hcase with
    | @cons _ _ d _ ds hd hcase =>
      -- No token starts before the blank ends.
      have hsame : c = d := by
        obtain hd | ⟨hfirst, -⟩ := hd
        · exact hd
        · have hle := h.le_of_caseless (hfree position (Nat.le_refl _) hfirst)
          omega
      subst hsame
      obtain ⟨respelled, hrespelled, hfold⟩ := ih hcase fun p hp => hfree p (by omega)
      exact ⟨respelled, .blank hc hrespelled, hfold⟩
  | @lexeme awaited position c cs l pieces hc hl h ih =>
    cases ds with
    | nil => cases hcase
    | cons d ds =>
      obtain ⟨l', hl', hkind, hspan, -⟩ := hl.recased hcase.lowerCase_eq
      have hwidth : Text.byteWidth l'.span = Text.byteWidth l.span := Text.byteWidth_congr hspan
      have hlength : l.span.length = l'.span.length := by
        simpa [Text.lowerCase] using (congrArg List.length hspan).symm
      have hblank : Text.isBlank d = false := by
        rw [← Text.isBlank_toLower, ← (List.cons.inj hcase.lowerCase_eq).1, Text.isBlank_toLower,
          hc]
      rw [← span_append_rest (lexeme_of_spelled hl), ← span_append_rest (lexeme_of_spelled hl')]
        at hcase
      obtain ⟨hcaseSpan, hcaseRest⟩ := hcase.of_append hlength
      have hhead := hl.fold_eq hl' hkind hcaseSpan fun hcaseless p hp hlt hfirst => by
        obtain ⟨t, ht, ht', hle⟩ := hfree p hp hfirst
        obtain rfl | ht := List.mem_cons.mp ht
        · rw [hcaseless] at ht'
          cases ht'
        · have hbehind := h.le_of_caseless ⟨t, ht, ht', hle⟩
          omega
      obtain ⟨respelled, hrespelled, hfold⟩ := ih hcaseRest fun p hp hfirst => by
        obtain ⟨t, ht, ht', hle, hlt⟩ := hfree p (by omega) hfirst
        obtain rfl | ht := List.mem_cons.mp ht
        · have hwide : (l.token position).text.utf8ByteSize = Text.byteWidth l.span := by
            rw [Lexeme.token, Text.utf8ByteSize_ofList, hl.text_eq_span ht']
          have hlt' : p < position + Text.byteWidth l.span := hwide ▸ hlt
          omega
        · exact ⟨t, ht, ht', hle, hlt⟩
      rw [← hkind, ← hwidth] at hrespelled
      refine ⟨_, .lexeme hblank hl' hrespelled, ?_⟩
      rw [List.map_cons, List.map_cons, List.map_cons, List.map_cons, hhead, hfold]

/-! ## what respelling does to the outcome -/

/-- Respelled tokens have the places and kinds of the tokens. -/
theorem scan_recased {source respelled : String} {stream : TokenStream}
    (hscan : TokenStream.scan source = .ok stream)
    (hcase : Text.Recased (Caseless stream.tokens) 0 source.toList respelled.toList) :
    ∃ tokens, TokenStream.scan respelled = .ok tokens ∧
      Relabelling.foldingCase.stream tokens = Relabelling.foldingCase.stream stream := by
  obtain ⟨pieces, hpieces, rfl⟩ := TokenStream.scan_eq_ok_iff.mp hscan
  obtain ⟨respelledPieces, hrespelled, hfold⟩ := hpieces.recased hcase fun p _ hp => hp
  refine ⟨_, TokenStream.scan_eq_ok_iff.mpr ⟨_, hrespelled, rfl⟩, ?_⟩
  have hsize : respelled.utf8ByteSize = source.utf8ByteSize := by
    rw [← Text.byteWidth_toList, ← Text.byteWidth_toList, Text.byteWidth_congr hcase.lowerCase_eq]
  rw [Relabelling.stream, Relabelling.stream, hfold, hsize]

/-- Respelling keeps the predicate, and an error but for the text of the token found. -/
theorem Policy.parse_recased {source respelled : String} {stream : TokenStream}
    (hscan : TokenStream.scan source = .ok stream)
    (hcase : Text.Recased (Caseless stream.tokens) 0 source.toList respelled.toList)
    (policy : Policy) :
    (policy.parse respelled).mapError Relabelling.foldingCase.error =
      (policy.parse source).mapError Relabelling.foldingCase.error := by
  obtain ⟨tokens, hrespelled, hfold⟩ := scan_recased hscan hcase
  rw [parse, parse, hscan, hrespelled]
  show (policy.parseTokens tokens).mapError _ = (policy.parseTokens stream).mapError _
  rw [← Relabelling.parseTokens_relabelled, ← Relabelling.parseTokens_relabelled, hfold]

/-! ## the two ways to write equality -/

namespace Token

/-- The operators that are written `:` and `:=`. -/
def Kind.isEquality (kind : Kind) : Bool := kind = .operator .equal || kind = .operator .equalAlias

/-- Tokens some of which, all of them equality operators, are replaced by others. -/
inductive Realiased : List Token → List Token → Prop where
  | nil : Realiased [] []
  | same {t : Token} {ts us : List Token} (h : Realiased ts us) : Realiased (t :: ts) (t :: us)
  | replaced {t u : Token} {ts us : List Token} (ht : t.kind.isEquality = true)
      (hu : u.kind.isEquality = true) (h : Realiased ts us) : Realiased (t :: ts) (u :: us)

/-- Both denote equality. -/
theorem role_of_isEquality {t : Token} (h : t.kind.isEquality = true) :
    t.role = .relation .equal := by
  obtain ⟨kind, text, position⟩ := t
  obtain hkind | hkind : kind = .operator .equal ∨ kind = .operator .equalAlias := by
    simpa [Kind.isEquality] using h
  · subst hkind
    rfl
  · subst hkind
    rfl

end Token

/-- Tokens without their places, equality always written `:`. -/
def Relabelling.unaliasing : Relabelling where
  token t := if t.kind.isEquality then ⟨.operator .equal, ":", 0⟩ else { t with position := 0 }
  position _ := 0
  position_token t := by split <;> rfl
  role_token t := by
    split
    · next h => exact (role_of_isEquality h).symm
    · rfl

/-- Realiased tokens are the same but for their places. -/
theorem Token.Realiased.map_eq {ts us : List Token} (h : Realiased ts us) :
    ts.map Relabelling.unaliasing.token = us.map Relabelling.unaliasing.token := by
  induction h with
  | nil => rfl
  | same _ ih => rw [List.map_cons, List.map_cons, ih]
  | replaced ht hu _ ih =>
    rw [List.map_cons, List.map_cons, ih]
    exact congrArg (· :: _) ((if_pos ht).trans (if_pos hu).symm)

/-- Equality may be written in either way. -/
theorem Policy.parseTokens_realiased {policy : Policy} {stream : TokenStream} {us : List Token}
    {p : Predicate} (h : Realiased stream.tokens us) (hp : policy.parseTokens stream = .ok p) :
    policy.parseTokens ⟨us, stream.size⟩ = .ok p := by
  have hstream : Relabelling.unaliasing.stream ⟨us, stream.size⟩ =
      Relabelling.unaliasing.stream stream := by
    rw [Relabelling.stream, Relabelling.stream, h.map_eq]
  have hparse := Relabelling.unaliasing.parseTokens_relabelled policy ⟨us, stream.size⟩
  rw [hstream, Relabelling.parseTokens_relabelled, hp] at hparse
  cases hresult : policy.parseTokens ⟨us, stream.size⟩ with
  | error e =>
    rw [hresult] at hparse
    cases hparse
  | ok q =>
    rw [hresult] at hparse
    exact hparse.symm

/-- **Spelling does not matter.**  When the case of letters changes inside keywords, and
inside constants that are not in quotes, the tokens keep their places and kinds, and
under every policy the outcome is the same but for the text of the token that an
error has found.  And a list of tokens is accepted with the same predicate when
equality is written `:` for `:=` or `:=` for `:`. -/
theorem Policy.parse_spelling :
    (∀ (source respelled : String) (stream : TokenStream), TokenStream.scan source = .ok stream →
      Text.Recased (Caseless stream.tokens) 0 source.toList respelled.toList →
      (∃ tokens, TokenStream.scan respelled = .ok tokens ∧
        Relabelling.foldingCase.stream tokens = Relabelling.foldingCase.stream stream) ∧
      ∀ policy : Policy, (policy.parse respelled).mapError Relabelling.foldingCase.error =
        (policy.parse source).mapError Relabelling.foldingCase.error) ∧
    ∀ (policy : Policy) (stream : TokenStream) (tokens : List Token) (p : Predicate),
      Realiased stream.tokens tokens → policy.parseTokens stream = .ok p →
      policy.parseTokens ⟨tokens, stream.size⟩ = .ok p := by
  constructor
  · intro source respelled stream hscan hcase
    exact ⟨scan_recased hscan hcase, parse_recased hscan hcase⟩
  · intro policy stream tokens p htokens hp
    exact parseTokens_realiased htokens hp

/-- The connective and the constant of `a:AND and b:NULL`, but not the value `AND`, may be
written with other letters, and `:=` may stand for its first `:`. -/
theorem Policy.parse_spelling_constant :
    let stream : TokenStream := ⟨[⟨.field, "a", 0⟩, ⟨.operator .equal, ":", 1⟩,
      ⟨.literal false, "AND", 2⟩, ⟨.keyword .and, "and", 6⟩, ⟨.field, "b", 10⟩,
      ⟨.operator .equal, ":", 11⟩, ⟨.literal false, "NULL", 12⟩], 16⟩
    let tokens : List Token := [⟨.field, "a", 0⟩, ⟨.operator .equalAlias, ":=", 1⟩,
      ⟨.literal false, "AND", 2⟩, ⟨.keyword .and, "and", 6⟩, ⟨.field, "b", 10⟩,
      ⟨.operator .equal, ":", 11⟩, ⟨.literal false, "NULL", 12⟩]
    let p : Predicate := .logical .and (.comparison "a" .equal (.string "AND"))
      (.comparison "b" .equal .null)
    TokenStream.scan "a:AND and b:NULL" = .ok stream ∧
      Text.Recased (Caseless stream.tokens) 0 "a:AND and b:NULL".toList "a:AND AnD b:null".toList ∧
      (∀ policy : Policy, (policy.parse "a:AND AnD b:null").mapError Relabelling.foldingCase.error =
        (policy.parse "a:AND and b:NULL").mapError Relabelling.foldingCase.error) ∧
      Realiased stream.tokens tokens ∧ Policy.unrestricted.parseTokens stream = .ok p ∧
      Policy.unrestricted.parseTokens ⟨tokens, 16⟩ = .ok p := by
  intro stream tokens p
  have hscan : TokenStream.scan "a:AND and b:NULL" = .ok stream :=
    eq_ok_of_toOption (by decide +kernel)
  have hcase : Text.Recased (Caseless stream.tokens) 0 "a:AND and b:NULL".toList
      "a:AND AnD b:null".toList := by decide +kernel
  have hrealiased : Realiased stream.tokens tokens :=
    .same (.replaced rfl rfl (.same (.same (.same (.same (.same .nil))))))
  have hp : Policy.unrestricted.parseTokens stream = .ok p := eq_ok_of_toOption (by decide +kernel)
  obtain ⟨hrespelled, haliased⟩ := parse_spelling
  exact ⟨hscan, hcase, (hrespelled _ _ _ hscan hcase).2, hrealiased, hp,
    haliased _ _ _ _ hrealiased hp⟩

end FilterQuery
