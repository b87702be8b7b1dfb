import FilterQuery.Proofs.Spelling

/-!
# FilterQuery.Proofs.LetterCase

Tokens and the case of letters.  Where a token ends and of what kind it is does
not depend on it: `Spelled.recased` says so for every token at once.  Underneath,
each class of characters that splitting a text asks for holds of a capital if it
holds of the small letter.

* `toLower_congr` — what capitals and small letters share, all characters do with
  their small forms;
* `takeWhile_congr`, `splitClosing_congr`, `leading?_congr` — runs of characters,
  quoted values and operators;
* `Kind.denoted`, `Spelled.text_eq` — kind and span of a token determine its text.
-/

namespace FilterQuery

open Token

/-! ## characters -/

namespace Text

/-- Only the capitals from `A` to `Z` change, each into the letter 32 places behind. -/
theorem toLower_cases (c : Char) : c.toLower = c ∨
    (0x41 ≤ c.toNat ∧ c.toNat ≤ 0x5A ∧ c.toLower.toNat = c.toNat + 0x20) := by
  by_cases hupper : 0x41 ≤ c.toNat ∧ c.toNat ≤ 0x5A
  · exact .inr ⟨hupper.1, hupper.2, by rw [toNat_toLower, if_pos hupper]⟩
  · exact .inl (Char.toNat_inj.mp (by rw [toNat_toLower, if_neg hupper]))

/-- A property of code points that capitals and small letters share. -/
theorem toLower_congr {α : Type} (p : Char → α)
    (h : ∀ c d : Char, 0x41 ≤ c.toNat → c.toNat ≤ 0x5A → d.toNat = c.toNat + 0x20 → p d = p c)
    (c : Char) : p c.toLower = p c := by
  obtain hsame | ⟨hlow, hhigh, hcode⟩ := toLower_cases c
  · rw [hsame]
  · exact h c c.toLower hlow hhigh hcode

@[simp] theorem utf8Size_toLower (c : Char) : c.toLower.utf8Size = c.utf8Size := by
  have hnarrow {c : Char} (hc : c.toNat ≤ 0x7F) : c.utf8Size = 1 :=
    Char.utf8Size_eq_one_iff.mpr (UInt32.le_iff_toNat_le.mpr hc)
  refine toLower_congr Char.utf8Size (fun c d hlow hhigh hcode => ?_) c
  rw [hnarrow (by omega), hnarrow (by omega)]

@[simp] theorem isBlank_toLower (c : Char) : isBlank c.toLower = isBlank c := by
  refine toLower_congr isBlank (fun c d hlow hhigh hcode => ?_) c
  have hgap {c : Char} (hlow : 0x21 ≤ c.toNat) (hhigh : c.toNat < 0x85) : isBlank c = false :=
    inRanges_of_gap blanks (by decide) hlow hhigh
  rw [hgap (by omega) (by omega), hgap (by omega) (by omega)]

@[simp] theorem isAlpha_toLower (c : Char) : c.toLower.isAlpha = c.isAlpha := by
  refine toLower_congr Char.isAlpha (fun c d hlow hhigh hcode => ?_) c
  rw [Bool.eq_iff_iff, isAlpha_iff_code, isAlpha_iff_code]
  omega

/-- Small letters stay. -/
@[simp] theorem toLower_toLower (c : Char) : c.toLower.toLower = c.toLower := by
  obtain hsame | ⟨hlow, hhigh, -⟩ := toLower_cases c.toLower
  · exact hsame
  · obtain hsame | ⟨_, _, hcode⟩ := toLower_cases c
    · rw [hsame, hsame]
    · omega

/-- What is not a letter is not the small form of another character. -/
theorem toLower_eq_iff {c d : Char} (hd : d.isAlpha = false) : c.toLower = d ↔ c = d := by
  constructor
  · intro h
    obtain hsame | ⟨hlow, hhigh, -⟩ := toLower_cases c
    · rw [← h, hsame]
    · have hletter : c.isAlpha = true := isAlpha_iff_code.mpr (.inl ⟨hlow, hhigh⟩)
      rw [← isAlpha_toLower, h, hd] at hletter
      cases hletter
  · rintro rfl
    obtain hsame | ⟨hlow, hhigh, -⟩ := toLower_cases c
    · exact hsame
    · rw [isAlpha_iff_code.mpr (.inl ⟨hlow, hhigh⟩)] at hd
      cases hd

/-- Equality to what is not a letter is a matter of the small form alone. -/
theorem beq_toLower {d : Char} (hd : d.isAlpha = false) (c : Char) :
    (c.toLower == d) = (c == d) := by
  rw [Bool.eq_iff_iff, beq_iff_eq, beq_iff_eq, toLower_eq_iff hd]

@[simp] theorem isIdentifierStart_toLower (c : Char) :
    isIdentifierStart c.toLower = isIdentifierStart c := by
  rw [isIdentifierStart, isIdentifierStart, isAlpha_toLower, beq_toLower (by decide)]

@[simp] theorem isIdentifierPart_toLower (c : Char) :
    isIdentifierPart c.toLower = isIdentifierPart c := by
  have hdigit : c.toLower.isDigit = c.isDigit := by
    refine toLower_congr Char.isDigit (fun c d hlow hhigh hcode => ?_) c
    have hcode? (c : Char) : c.isDigit = true ↔ 0x30 ≤ c.toNat ∧ c.toNat ≤ 0x39 :=
      Bool.and_eq_true_iff.trans (and_congr decide_eq_true_iff decide_eq_true_iff)
    rw [Bool.eq_iff_iff, hcode?, hcode?]
    omega
  rw [isIdentifierPart, isIdentifierPart, Char.isAlphanum, Char.isAlphanum, isAlpha_toLower,
    hdigit, beq_toLower (by decide)]

@[simp] theorem isValuePart_toLower (c : Char) : isValuePart c.toLower = isValuePart c := by
  rw [isValuePart, isValuePart, isBlank_toLower, beq_toLower (by decide)]

/-! ## runs and operators -/

variable {cs ds : List Char}

@[simp] theorem lowerCase_cons (c : Char) (cs : List Char) :
    lowerCase (c :: cs) = c.toLower :: lowerCase cs := rfl

@[simp] theorem lowerCase_append (cs ds : List Char) :
    lowerCase (cs ++ ds) = lowerCase cs ++ lowerCase ds :=
  List.map_append

@[simp] theorem lowerCase_lowerCase (cs : List Char) : lowerCase (lowerCase cs) = lowerCase cs := by
  simp [lowerCase]

/-- A text and its small form are equally wide. -/
theorem byteWidth_congr (h : lowerCase cs = lowerCase ds) : byteWidth cs = byteWidth ds := by
  have hwidth (cs : List Char) : byteWidth (lowerCase cs) = byteWidth cs := by
    induction cs with
    | nil => rfl
    | cons c cs ih => simp [lowerCase, ← ih]
  rw [← hwidth cs, h, hwidth]

/-- Where a run ends is a matter of the small form alone. -/
theorem takeWhile_congr {p : Char → Bool} (hp : ∀ c, p c.toLower = p c)
    (h : lowerCase cs = lowerCase ds) :
    lowerCase (cs.takeWhile p) = lowerCase (ds.takeWhile p) ∧
      lowerCase (cs.dropWhile p) = lowerCase (ds.dropWhile p) := by
  have hcomp : p ∘ Char.toLower = p := funext hp
  have htake (cs : List Char) : lowerCase (cs.takeWhile p) = (lowerCase cs).takeWhile p := by
    rw [lowerCase, lowerCase, List.takeWhile_map, hcomp]
  have hdrop (cs : List Char) : lowerCase (cs.dropWhile p) = (lowerCase cs).dropWhile p := by
    rw [lowerCase, lowerCase, List.dropWhile_map, hcomp]
  exact ⟨by rw [htake, htake, h], by rw [hdrop, hdrop, h]⟩

/-- So is where a quoted value ends. -/
theorem splitClosingFrom_lowerCase (body cs : List Char) :
    splitClosingFrom (lowerCase body) (lowerCase cs) =
      (splitClosingFrom body cs).map (Prod.map lowerCase lowerCase) := by
  have hquote : Char.toLower '"' = '"' := by decide
  have hescape : Char.toLower '\\' = '\\' := by decide
  fun_induction splitClosingFrom body cs with
  | case1 => rfl
  | case2 body rest => simp [lowerCase, hquote, splitClosingFrom]
  | case3 body c rest ih =>
    rw [← ih]
    simp [lowerCase, hescape, splitClosingFrom]
  | case4 body c rest hc hnext ih =>
    rw [← ih, lowerCase, lowerCase, List.map_cons, splitClosingFrom]
    · rfl
    · exact fun h => hc ((toLower_eq_iff (by decide)).mp h)
    · intro d ds hbackslash hds
      rw [toLower_eq_iff (by decide)] at hbackslash
      obtain ⟨d, ds, rfl, -⟩ := List.map_eq_cons_iff.mp hds
      exact hnext d ds hbackslash rfl

/-- Where a quoted value ends is a matter of the small form alone. -/
theorem splitClosing_congr (h : lowerCase cs = lowerCase ds) {body rest : List Char}
    (hsplit : splitClosing cs = some (body, rest)) :
    ∃ body' rest', splitClosing ds = some (body', rest') ∧
      lowerCase body' = lowerCase body ∧ lowerCase rest' = lowerCase rest := by
  have hds := splitClosingFrom_lowerCase [] ds
  rw [← h, splitClosingFrom_lowerCase, show splitClosingFrom [] cs = _ from hsplit] at hds
  obtain ⟨⟨body', rest'⟩, hsplit', hsmall⟩ := Option.map_eq_some_iff.mp hds.symm
  obtain ⟨hbody, hrest⟩ := Prod.mk.inj hsmall
  exact ⟨body', rest', hsplit', hbody, hrest⟩

end Text

/-- Operators have no letters. -/
theorem Operator.leading?_congr {cs ds : List Char} (h : Text.lowerCase cs = Text.lowerCase ds) :
    leading? cs = leading? ds := by
  have hprefix {xs : List Char} (hxs : xs.all (!·.isAlpha) = true) (cs : List Char) :
      xs.isPrefixOf (Text.lowerCase cs) = xs.isPrefixOf cs := by
    induction xs generalizing cs with
    | nil => rfl
    | cons x xs ih =>
      obtain ⟨hx, hxs⟩ := Bool.and_eq_true_iff.mp hxs
      cases cs with
      | nil => rfl
      | cons c cs =>
        show (x == c.toLower && xs.isPrefixOf (Text.lowerCase cs)) = (x == c && xs.isPrefixOf cs)
        rw [ih hxs, Bool.beq_comm, Text.beq_toLower (by simpa using hx), Bool.beq_comm]
  have hsmall (cs : List Char) : leading? (Text.lowerCase cs) = leading? cs := by
    unfold leading?
    congr
    funext op
    exact hprefix (by cases op <;> decide) cs
  rw [← hsmall, h, hsmall]

/-- Constants are recognised in every letter case. -/
theorem Literal.constant?_congr {v w : List Char} (h : Text.lowerCase v = Text.lowerCase w) :
    constant? v = constant? w := by
  rw [constant?, constant?, Text.spells_congr h, Text.spells_congr h, Text.spells_congr h]

namespace Token

/-! ## one token -/

/-- What kind of word a text is, is a matter of the small form alone. -/
theorem wordKind_congr {v w : List Char} (h : Text.lowerCase v = Text.lowerCase w) :
    wordKind v = wordKind w := by
  rw [wordKind, wordKind, Connective.ofWord?_congr h, Literal.constant?_congr h]

/-- **A text has tokens of the same kinds and spans in each letter case.** -/
theorem Spelled.recased {awaited : Bool} {c d : Char} {cs ds : List Char} {l : Lexeme}
    (hl : Spelled awaited c cs l) (h : Text.lowerCase (c :: cs) = Text.lowerCase (d :: ds)) :
    ∃ l', Spelled awaited d ds l' ∧ l'.kind = l.kind ∧
      Text.lowerCase l'.span = Text.lowerCase l.span ∧
      Text.lowerCase l'.rest = Text.lowerCase l.rest := by
  obtain ⟨hhead, htail⟩ : c.toLower = d.toLower ∧ Text.lowerCase cs = Text.lowerCase ds :=
    List.cons.inj h
  -- What is no letter is the same character in both texts.
  have hiff {x : Char} (hx : x.isAlpha = false) : c = x ↔ d = x := by
    rw [← Text.toLower_eq_iff hx, hhead, Text.toLower_eq_iff hx]
  cases hl with
  | value hclose hquote =>
    obtain ⟨hrun, hrest⟩ := Text.takeWhile_congr Text.isValuePart_toLower htail
    have hclose' : d ≠ ')' := fun hd => hclose ((hiff (by decide)).mpr hd)
    have hquote' : d ≠ '"' := fun hd => hquote ((hiff (by decide)).mpr hd)
    refine ⟨_, .value hclose' hquote', rfl, ?_, hrest.symm⟩
    simp only [verbatim, Text.lowerCase_cons, hhead, hrun]
  | openGroup =>
    obtain rfl := (hiff (by decide)).mp rfl
    exact ⟨_, .openGroup, rfl, rfl, htail.symm⟩
  | closeGroup =>
    obtain rfl := (hiff (by decide)).mp rfl
    exact ⟨_, .closeGroup, rfl, rfl, htail.symm⟩
  | quoted hsplit =>
    obtain rfl := (hiff (by decide)).mp rfl
    obtain ⟨body, rest, hsplit', hbody, hrest⟩ := Text.splitClosing_congr htail hsplit
    refine ⟨_, .quoted hsplit', rfl, ?_, hrest⟩
    simp [Text.lowerCase_cons, Text.lowerCase_append, hbody]
  | word hword =>
    obtain ⟨hrun, hrest⟩ := Text.takeWhile_congr Text.isIdentifierPart_toLower htail
    have hword' : isIdentifierStart d = true := by
      rwa [← Text.isIdentifierStart_toLower, ← hhead, Text.isIdentifierStart_toLower]
    have hspan : Text.lowerCase (d :: ds.takeWhile isIdentifierPart) =
        Text.lowerCase (c :: cs.takeWhile isIdentifierPart) := by
      simp only [Text.lowerCase_cons, hhead, hrun]
    exact ⟨_, .word hword', wordKind_congr hspan, hspan, hrest.symm⟩
  | @operator _ _ op rest hop hall =>
    rw [Operator.leading?_congr h] at hop
    have hall' := Operator.lexeme_append_drop hop
    refine ⟨_, .operator hop hall', rfl, rfl, ?_⟩
    rw [← hall, ← hall', Text.lowerCase_append, Text.lowerCase_append] at h
    exact (List.append_cancel_left h).symm

/-- The text that the span of a token denotes. -/
def Kind.denoted : Kind → List Char → List Char
  | .literal true, span => Text.unescape span.tail.dropLast
  | _, span => span

/-- Kind and span determine the text. -/
theorem Spelled.text_eq {awaited : Bool} {c : Char} {cs : List Char} {l : Lexeme}
    (hl : Spelled awaited c cs l) : l.text = l.kind.denoted l.span := by
  cases hl with
  | quoted hsplit => simp [Kind.denoted]
  | @word c cs hword =>
    show c :: cs.takeWhile isIdentifierPart = (wordKind _).denoted _
    unfold wordKind
    split
    · rfl
    · split <;> rfl
  | _ => rfl

end Token

end FilterQuery
