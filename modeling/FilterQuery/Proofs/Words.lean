import FilterQuery.Token.Scan
import Mathlib.Data.List.Forall2

/-!
# FilterQuery.Proofs.Words

What a word stands for.  Connectives and constants are recognised in every letter
case, and all other words name fields.  As no text spells two words
(`Text.eq_of_spells`), the order in which they are tried does not matter.
-/

namespace FilterQuery

/-! ## words with a meaning -/

/-- The words that never name a field, whatever the case of their letters. -/
def reservedWords : List String := ["and", "or", "true", "false", "null"]

/-- The words for constants. -/
def constantWords : List String := ["true", "false", "null"]

/-- May a query mention a field of this name? -/
def isFieldName (name : String) : Bool :=
  isIdentifier name.toList && !reservedWords.any (Text.spells · name.toList)

/-- The text is the word, given in small letters, with any of the letters as capitals. -/
def InAnyCase (word : String) (text : List Char) : Prop :=
  List.Forall₂ (fun small c => c = small ∨ c = small.toUpper) word.toList text

instance (word : String) (text : List Char) : Decidable (InAnyCase word text) :=
  inferInstanceAs (Decidable (List.Forall₂ _ _ _))

/-- That is how words are compared. -/
theorem Text.spells_iff_inAnyCase {word : String} (hword : word.toList.all Char.isLower = true)
    {text : List Char} : spells word text = true ↔ InAnyCase word text := by
  have hsmall : ∀ small ∈ word.toList, small.isLower = true := List.all_eq_true.mp hword
  rw [spells, beq_iff_eq, InAnyCase]
  clear hword
  generalize word.toList = smalls at hsmall ⊢
  induction smalls generalizing text with
  | nil => simp [lowerCase]
  | cons small smalls ih =>
    obtain ⟨hletter, hothers⟩ := List.forall_mem_cons.mp hsmall
    cases text with
    | nil => simp [lowerCase]
    | cons c cs =>
      rw [List.forall₂_cons, lowerCase, List.map_cons, List.cons.injEq]
      exact and_congr (toLower_eq_small_iff hletter) (ih hothers)

/-- A word is a connective if it is its keyword but for the case of letters. -/
theorem Connective.ofWord?_eq_some_iff {word : List Char} {k : Connective} :
    ofWord? word = some k ↔ Text.lowerCase word = Text.lowerCase k.keyword.toList := by
  have hand : Text.lowerCase Connective.and.keyword.toList = "and".toList := by decide
  have hor : Text.lowerCase Connective.or.keyword.toList = "or".toList := by decide
  have hdistinct : "and".toList ≠ "or".toList := by decide
  unfold ofWord? Text.spells
  cases k <;> grind

/-- A word is a connective if it spells `and` or `or`. -/
theorem Connective.isSome_ofWord?_iff {word : List Char} :
    (ofWord? word).isSome = true ↔
      Text.spells "and" word = true ∨ Text.spells "or" word = true := by
  unfold ofWord?
  grind

/-- A word is a constant if it spells one. -/
theorem Literal.isSome_constant?_iff {word : List Char} :
    (constant? word).isSome = true ↔
      ∃ constant ∈ constantWords, Text.spells constant word = true := by
  unfold constant? constantWords
  grind

/-- No constant is spelled like a connective. -/
theorem Connective.ofWord?_of_constant {word : List Char}
    (h : ∃ constant ∈ constantWords, Text.spells constant word = true) : ofWord? word = none := by
  obtain ⟨constant, hmem, hspells⟩ := h
  rw [← Option.not_isSome_iff_eq_none, isSome_ofWord?_iff]
  rintro (hand | hor)
  · rw [Text.eq_of_spells hspells hand] at hmem
    exact absurd hmem (by decide)
  · rw [Text.eq_of_spells hspells hor] at hmem
    exact absurd hmem (by decide)

namespace Token

/-! ## kinds of words -/

/-- What kind of token a word is depends on what it spells. -/
structure Classifies (word : List Char) (kind : Kind) : Prop where
  keyword : ∀ k, kind = .keyword k ↔ Text.lowerCase word = Text.lowerCase k.keyword.toList
  constant : kind = .literal false ↔
    ∃ constant ∈ constantWords, Text.spells constant word = true
  field : kind = .field ↔ ∀ reserved ∈ reservedWords, Text.spells reserved word = false

/-- Words are told apart by what they spell. -/
theorem classifies_wordKind (word : List Char) : Classifies word (wordKind word) := by
  have hreserved : (∀ reserved ∈ reservedWords, Text.spells reserved word = false) ↔
      ¬ (Connective.ofWord? word).isSome = true ∧ ¬ (Literal.constant? word).isSome = true := by
    rw [Connective.isSome_ofWord?_iff, Literal.isSome_constant?_iff]
    simp [reservedWords, constantWords, and_assoc]
  unfold wordKind
  split
  · next c hc =>
    refine ⟨fun k => ?_, ?_, ?_⟩
    · rw [← Connective.ofWord?_eq_some_iff, hc]
      simp
    · refine ⟨fun h => by simp at h, fun h => ?_⟩
      rw [Connective.ofWord?_of_constant h] at hc
      cases hc
    · simp [hreserved, hc]
  · next hnone =>
    simp only [hnone, Option.isSome_none, Bool.false_eq_true, not_false_eq_true,
      true_and] at hreserved
    refine ⟨fun k => ?_, ?_, ?_⟩
    · rw [← Connective.ofWord?_eq_some_iff, hnone]
      split <;> simp
    · rw [← Literal.isSome_constant?_iff]
      split <;> simp_all
    · rw [hreserved]
      split <;> simp_all

/-- The name of a field is no keyword and no constant. -/
theorem wordKind_of_isFieldName {name : String} (h : isFieldName name = true) :
    wordKind name.toList = .field := by
  refine (classifies_wordKind name.toList).field.mpr ?_
  simpa [isFieldName] using (Bool.and_eq_true_iff.mp h).2

end Token

end FilterQuery
