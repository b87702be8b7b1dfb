import FilterQuery.Text.Blank
import Mathlib.Data.List.DropRight

/-!
# FilterQuery.Proofs.Trimming

What is left of a text without the blanks at its end, or at both ends, is said without
dropping anything: what is missing are blanks, and no blank stands at the end that is left.

* `TrimmedRight`, `trimmedRight_trimRight` — the end of a line;
* `Trimmed`, `trimmed_trim`, `exists_trim`, `trim_append` — both ends of a name.
-/

namespace FilterQuery.Text

/-! ## the end -/

/-- Only blanks are missing behind `text`, and no blank stands at its end. -/
structure TrimmedRight (cs text : List Char) : Prop where
  dropped : ∃ blanks, cs = text ++ blanks ∧ ∀ c ∈ blanks, isBlank c = true
  last : ∀ c ∈ text.getLast?, isBlank c = false

/-- Blanks are dropped from the right. -/
theorem trimRight_eq_rdropWhile (cs : List Char) : trimRight cs = cs.rdropWhile isBlank := rfl

/-- What is left without the blanks at the end. -/
theorem trimmedRight_trimRight (cs : List Char) : TrimmedRight cs (trimRight cs) where
  dropped := ⟨cs.rtakeWhile isBlank, List.rdropWhile_append_rtakeWhile.symm,
    fun _ => List.mem_rtakeWhile_imp⟩
  last c hc := by
    have hne : cs.rdropWhile isBlank ≠ [] := by
      rintro hnil
      rw [trimRight_eq_rdropWhile, hnil] at hc
      cases hc
    rw [trimRight_eq_rdropWhile, List.getLast?_eq_some_getLast hne] at hc
    cases hc
    exact Bool.eq_false_iff.mpr (List.rdropWhile_last_not isBlank cs hne)

/-- What stands in front of a character that is not blank is not trimmed. -/
theorem trimRight_append_cons {c : Char} (hc : isBlank c = false) (xs ys : List Char) :
    trimRight (xs ++ c :: ys) = xs ++ c :: trimRight ys := by
  simp only [trimRight_eq_rdropWhile]
  induction ys using List.reverseRecOn with
  | nil =>
    rw [List.rdropWhile_nil]
    exact List.rdropWhile_concat_neg isBlank xs c (by simp [hc])
  | append_singleton ys y ih =>
    rw [← List.cons_append, ← List.append_assoc]
    by_cases hy : isBlank y = true
    · rw [List.rdropWhile_concat_pos _ _ _ hy, List.rdropWhile_concat_pos _ _ _ hy, ih]
    · rw [List.rdropWhile_concat_neg _ _ _ hy, List.rdropWhile_concat_neg _ _ _ hy,
        List.append_assoc, List.cons_append]

/-! ## both ends -/

/-- No blank stands at either end. -/
structure Trimmed (cs : List Char) : Prop where
  head : ∀ c ∈ cs.head?, isBlank c = false
  last : ∀ c ∈ cs.getLast?, isBlank c = false

/-- What is left has no blank at its ends. -/
theorem trimmed_trim (cs : List Char) : Trimmed (trim cs) := by
  obtain ⟨⟨right, hright, -⟩, hlast⟩ := trimmedRight_trimRight (cs.dropWhile isBlank)
  refine ⟨fun c hc => ?_, hlast⟩
  have hstop := List.head?_dropWhile_not isBlank cs
  rw [hright, List.head?_append, ← trim, Option.mem_def.mp hc] at hstop
  exact hstop

/-- Only blanks are dropped. -/
theorem exists_trim (cs : List Char) :
    ∃ left right, cs = left ++ trim cs ++ right ∧ ∀ c ∈ left ++ right, isBlank c = true := by
  obtain ⟨⟨right, hright, hblank⟩, -⟩ := trimmedRight_trimRight (cs.dropWhile isBlank)
  refine ⟨cs.takeWhile isBlank, right, ?_, fun c hc => ?_⟩
  · rw [List.append_assoc, trim, ← hright, List.takeWhile_append_dropWhile]
  · obtain hc | hc := List.mem_append.mp hc
    · exact List.all_eq_true.mp List.all_takeWhile c hc
    · exact hblank c hc

/-- The blanks around a text that has none at its ends are dropped. -/
theorem trim_append {left cs right : List Char} (h : Trimmed cs)
    (hblank : ∀ c ∈ left ++ right, isBlank c = true) : trim (left ++ cs ++ right) = cs := by
  have hleft : ∀ c ∈ left, isBlank c = true := fun c hc => hblank c (List.mem_append_left _ hc)
  have hright : ∀ c ∈ right, isBlank c = true := fun c hc => hblank c (List.mem_append_right _ hc)
  rw [trim, List.append_assoc, List.dropWhile_append_of_pos hleft]
  cases cs with
  | nil =>
    rw [List.nil_append, List.dropWhile_eq_nil_iff.mpr hright]
    rfl
  | cons c cs =>
    have hc := h.head c rfl
    rw [List.cons_append, List.dropWhile_cons_of_neg (by simp [hc]), ← List.cons_append]
    obtain ⟨init, last, hall⟩ : ∃ init last, c :: cs = init ++ [last] :=
      ⟨_, _, (List.dropLast_concat_getLast (List.cons_ne_nil c cs)).symm⟩
    have hlast := h.last last (by rw [hall, List.getLast?_concat]; rfl)
    rw [hall, List.append_assoc, List.singleton_append, trimRight_append_cons hlast,
      trimRight_eq_rdropWhile, List.rdropWhile_eq_nil_iff.mpr hright]

end FilterQuery.Text
