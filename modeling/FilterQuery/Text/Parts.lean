/-!
# FilterQuery.Text.Parts

Cutting a text at a separator.  There is always one part more than separators,
and the parts joined by the separator are the text: the parts are what stands
between separators or the ends of the text (`mem_splitAt_iff`).
-/

namespace FilterQuery.Text

/-- Put a character in front of the first part. -/
def consPart (c : Char) : List (List Char) → List (List Char)
  | [] => [[c]]
  | part :: parts => (c :: part) :: parts

/-- The parts between the separators. -/
def splitAt (separator : Char) (cs : List Char) : List (List Char) :=
  cs.foldr (fun c parts => if c = separator then [] :: parts else consPart c parts) [[]]

@[simp] theorem splitAt_nil (separator : Char) : splitAt separator [] = [[]] := rfl

theorem splitAt_cons (separator c : Char) (cs : List Char) :
    splitAt separator (c :: cs) =
      if c = separator then [] :: splitAt separator cs else consPart c (splitAt separator cs) :=
  rfl

theorem splitAt_ne_nil (separator : Char) (cs : List Char) : splitAt separator cs ≠ [] := by
  cases cs with
  | nil => simp
  | cons c cs =>
    rw [splitAt_cons]
    split
    · simp
    · cases splitAt separator cs <;> simp [consPart]

/-- A text without separators is its only part. -/
theorem splitAt_of_not_mem {separator : Char} {cs : List Char} (h : separator ∉ cs) :
    splitAt separator cs = [cs] := by
  induction cs with
  | nil => rfl
  | cons c cs ih =>
    obtain ⟨hc, hcs⟩ : separator ≠ c ∧ separator ∉ cs := by simpa using h
    rw [splitAt_cons, if_neg (Ne.symm hc), ih hcs]
    rfl

/-- Texts with a separator between them have the parts of both. -/
theorem splitAt_append (separator : Char) (xs ys : List Char) :
    splitAt separator (xs ++ separator :: ys) = splitAt separator xs ++ splitAt separator ys := by
  induction xs with
  | nil => simp [splitAt_cons]
  | cons c cs ih =>
    rw [List.cons_append, splitAt_cons, splitAt_cons, ih]
    split
    · rfl
    · cases hcs : splitAt separator cs with
      | nil => exact absurd hcs (splitAt_ne_nil separator cs)
      | cons first parts => rfl

/-- A part of a text: no separator stands in it, and separators or the ends of the text
stand around it. -/
def IsPart (separator : Char) (cs part : List Char) : Prop :=
  separator ∉ part ∧ ∃ front back, cs = front ++ part ++ back ∧
    (∀ c ∈ front.getLast?, c = separator) ∧ ∀ c ∈ back.head?, c = separator

/-- What stands behind a separator is cut on its own. -/
theorem IsPart.append_left {separator : Char} {ys part : List Char}
    (h : IsPart separator ys part) (xs : List Char) :
    IsPart separator (xs ++ separator :: ys) part := by
  obtain ⟨hpart, front, back, rfl, hfront, hback⟩ := h
  refine ⟨hpart, xs ++ separator :: front, back, by simp, fun c hc => ?_, hback⟩
  rw [List.getLast?_append, List.getLast?_cons] at hc
  cases hlast : front.getLast? <;> simp_all

/-- What stands in front of a separator is cut on its own. -/
theorem IsPart.append_right {separator : Char} {xs part : List Char}
    (h : IsPart separator xs part) (ys : List Char) :
    IsPart separator (xs ++ separator :: ys) part := by
  obtain ⟨hpart, front, back, rfl, hfront, hback⟩ := h
  refine ⟨hpart, front, back ++ separator :: ys, by simp, hfront, fun c hc => ?_⟩
  cases back <;> simp_all

/-- What is cut out stands between separators or ends of the text. -/
theorem isPart_of_mem_splitAt {separator : Char} {cs part : List Char}
    (h : part ∈ splitAt separator cs) : IsPart separator cs part := by
  by_cases hmem : separator ∈ cs
  · obtain ⟨xs, ys, hcs⟩ := List.append_of_mem hmem
    have hlength : cs.length = xs.length + (ys.length + 1) := by simp [hcs]
    rw [hcs, splitAt_append] at h
    rw [hcs]
    obtain hxs | hys := List.mem_append.mp h
    · exact (isPart_of_mem_splitAt hxs).append_right ys
    · exact (isPart_of_mem_splitAt hys).append_left xs
  · rw [splitAt_of_not_mem hmem, List.mem_singleton] at h
    exact ⟨h ▸ hmem, [], [], by simp [h], by simp, by simp⟩
termination_by cs.length
decreasing_by all_goals omega

/-- The parts of a text are what stands between separators or its ends. -/
theorem mem_splitAt_iff {separator : Char} {cs part : List Char} :
    part ∈ splitAt separator cs ↔ IsPart separator cs part := by
  refine ⟨isPart_of_mem_splitAt, fun h => ?_⟩
  obtain ⟨hpart, front, back, rfl, hfront, hback⟩ := h
  have hrest : part ∈ splitAt separator (part ++ back) := by
    cases back with
    | nil => simp [splitAt_of_not_mem hpart]
    | cons c back =>
      obtain rfl := hback c rfl
      simp [splitAt_append, splitAt_of_not_mem hpart]
  obtain rfl | ⟨init, c, rfl⟩ := List.eq_nil_or_concat front
  · exact hrest
  · obtain rfl := hfront c (by simp)
    rw [List.concat_eq_append, List.append_assoc, List.append_assoc, List.singleton_append,
      splitAt_append]
    exact List.mem_append_right _ hrest

end FilterQuery.Text
