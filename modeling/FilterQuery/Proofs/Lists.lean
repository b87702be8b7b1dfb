/-!
# FilterQuery.Proofs.Lists

Where a list may be cut: at an element of two lists put together, at an element
of which it is known how many like it stand before, and where a run of elements
ends.
-/

namespace FilterQuery

variable {α : Type}

/-- An element of two lists put together is in the first one or in the second. -/
theorem append_eq_append_cons {xs ys before after : List α} {z : α}
    (h : xs ++ ys = before ++ z :: after) :
    (∃ middle, xs = before ++ z :: middle ∧ after = middle ++ ys) ∨
      ∃ middle, before = xs ++ middle ∧ ys = middle ++ z :: after := by
  obtain h | ⟨middle, hxs, hys⟩ := List.append_eq_append_iff.mp h
  · exact .inr h
  · cases middle with
    | nil => exact .inr ⟨[], by simpa using hxs.symm, by simpa using hys.symm⟩
    | cons w middle =>
      obtain ⟨rfl, rfl⟩ := List.cons.inj hys
      exact .inl ⟨middle, hxs, rfl⟩

/-- The element with index `n` is the one behind `n` others. -/
theorem getElem?_eq_some_iff_append {xs : List α} {n : Nat} {x : α} :
    xs[n]? = some x ↔ ∃ before after, xs = before ++ x :: after ∧ before.length = n := by
  constructor
  · intro h
    obtain ⟨hn, hx⟩ := List.getElem?_eq_some_iff.mp h
    refine ⟨xs.take n, xs.drop (n + 1), ?_, List.length_take_of_le (Nat.le_of_lt hn)⟩
    rw [← hx, List.getElem_cons_drop, List.take_append_drop]
  · intro h
    obtain ⟨before, after, rfl, rfl⟩ := h
    rw [List.getElem?_append_right (Nat.le_refl _), Nat.sub_self]
    rfl

/-- The element that satisfies `P` behind `n` others that do. -/
theorem exists_of_lt_countP {P : α → Bool} {xs : List α} {n : Nat}
    (h : n < xs.countP P) :
    ∃ before x after, xs = before ++ x :: after ∧ P x = true ∧ before.countP P = n := by
  induction xs generalizing n with
  | nil => simp at h
  | cons x xs ih =>
    by_cases hx : P x = true
    · cases n with
      | zero => exact ⟨[], x, xs, rfl, hx, rfl⟩
      | succ n =>
        rw [List.countP_cons_of_pos hx] at h
        obtain ⟨before, y, after, rfl, hy, rfl⟩ := ih (Nat.lt_of_succ_lt_succ h)
        exact ⟨x :: before, y, after, rfl, hy, List.countP_cons_of_pos hx⟩
    · rw [List.countP_cons_of_neg hx] at h
      obtain ⟨before, y, after, rfl, hy, rfl⟩ := ih h
      exact ⟨x :: before, y, after, rfl, hy, List.countP_cons_of_neg hx⟩

variable {P : α → Bool} {xs ys rest rest' : List α}

/-- A run ends where `P` does not hold any more. -/
theorem takeWhile_run (hxs : ∀ x ∈ xs, P x = true) (hrest : ∀ x ∈ rest.head?, P x = false) :
    (xs ++ rest).takeWhile P = xs := by
  rw [List.takeWhile_append_of_pos hxs]
  cases rest with
  | nil => simp
  | cons x rest => simp [hrest x rfl]

/-- So a run in front of other elements can be told from them. -/
theorem eq_of_run (hxs : ∀ x ∈ xs, P x = true) (hys : ∀ x ∈ ys, P x = true)
    (hrest : ∀ x ∈ rest.head?, P x = false) (hrest' : ∀ x ∈ rest'.head?, P x = false)
    (h : xs ++ rest = ys ++ rest') : xs = ys ∧ rest = rest' := by
  have htake := congrArg (List.takeWhile P) h
  rw [takeWhile_run hxs hrest, takeWhile_run hys hrest'] at htake
  subst htake
  exact ⟨rfl, List.append_cancel_left h⟩

end FilterQuery
