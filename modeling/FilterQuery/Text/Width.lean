/-!
# FilterQuery.Text.Width

Widths in UTF-8 bytes.  Positions in a query are byte offsets, while its text
is handled as a list of characters; the width of a list of characters ties the
two together.
-/

namespace FilterQuery.Text

-- The sum starts from the numeral zero, whatever other zeros are known.
attribute [local instance (high)] Zero.ofOfNat0

/-- The number of bytes that the characters take in UTF-8. -/
def byteWidth (cs : List Char) : Nat := (cs.map Char.utf8Size).sum

@[simp] theorem byteWidth_nil : byteWidth [] = 0 := rfl

@[simp] theorem byteWidth_cons (c : Char) (cs : List Char) :
    byteWidth (c :: cs) = c.utf8Size + byteWidth cs := by
  simp [byteWidth]

@[simp] theorem byteWidth_append (xs ys : List Char) :
    byteWidth (xs ++ ys) = byteWidth xs + byteWidth ys := by
  simp [byteWidth]

/-- Every character takes some bytes. -/
theorem byteWidth_pos {cs : List Char} (h : cs ≠ []) : 0 < byteWidth cs := by
  obtain ⟨c, cs, rfl⟩ := List.exists_cons_of_ne_nil h
  have hc := c.utf8Size_pos
  rw [byteWidth_cons]
  omega

theorem utf8ByteSize_ofList (cs : List Char) : (String.ofList cs).utf8ByteSize = byteWidth cs := by
  induction cs with
  | nil => rfl
  | cons c cs ih => simp [String.ofList_cons, ih]

/-- The width of a string's characters is the size of the string. -/
theorem byteWidth_toList (s : String) : byteWidth s.toList = s.utf8ByteSize := by
  rw [← utf8ByteSize_ofList, String.ofList_toList]

/-! ## characters before a byte position -/

/-- One pass over the characters; `before` holds those already passed, last
first, and `bytes` is the distance still to go. -/
def charsBeforeFrom (before : List Char) (bytes : Nat) : List Char → List Char
  | [] => before.reverse
  | c :: cs =>
    if c.utf8Size ≤ bytes then charsBeforeFrom (c :: before) (bytes - c.utf8Size) cs
    else before.reverse

/-- The characters that lie wholly before a byte position. -/
def charsBefore (position : Nat) (cs : List Char) : List Char := charsBeforeFrom [] position cs

theorem charsBeforeFrom_byteWidth_append (before xs ys : List Char) :
    charsBeforeFrom before (byteWidth xs) (xs ++ ys) = before.reverse ++ xs := by
  induction xs generalizing before with
  | nil =>
    cases ys with
    | nil => simp [charsBeforeFrom]
    | cons y ys =>
      have : 0 < y.utf8Size := Char.utf8Size_pos y
      simp [charsBeforeFrom, Nat.not_le.mpr this]
  | cons x xs ih =>
    simp [charsBeforeFrom, ih]

/-- Cutting at the end of an initial part gives that part. -/
theorem charsBefore_byteWidth_append (xs ys : List Char) :
    charsBefore (byteWidth xs) (xs ++ ys) = xs :=
  charsBeforeFrom_byteWidth_append [] xs ys

end FilterQuery.Text
