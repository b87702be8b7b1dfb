/-!
# FilterQuery.Identifier

Names of fields: an ASCII letter or an underscore, followed by any number of
ASCII letters, digits and underscores.
-/

namespace FilterQuery

/-- A name starts with an ASCII letter or an underscore. -/
def isIdentifierStart (c : Char) : Bool := c.isAlpha || c == '_'

/-- A name goes on with ASCII letters, digits and underscores. -/
def isIdentifierPart (c : Char) : Bool := c.isAlphanum || c == '_'

/-- Is the text a name? -/
def isIdentifier : List Char → Bool
  | [] => false
  | c :: cs => isIdentifierStart c && cs.all isIdentifierPart

/-- What may start a name may also stand inside one. -/
theorem isIdentifierPart_of_start {c : Char} (h : isIdentifierStart c = true) :
    isIdentifierPart c = true := by
  simp only [isIdentifierStart, isIdentifierPart, Char.isAlphanum, Bool.or_eq_true] at h ⊢
  exact h.imp_left Or.inl

end FilterQuery
