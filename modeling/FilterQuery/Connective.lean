import FilterQuery.Text.Letters

/-!
# FilterQuery.Connective

The two logical connectives.  `AND` binds more tightly than `OR`, and both are
recognised in any letter case.
-/

namespace FilterQuery

/-- How two predicates are combined. -/
inductive Connective where
  | and
  | or
deriving DecidableEq

namespace Connective

/-- The keyword, as the canonical text of a query writes it. -/
def keyword : Connective → String
  | .and => "AND"
  | .or => "OR"

/-- The name in JSON. -/
def code : Connective → String
  | .and => "and"
  | .or => "or"

/-- The name in a dump. -/
def name : Connective → String
  | .and => "And"
  | .or => "Or"

/-- The higher one binds more tightly. -/
def precedence : Connective → Nat
  | .or => 1
  | .and => 2

/-- The connective that a word denotes, in any letter case. -/
def ofWord? (word : List Char) : Option Connective :=
  if Text.spells "and" word then some .and
  else if Text.spells "or" word then some .or
  else none

/-- Letter case does not matter. -/
theorem ofWord?_congr {v w : List Char} (h : Text.lowerCase v = Text.lowerCase w) :
    ofWord? v = ofWord? w := by
  simp [ofWord?, Text.spells_congr h]

end Connective

end FilterQuery
