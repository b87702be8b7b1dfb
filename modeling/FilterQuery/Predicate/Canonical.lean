import FilterQuery.Literal.Canonical
import FilterQuery.Predicate

/-!
# FilterQuery.Predicate.Canonical

The text of a predicate as a query.  Both connectives group to the left and
`AND` binds more tightly than `OR`, so an operand needs parentheses if its own
connective binds less tightly than the one it belongs to, or if it is a right
operand with the same connective.
-/

namespace FilterQuery.Predicate

/-- On which side of a connective an operand stands. -/
inductive Side where
  | left
  | right
deriving DecidableEq

/-- Does the operand need parentheses on the given side of `parent`? -/
def needsGroup (parent : Connective) (side : Side) : Predicate → Bool
  | comparison .. => false
  | logical connective _ _ =>
    connective.precedence < parent.precedence || side = .right && connective = parent

/-- Put a text in parentheses if need be. -/
def group (needed : Bool) (text : String) : String :=
  if needed then "(" ++ text ++ ")" else text

/-- The canonical text. -/
def text : Predicate → String
  | comparison field relation value => field ++ relation.operator.lexeme ++ value.text
  | logical connective left right =>
    group (left.needsGroup connective .left) left.text ++ " " ++ connective.keyword ++ " " ++
      group (right.needsGroup connective .right) right.text

end FilterQuery.Predicate
