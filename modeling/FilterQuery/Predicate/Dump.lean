import FilterQuery.Literal.Dump
import FilterQuery.Predicate

/-!
# FilterQuery.Predicate.Dump

Dumps of predicates.
-/

namespace FilterQuery

/-- A node by its kind, with its parts as named fields. -/
def Predicate.dump : Predicate → Dump
  | .comparison field relation value =>
    .tuple "Comparison" [.fields "Comparison"
      [("field", .string field), ("op", .atom relation.name), ("value", value.dump)]]
  | .logical connective left right =>
    .tuple "Logical" [.fields "Logical"
      [("op", .atom connective.name), ("left", left.dump), ("right", right.dump)]]

end FilterQuery
