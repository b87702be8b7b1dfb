import FilterQuery.Literal.Json
import FilterQuery.Predicate

/-!
# FilterQuery.Predicate.Json

Predicates in JSON: an object with one member, `comparison` or `logical`.
-/

namespace FilterQuery

/-- A node under the name of its kind, with its parts as members. -/
def Predicate.toJson : Predicate → Json
  | .comparison field relation value =>
    .object [("comparison", .object
      [("field", .string field), ("op", .string relation.code), ("value", value.toJson)])]
  | .logical connective left right =>
    .object [("logical", .object
      [("op", .string connective.code), ("left", left.toJson), ("right", right.toJson)])]

end FilterQuery
