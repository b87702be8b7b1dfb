import FilterQuery.Json
import FilterQuery.Literal

/-!
# FilterQuery.Literal.Json

Values in JSON: an object with one member that names the kind of value, or the
string `null`.
-/

namespace FilterQuery

/-- A number stands for itself, so only its form tells integers from floats. -/
def Number.toJson : Number → Json
  | .integer n => .integer n.toInt
  | .float x => .float x

/-- A value under the name of its kind. -/
def Literal.toJson : Literal → Json
  | .string s => .object [("string", .string s)]
  | .number n => .object [("number", n.toJson)]
  | .boolean b => .object [("boolean", .boolean b)]
  | .null => .string "null"

end FilterQuery
