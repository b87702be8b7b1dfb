import FilterQuery.Dump
import FilterQuery.Literal

/-!
# FilterQuery.Literal.Dump

Dumps of values.
-/

namespace FilterQuery

/-- A number by its form. -/
def Number.dump : Number → Dump
  | .integer n => .tuple "Int" [.atom (Int.repr n.toInt)]
  | .float x => .tuple "Float" [.ofBinary64 x]

/-- A value by its kind; `null` has nothing behind its name. -/
def Literal.dump : Literal → Dump
  | .string s => .tuple "String" [.string s]
  | .number n => .tuple "Number" [n.dump]
  | .boolean b => .tuple "Boolean" [.ofBool b]
  | .null => .atom "Null"

end FilterQuery
