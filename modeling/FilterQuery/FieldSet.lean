import FilterQuery.Identifier
import Std.Data.TreeSet

/-!
# FilterQuery.FieldSet

Sets of field names, listed in the order of their code points.
-/

namespace FilterQuery

/-- A set of field names. -/
abbrev FieldSet := Std.TreeSet String

namespace FieldSet

/-- The set of the names in a list. -/
def ofNames (names : List String) : FieldSet := Std.TreeSet.ofList names

@[simp] theorem mem_ofNames {names : List String} {name : String} :
    name ∈ ofNames names ↔ name ∈ names := by
  simp [ofNames, Std.TreeSet.mem_ofList]

/-- The names in the set that no query can mention, as they are not
identifiers. -/
def unreachable (fields : FieldSet) : List String :=
  fields.toList.filter fun name => !isIdentifier name.toList

theorem mem_unreachable {fields : FieldSet} {name : String} :
    name ∈ unreachable fields ↔ name ∈ fields ∧ isIdentifier name.toList = false := by
  simp [unreachable, Std.TreeSet.mem_toList]

end FieldSet

end FilterQuery
