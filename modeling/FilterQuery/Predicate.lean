import FilterQuery.Connective
import FilterQuery.FieldSet
import FilterQuery.Literal
import FilterQuery.Operator

/-!
# FilterQuery.Predicate

The meaning of a query: comparisons joined by binary connectives.
-/

namespace FilterQuery

/-- A tree of comparisons. -/
inductive Predicate where
  | comparison (field : String) (relation : Relation) (value : Literal)
  | logical (connective : Connective) (left right : Predicate)
deriving DecidableEq

namespace Predicate

/-- The number of nodes on the longest branch. -/
def height : Predicate → Nat
  | comparison .. => 1
  | logical _ left right => max left.height right.height + 1

theorem height_pos (p : Predicate) : 0 < p.height := by
  cases p <;> simp [height]

/-- Add the names of all fields to a set. -/
def addFields (p : Predicate) (fields : FieldSet) : FieldSet :=
  match p with
  | comparison field _ _ => fields.insert field
  | logical _ left right => right.addFields (left.addFields fields)

/-- The names of all fields. -/
def fields (p : Predicate) : FieldSet := p.addFields ∅

theorem mem_addFields {p : Predicate} {fields : FieldSet} {name : String} :
    name ∈ p.addFields fields ↔ name ∈ p.fields ∨ name ∈ fields := by
  have key : ∀ (p : Predicate) (fields : FieldSet),
      name ∈ p.addFields fields ↔ name ∈ p.addFields ∅ ∨ name ∈ fields := by
    intro p
    induction p with
    | comparison field relation value =>
      intro fields
      simp [addFields, Std.TreeSet.mem_insert]
    | logical connective left right ihl ihr =>
      intro fields
      simp only [addFields]
      rw [ihr (left.addFields fields), ihr (left.addFields ∅), ihl fields]
      exact or_assoc.symm
  exact key p fields

/-- A comparison mentions one field. -/
@[simp] theorem mem_fields_comparison {field name : String} {relation : Relation}
    {value : Literal} : name ∈ (comparison field relation value).fields ↔ name = field := by
  simp only [fields, addFields, Std.TreeSet.mem_insert, Std.TreeSet.not_mem_emptyc, or_false]
  rw [Std.compare_eq_iff_eq, eq_comm]

/-- A connective mentions what its operands mention. -/
@[simp] theorem mem_fields_logical {connective : Connective} {left right : Predicate}
    {name : String} : name ∈ (logical connective left right).fields ↔
      name ∈ left.fields ∨ name ∈ right.fields := by
  simp only [fields, addFields]
  rw [mem_addFields]
  exact or_comm

/-- All subtrees, each before its own left and right ones. -/
def subtrees : Predicate → List Predicate
  | p@(comparison ..) => [p]
  | p@(logical _ left right) => p :: (left.subtrees ++ right.subtrees)

/-- Equality of predicates, where floats are equal as numbers. -/
def equals : Predicate → Predicate → Bool
  | comparison f r v, comparison g s w => f == g && r == s && v.equals w
  | logical c l r, logical d m s => c == d && l.equals m && r.equals s
  | _, _ => false

end Predicate

end FilterQuery
