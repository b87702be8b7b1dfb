import FilterQuery.FieldSet

/-!
# FilterQuery.Policy

What queries are admitted: the fields they may mention, how deeply groups may
be nested, and how high the resulting predicate may be.
-/

namespace FilterQuery

/-- Restrictions on queries; what is absent is not restricted.  An empty set of
fields admits no comparison at all. -/
structure Policy where
  allowed : Option FieldSet
  maxDepth : Option Nat
  maxHeight : Option Nat

namespace Policy

/-- No restriction at all. -/
def unrestricted : Policy := ⟨none, none, none⟩

/-- Any field, at most 64 groups in one another, at most 256 nodes on a branch. -/
def standard : Policy := ⟨none, some 64, some 256⟩

/-- May queries mention the field? -/
def allows (policy : Policy) (field : String) : Bool :=
  match policy.allowed with
  | none => true
  | some fields => fields.contains field

/-- The limit that a quantity exceeds, if it exceeds one. -/
def exceeded? (limit : Option Nat) (n : Nat) : Option Nat := limit.filter (· < n)

theorem exceeded?_eq_some {limit : Option Nat} {n k : Nat} :
    exceeded? limit n = some k ↔ limit = some k ∧ k < n := by
  simp [exceeded?, Option.filter_eq_some_iff]

/-- Where there is no limit none is exceeded. -/
@[simp] theorem exceeded?_none (n : Nat) : exceeded? none n = none := rfl

end Policy

end FilterQuery
