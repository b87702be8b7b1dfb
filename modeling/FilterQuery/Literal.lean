import FilterQuery.Binary64

/-!
# FilterQuery.Literal

The values that fields are compared with.
-/

namespace FilterQuery

/-- A number keeps the form in which it was written: without a decimal point it
is an integer of 64 bits, with one it is a float. -/
inductive Number where
  | integer (n : Int64)
  | float (x : Binary64)
deriving DecidableEq

/-- The right-hand side of a comparison. -/
inductive Literal where
  | string (text : String)
  | number (n : Number)
  | boolean (b : Bool)
  | null
deriving DecidableEq

/-! ## equality of values -/

/-- Equality of numbers of the same form; floats are equal as numbers. -/
def Number.equals : Number → Number → Bool
  | .integer m, .integer n => m == n
  | .float x, .float y => x.equals y
  | _, _ => false

/-- Equality of values, where floats are equal as numbers. -/
def Literal.equals : Literal → Literal → Bool
  | .number m, .number n => m.equals n
  | v, w => v == w

end FilterQuery
