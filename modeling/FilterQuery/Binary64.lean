import FilterQuery.Decimal

/-!
# FilterQuery.Binary64

Binary floating-point numbers of 64 bits, given by their sign and the other 63
bits.  A finite number is a whole multiple of `2 ^ -1074`, so its size is the
natural number `units` of those steps; larger 63-bit patterns mean larger
numbers, up to the pattern of infinity, and what lies above it is no number.
-/

namespace FilterQuery

/-- A sign and the 63 bits of exponent and fraction. -/
structure Binary64 where
  negative : Bool
  magnitude : Fin (2 ^ 63)
deriving DecidableEq

namespace Binary64

/-- The magnitude that stands for infinity: an exponent field of ones only and
no fraction. -/
def infinity : Nat := 0x7FF * 2 ^ 52

/-- Neither infinite nor NaN. -/
def isFinite (x : Binary64) : Bool := x.magnitude.val < infinity

/-- Not a number at all. -/
def isNaN (x : Binary64) : Bool := infinity < x.magnitude.val

/-- What is finite is a number. -/
theorem isNaN_of_isFinite {x : Binary64} (h : x.isFinite = true) : x.isNaN = false := by
  simp only [isFinite, isNaN, decide_eq_true_eq, decide_eq_false_iff_not] at h ⊢
  omega

/-! ## bits -/

/-- The number with the given bits, the sign foremost. -/
def ofBits (bits : UInt64) : Binary64 where
  negative := 2 ^ 63 ≤ bits.toNat
  magnitude := Fin.ofNat (2 ^ 63) bits.toNat

/-- The bits of a number. -/
def toBits (x : Binary64) : UInt64 :=
  UInt64.ofNat ((if x.negative then 2 ^ 63 else 0) + x.magnitude.val)

/-! ## values -/

/-- The size of the number with this magnitude, in steps of `2 ^ -1074`.  An
exponent field of zero adds no leading bit. -/
def units (magnitude : Nat) : Nat :=
  let exponent := magnitude / 2 ^ 52
  let fraction := magnitude % 2 ^ 52
  if exponent = 0 then fraction else (2 ^ 52 + fraction) * 2 ^ (exponent - 1)

/-- Are the numbers equal as numbers?  The two zeros are; NaN equals nothing. -/
def equals (x y : Binary64) : Bool :=
  !x.isNaN && !y.isNaN && (x == y || x.magnitude.val == 0 && y.magnitude.val == 0)

end Binary64

end FilterQuery
