import FilterQuery.Binary64.Nearest
import FilterQuery.Decimal

/-!
# FilterQuery.Binary64.Shortest

The shortest decimal that reads back as a given binary64 number.  The decimals
with last place `10 ^ p` form a grid; the coarsest grid with a point that reads
back holds the decimal with the fewest digits, and of the points of a grid the
two next to the number are the only ones to try.  Of two that read back the
nearer is taken.  The grid `10 ^ -1074` holds the number itself, so the search
ends there at the latest.
-/

namespace FilterQuery.Binary64

/-- Which of two equally near decimals to take. -/
inductive Tie where
  | up
  | even
deriving DecidableEq

/-- The neighbour of `num / den` among the whole numbers that passes a test,
the nearer one if both do. -/
def passingNeighbour (tie : Tie) (test : Nat → Bool) (num den : Nat) : Option Nat :=
  let below := num / den
  let above := below + 1
  let rest := num % den
  if test below then
    if test above then
      if 2 * rest < den then some below
      else if den < 2 * rest then some above
      else match tie with
        | .up => some above
        | .even => some (below + below % 2)
    else some below
  else if test above then some above
  else none

/-- A neighbour that is found passes the test. -/
theorem test_of_passingNeighbour {tie : Tie} {test : Nat → Bool} {num den n : Nat}
    (h : passingNeighbour tie test num den = some n) : test n = true := by
  have hmod := Nat.mod_two_eq_zero_or_one (num / den)
  cases tie <;> grind [passingNeighbour]

/-! ## grids -/

/-- The point of the grid `10 ^ (places - drop)` next to the magnitude that reads
back, if there is one. -/
def point? (tie : Tie) (magnitude places drop : Nat) : Option Decimal :=
  (passingNeighbour tie (fun n => nearest (n * 10 ^ places) (10 ^ drop) == magnitude)
    (units magnitude * 10 ^ drop) (2 ^ 1074 * 10 ^ places)).map fun n => ⟨n, places - drop⟩

/-- The point of the grid that is at or next below the magnitude. -/
def pointBelow (magnitude places drop : Nat) : Decimal :=
  ⟨units magnitude * 10 ^ drop / (2 ^ 1074 * 10 ^ places), places - drop⟩

/-- Search the grids from number `drop` on, at most `grids` of them before the
last one, which has a point in any case. -/
def search (point? : Nat → Option Decimal) (last : Nat → Decimal) : (grids drop : Nat) → Decimal
  | 0, drop => last drop
  | grids + 1, drop =>
    match point? drop with
    | some d => d
    | none => search point? last grids (drop + 1)

/-- What is found is a point of a grid or that of the last one. -/
theorem search_of_points {point? : Nat → Option Decimal} {last : Nat → Decimal}
    {P : Decimal → Prop} (hpoint : ∀ drop d, point? drop = some d → P d) {grids drop : Nat}
    (hlast : P (last (grids + drop))) : P (search point? last grids drop) := by
  induction grids generalizing drop with
  | zero => simpa [search] using hlast
  | succ grids ih =>
    rw [search]
    split
    · next h => exact hpoint _ _ h
    · exact ih (by rwa [← Nat.add_right_comm, Nat.add_assoc] at hlast)

/-- The number of decimal places of the whole part, none if that is zero. -/
def wholePlaces (magnitude : Nat) : Nat :=
  let whole := units magnitude / 2 ^ 1074
  if whole = 0 then 0 else (Nat.toDigits 10 whole).length

/-- The decimal with the fewest digits that reads back as the finite magnitude. -/
def shortest (tie : Tie) (magnitude : Nat) : Decimal :=
  let places := wholePlaces magnitude
  search (point? tie magnitude places) (pointBelow magnitude places) (places + 1074) 0

/-! ## layouts -/

/-- How a format writes numbers. -/
structure Layout where
  /-- Which of two equally near shortest decimals is written. -/
  tie : Tie
  /-- The least and the greatest order written positionally; all, if absent. -/
  positionalOrders : Option (Int × Int)
  /-- What marks a power of ten that is not negative. -/
  plus : String
  /-- The name of infinity. -/
  infinity : String
  /-- The name of NaN, which shows no sign. -/
  nan : String

/-- Does the layout write decimals of this order positionally? -/
def Layout.isPositional (layout : Layout) (order : Int) : Bool :=
  match layout.positionalOrders with
  | none => true
  | some (least, greatest) => least ≤ order && order ≤ greatest

/-- Write a decimal. -/
def Layout.decimal (layout : Layout) (d : Decimal) : List Char :=
  if layout.isPositional d.order then d.positional else d.scientific layout.plus.toList

/-- Write a number. -/
def text (layout : Layout) (x : Binary64) : List Char :=
  if x.isNaN then layout.nan.toList
  else
    (if x.negative then ['-'] else []) ++
      if x.isFinite then layout.decimal (shortest layout.tie x.magnitude.val)
      else layout.infinity.toList

end FilterQuery.Binary64
