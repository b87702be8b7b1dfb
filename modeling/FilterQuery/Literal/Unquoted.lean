import FilterQuery.Binary64.Nearest
import FilterQuery.Decimal
import FilterQuery.Literal
import FilterQuery.Text.Letters

/-!
# FilterQuery.Literal.Unquoted

The value that an unquoted text denotes: a constant in any letter case, a
number, or else the text itself.

* `-`, if any, and digits make an integer when it fits in 64 bits;
* `-`, if any, digits, a point and digits make a float when it is finite;
* everything else, numerals out of range included, is a string.
-/

namespace FilterQuery

/-! ## numbers -/

namespace Number

/-- The integer, if 64 bits can hold it. -/
def ofInt? (n : Int) : Option Number :=
  if -2 ^ 63 ≤ n ∧ n < 2 ^ 63 then some (.integer (Int64.ofInt n)) else none

/-- The float nearest to `digits / 10 ^ places`, if that is finite. -/
def ofDecimal? (negative : Bool) (digits places : Nat) : Option Number :=
  let x := Binary64.ofRatio negative digits (10 ^ places)
  if x.isFinite then some (.float x) else none

/-- Read a numeral without its sign. -/
def ofUnsigned? (negative : Bool) (numeral : List Char) : Option Number :=
  let whole := numeral.takeWhile Char.isDigit
  match whole, numeral.dropWhile Char.isDigit with
  | [], _ => none
  | _, [] =>
    let n : Int := Decimal.ofDigits whole
    ofInt? (if negative then -n else n)
  | _, '.' :: fraction =>
    if fraction ≠ [] ∧ fraction.all Char.isDigit then
      ofDecimal? negative (Decimal.ofDigits (whole ++ fraction)) fraction.length
    else none
  | _, _ => none

/-- Read a numeral. -/
def ofNumeral? : List Char → Option Number
  | '-' :: numeral => ofUnsigned? true numeral
  | numeral => ofUnsigned? false numeral

end Number

/-! ## values -/

namespace Literal

/-- The constant that a word denotes, in any letter case. -/
def constant? (word : List Char) : Option Literal :=
  if Text.spells "true" word then some (.boolean true)
  else if Text.spells "false" word then some (.boolean false)
  else if Text.spells "null" word then some .null
  else none

/-- The value of an unquoted text. -/
def ofUnquoted (raw : String) : Literal :=
  match constant? raw.toList with
  | some value => value
  | none =>
    match Number.ofNumeral? raw.toList with
    | some n => .number n
    | none => .string raw

end Literal

end FilterQuery
