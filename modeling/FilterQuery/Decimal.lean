/-!
# FilterQuery.Decimal

Decimal numbers and the two ways to write them: positionally, always with a
fractional part, or as a mantissa and a power of ten.

Digits are read by halves, as reading them one by one takes too long where
there are very many; the number is the same (`ofDigits_eq`).
-/

namespace FilterQuery

-- Powers of numbers are those of the core library, whatever others are known.
attribute [instance (high), default_instance (high + 1)] instPowNat

/-- The number `digits * 10 ^ exponent`. -/
structure Decimal where
  digits : Nat
  exponent : Int
deriving DecidableEq

namespace Decimal

/-! ## reading -/

/-- The number that digits denote, which are cut into halves `depth` times. -/
def ofHalves : (depth : Nat) → List Char → Nat
  | 0, digits => Nat.ofDigitChars 10 digits 0
  | depth + 1, digits =>
    let places := digits.length / 2
    let split := digits.length - places
    10 ^ places * ofHalves depth (digits.take split) + ofHalves depth (digits.drop split)

/-- The number that digits denote.  Pieces of fewer than 64 digits are not cut
any more. -/
def ofDigits (digits : List Char) : Nat := ofHalves (Nat.log2 digits.length - 5) digits

/-- Digits in front count as many powers of ten as there are digits behind. -/
theorem ofDigitChars_append_zero (front back : List Char) :
    Nat.ofDigitChars 10 (front ++ back) 0 =
      10 ^ back.length * Nat.ofDigitChars 10 front 0 + Nat.ofDigitChars 10 back 0 := by
  rw [Nat.ofDigitChars_append, Nat.ofDigitChars_eq_ofDigitChars_zero]

/-- However often the digits are cut, they denote the same number. -/
theorem ofHalves_eq (depth : Nat) (digits : List Char) :
    ofHalves depth digits = Nat.ofDigitChars 10 digits 0 := by
  induction depth generalizing digits with
  | zero => rfl
  | succ depth ih =>
    have hlength : (digits.drop (digits.length - digits.length / 2)).length =
        digits.length / 2 := by
      rw [List.length_drop]
      omega
    have happend := ofDigitChars_append_zero (digits.take (digits.length - digits.length / 2))
      (digits.drop (digits.length - digits.length / 2))
    rw [List.take_append_drop, hlength] at happend
    rw [ofHalves, ih, ih, happend]

/-- The number is the one that the digits denote one by one. -/
theorem ofDigits_eq (digits : List Char) : ofDigits digits = Nat.ofDigitChars 10 digits 0 :=
  ofHalves_eq _ digits

/-! ## writing -/

/-- The power of ten of the first digit. -/
def order (d : Decimal) : Int :=
  ((Nat.toDigits 10 d.digits).length : Int) - 1 + d.exponent

/-- The digits of a fraction, at least `places` of them. -/
def fractionDigits (places n : Nat) : List Char :=
  List.leftpad places '0' (Nat.toDigits 10 n)

/-- Write the number with a point and at least one digit on either side. -/
def positional (d : Decimal) : List Char :=
  if 0 ≤ d.exponent then
    Nat.toDigits 10 (d.digits * 10 ^ d.exponent.toNat) ++ ['.', '0']
  else
    let places := (-d.exponent).toNat
    Nat.toDigits 10 (d.digits / 10 ^ places) ++
      '.' :: fractionDigits places (d.digits % 10 ^ places)

/-- Write the number as its digits, a point after the first unless it is the
only one, and the power of ten; `plus` marks powers that are not negative. -/
def scientific (plus : List Char) (d : Decimal) : List Char :=
  let digits := Nat.toDigits 10 d.digits
  digits.take 1 ++ (if digits.length = 1 then [] else '.' :: digits.drop 1) ++
    'e' :: (if d.order < 0 then ['-'] else plus) ++ Nat.toDigits 10 d.order.natAbs

end Decimal

end FilterQuery
