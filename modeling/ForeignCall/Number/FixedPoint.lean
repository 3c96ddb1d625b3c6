import ForeignCall.Number.FloatFormat

/-!
# Numbers with a fixed number of decimal places

`FloatDatum.fixedPoint` writes a number with a given number of decimal places.  The number is taken
exactly, and of two equally near results the even one is written.
-/

namespace ForeignCall

/-- The quotient rounded to nearest, a tie to even. -/
def roundedQuotient (n d : Nat) : Nat :=
  let quotient := n / d
  let rest := n % d
  if 2 * rest < d then quotient
  else if d < 2 * rest then quotient + 1
  else quotient + quotient % 2

/-- The decimal digits of `n`, at least `count` of them. -/
def paddedDigits (count n : Nat) : List Char :=
  let digits := Nat.toDigits 10 n
  List.replicate (count - digits.length) '0' ++ digits

/-- A number of units of the last of `places` decimal places, written with a point. -/
def placePoint (places units : Nat) : List Char :=
  let digits := paddedDigits (places + 1) units
  let whole := digits.take (digits.length - places)
  if places = 0 then whole else whole ++ '.' :: digits.drop (digits.length - places)

/-- The number of units of the last of `places` decimal places that is nearest to a magnitude. -/
def decimalUnits (places significand : Nat) (exponent : Int) : Nat :=
  roundedQuotient (significand <<< exponent.toNat * Nat.pow 10 places) (1 <<< (-exponent).toNat)

/-- Whether the sign of a datum is negative. -/
def FloatDatum.isNegative : FloatDatum → Bool
  | .nan negative _ | .infinite negative | .finite negative _ _ => negative

/-- The magnitude with a fixed number of decimal places. -/
def FloatDatum.fixedPoint (places : Nat) : FloatDatum → List Char
  | .nan _ _ => ['n', 'a', 'n']
  | .infinite _ => ['i', 'n', 'f']
  | .finite _ significand exponent => placePoint places (decimalUnits places significand exponent)

end ForeignCall
