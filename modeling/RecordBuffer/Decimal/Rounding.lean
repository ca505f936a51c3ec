import RecordBuffer.Decimal.Leading

/-!
# Rounding to binary floating point

Decimal numbers are compared after rounding to the nearest number with 53
binary digits, ties going to the even one. All such numbers are multiples of
`2 ^ -1074`, so they are counted in that unit and everything is exact.
-/

namespace RecordBuffer.Decimal

/-- A quotient rounded to the nearest whole number, halves to the even one. -/
def nearestEven (numerator denominator : Nat) : Nat :=
  let quotient := numerator / denominator
  let remainder := numerator % denominator
  if 2 * remainder < denominator then quotient
  else if denominator < 2 * remainder then quotient + 1
  else quotient + quotient % 2

/-- Binary digits that a number keeps. -/
def precision : Nat := 53

/-- The unit is `2 ^ -unitExponent`. -/
def unitExponent : Nat := 1074

/-- Infinity in units: every number of at least `2 ^ 1024` is as large as any other. -/
def infinity : Nat := 1 <<< (1024 + unitExponent)

/-- The distance in units between neighbouring rounded numbers where the magnitude is `whole`
units and possibly a fraction of one. It is a unit as long as the units fit the precision. -/
def spacing (whole : Nat) : Nat := 1 <<< (whole.log2 + 1 - precision)

/-- The rounded magnitude of `numerator / denominator` in units. -/
def roundMagnitude (numerator denominator : Nat) : Nat :=
  let scaled := numerator <<< unitExponent
  let step := spacing (scaled / denominator)
  min (nearestEven scaled (denominator * step) * step) infinity

/-- The rounded number in units. The two zeros are one. -/
def rounded (number : Decimal) : Int :=
  let magnitude := roundMagnitude number.numerator (Nat.pow 10 number.places)
  if number.negative then -magnitude else magnitude

end RecordBuffer.Decimal
