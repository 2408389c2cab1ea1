import LengthFormula.Double.Nearest

/-!
# Whole numbers among the doubles

Rounding down, up, toward zero and to the nearest whole number, and the step from doubles to 64-bit
integers, all on exact integers.  The rounded double keeps the sign of its argument, also where it
is zero.  A fractional part is a difference of doubles, and the range of the 64-bit integers is
tested on doubles.
-/

namespace LengthFormula.Double

/-- The whole part of the absolute value of a finite double. -/
def wholePart (x : Float) : Nat := units x / unitsPerOne

/-- A finite double has a fractional part. -/
def hasFraction (x : Float) : Bool := units x % unitsPerOne != 0

/-- A finite whole number. -/
def isIntegral (x : Float) : Bool := isFinite x && !hasFraction x

/-- The whole double that has the sign of `x` and the absolute value `n`. -/
def withSignOf (x : Float) (n : Nat) : Float := nearest (isNegative x) n 1

/-- The nearest whole number toward zero; whole numbers, infinities and NaN stay. -/
def trunc (x : Float) : Float :=
  if isFinite x && hasFraction x then withSignOf x (wholePart x) else x

/-- What is left of `x` behind its whole part; an infinity leaves nothing that is a number. -/
def fract (x : Float) : Float := x - trunc x

/-- The largest whole number that is not above `x`; whole numbers, infinities and NaN stay. -/
def floor (x : Float) : Float :=
  if isFinite x && hasFraction x then
    withSignOf x (if isNegative x then wholePart x + 1 else wholePart x)
  else x

/-- The smallest whole number that is not below `x`; whole numbers, infinities and NaN stay. -/
def ceil (x : Float) : Float :=
  if isFinite x && hasFraction x then
    withSignOf x (if isNegative x then wholePart x else wholePart x + 1)
  else x

/-- The largest whole number that is not above `x + 1/2`, the sum taken as doubles: halves go up,
below zero as well. -/
def roundHalfUp (x : Float) : Float := floor (x + 0.5)

/-- The bounds of 64-bit integers. -/
def minInt64 : Int := -2 ^ 63

@[inherit_doc minInt64]
def maxInt64 : Int := 2 ^ 63 - 1

/-- The double is in the range of the 64-bit integers.  The double nearest to the largest of them is
`2 ^ 63`, so the upper bound is out of range itself. -/
def inInt64Range (x : Float) : Bool := ofInt minInt64 ≤ x && x < ofInt maxInt64

/-- The nearest 64-bit integer in range. -/
def clampInt64 (n : Int) : Int := max minInt64 (min maxInt64 n)

/-- The integer toward zero of a finite double. -/
def toInt (x : Float) : Int := if isNegative x then -(wholePart x : Int) else wholePart x

/-- The 64-bit integer toward zero; values out of range go to the nearer bound and NaN to zero. -/
def toInt64 (x : Float) : Int :=
  if isNaN x then 0
  else if isInfinite x then (if isNegative x then minInt64 else maxInt64)
  else clampInt64 (toInt x)

end LengthFormula.Double
