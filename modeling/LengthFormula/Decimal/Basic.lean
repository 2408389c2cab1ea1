import LengthFormula.Double.Nearest

/-!
# Decimals

A decimal is a natural coefficient times a power of ten.  `Decimal.magnitude` rounds it to the
nearest double; coefficients and exponents of any size are allowed.
-/

namespace LengthFormula

/-- The number `coefficient * 10 ^ exponent`. -/
structure Decimal where
  coefficient : Nat
  exponent : Int
  deriving DecidableEq, Repr

namespace Decimal

/-- The decimal lies below every double that is not zero, and below half of the smallest one: at
most `2 ^ (log2 coefficient + 1)` times a power of ten below `2 ^ (3 * exponent)`. -/
def vanishes (d : Decimal) : Bool :=
  d.coefficient == 0 || (d.coefficient.log2 : Int) + 1 + 3 * d.exponent < -1080

/-- The decimal lies above every finite double. -/
def overflows (d : Decimal) : Bool :=
  d.coefficient != 0 && 310 < d.exponent

/-- The magnitude of the double nearest to the decimal. -/
def magnitude (d : Decimal) : Nat :=
  if d.vanishes then 0
  else if d.overflows then Double.infinityMagnitude
  else Double.nearestMagnitude (d.coefficient * 10 ^ d.exponent.toNat) (10 ^ (-d.exponent).toNat)

/-- The double nearest to the decimal, with the given sign. -/
def toDouble (negative : Bool) (d : Decimal) : Float :=
  Double.ofMagnitude negative d.magnitude

end Decimal

end LengthFormula
