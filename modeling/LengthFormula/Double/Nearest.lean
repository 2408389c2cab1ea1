import LengthFormula.Double.Bits

/-!
# The double nearest to a fraction

`nearest` rounds a fraction of natural numbers to the nearest double, a tie to the one with an even
magnitude.  The fraction is brought to units of `2 ^ (-1074)`, cut to 53 significant bits with
rounding, and the result read off as a magnitude; a carry into the next power of two needs no case
of its own, because magnitudes count on across it.
-/

namespace LengthFormula.Double

/-- The natural number nearest to `n / d`, a tie to the even one. -/
def roundHalfEven (n d : Nat) : Nat :=
  let q := n / d
  let r := n % d
  if d < 2 * r || (2 * r == d && q % 2 == 1) then q + 1 else q

/-- How many low bits a number of `whole` units loses to keep 53. -/
def droppedBits (whole : Nat) : Nat := whole.log2 - 52

/-- The magnitude nearest to `n / d` units, before the cut at infinity. -/
def roundedMagnitude (n d : Nat) : Nat :=
  let s := droppedBits (n / d)
  s * 2 ^ 52 + roundHalfEven n (d * 2 ^ s)

/-- The magnitude of the double nearest to `num / den`; infinity where that is too large. -/
def nearestMagnitude (num den : Nat) : Nat :=
  min (roundedMagnitude (num * unitsPerOne) den) infinityMagnitude

/-- The double nearest to `num / den`, with the given sign. -/
def nearest (negative : Bool) (num den : Nat) : Float :=
  ofMagnitude negative (nearestMagnitude num den)

/-- The double nearest to an integer; zero is positive. -/
def ofInt (n : Int) : Float := nearest (n < 0) n.natAbs 1

end LengthFormula.Double
