/-!
# Doubles on their bits

A double is a sign bit over a 63-bit `magnitude`.  The magnitudes below `infinityMagnitude` count
the finite non-negative doubles in ascending order, so that the next double has the next magnitude;
`unitsOf` gives their value as a whole number of units of `2 ^ (-1074)`, the smallest step between
doubles.
-/

namespace LengthFormula.Double

-- Powers are those of the numbers themselves, also where powers in a monoid are in scope.
attribute [default_instance 20000, instance (2000)] instPowNat

/-- The magnitude of infinity; larger ones are no numbers. -/
def infinityMagnitude : Nat := 2047 * 2 ^ 52

/-- The bits below the sign bit. -/
def magnitude (x : Float) : Nat := x.toBits.toNat % 2 ^ 63

/-- The sign bit is set. -/
def isNegative (x : Float) : Bool := 2 ^ 63 ≤ x.toBits.toNat

/-- The double with the given sign bit and magnitude. -/
def ofMagnitude (negative : Bool) (k : Nat) : Float :=
  Float.ofBits (UInt64.ofNat (if negative then 2 ^ 63 + k else k))

/-- Neither an infinity nor a NaN. -/
def isFinite (x : Float) : Bool := magnitude x < infinityMagnitude

theorem magnitude_lt {x : Float} (h : isFinite x = true) : magnitude x < infinityMagnitude :=
  of_decide_eq_true h

/-- One of the two infinities. -/
def isInfinite (x : Float) : Bool := magnitude x == infinityMagnitude

/-- Not a number. -/
def isNaN (x : Float) : Bool := infinityMagnitude < magnitude x

section Kinds

variable {x : Float}

theorem isFinite_or_isInfinite_or_isNaN (x : Float) :
    isFinite x = true ∨ isInfinite x = true ∨ isNaN x = true := by
  rw [isFinite, isInfinite, isNaN, decide_eq_true_eq, beq_iff_eq, decide_eq_true_eq]
  omega

theorem isInfinite_eq_false_of_isFinite (h : isFinite x = true) : isInfinite x = false := by
  have hlt := magnitude_lt h
  exact beq_eq_false_iff_ne.2 (by omega)

theorem isNaN_eq_false_of_isFinite (h : isFinite x = true) : isNaN x = false := by
  have hlt := magnitude_lt h
  exact decide_eq_false (by omega)

theorem isNaN_eq_false_of_isInfinite (h : isInfinite x = true) : isNaN x = false := by
  have hmagnitude : magnitude x = infinityMagnitude := beq_iff_eq.1 h
  exact decide_eq_false (by omega)

theorem isFinite_eq_false_of_isInfinite (h : isInfinite x = true) : isFinite x = false := by
  have hmagnitude : magnitude x = infinityMagnitude := beq_iff_eq.1 h
  exact decide_eq_false (by omega)

theorem isFinite_eq_false_of_isNaN (h : isNaN x = true) : isFinite x = false := by
  have hlt : infinityMagnitude < magnitude x := of_decide_eq_true h
  exact decide_eq_false (by omega)

end Kinds

/-- The value of a finite magnitude in units of `2 ^ (-1074)`: below `2 ^ 52` the magnitude itself,
and above that a 53-bit significand times a power of two. -/
def unitsOf (k : Nat) : Nat :=
  if k < 2 ^ 52 then k else (2 ^ 52 + k % 2 ^ 52) * 2 ^ (k / 2 ^ 52 - 1)

/-- How many units make one. -/
def unitsPerOne : Nat := 2 ^ 1074

/-- The absolute value of a finite double in units. -/
def units (x : Float) : Nat := unitsOf (magnitude x)

end LengthFormula.Double
