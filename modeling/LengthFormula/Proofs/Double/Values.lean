import LengthFormula.Proofs.Double.Sums

/-!
# Doubles by their values

Magnitudes count the values of the doubles without repeating one (`Double.unitsOf_injective`), so a
finite double that is not a zero is given by its value (`Double.eq_of_signedUnits_eq`).
-/

namespace LengthFormula.Double

/-- A value belongs to one magnitude alone: its double is the one that is nearest to it. -/
theorem unitsOf_injective : Function.Injective unitsOf := by
  intro j k h
  have hj := roundedMagnitude_unitsOf j Nat.one_pos
  have hk := roundedMagnitude_unitsOf k Nat.one_pos
  rw [h] at hj
  exact hj.symm.trans hk

theorem natAbs_signedUnits (x : Float) : (signedUnits x).natAbs = units x := by
  rw [signedUnits]
  split <;> omega

/-- The sign bit of a number that is not a zero is the sign of its value. -/
theorem isNegative_eq_decide {x : Float} (h : signedUnits x ≠ 0) :
    isNegative x = decide (signedUnits x < 0) := by
  cases hsign : isNegative x with
  | false =>
    rw [signedUnits, hsign, if_neg Bool.false_ne_true]
    exact (decide_eq_false (by omega)).symm
  | true =>
    rw [signedUnits, hsign, if_pos rfl] at h ⊢
    exact (decide_eq_true (by omega)).symm

/-- A finite double that is not a zero is given by its value. -/
theorem eq_of_signedUnits_eq {x y : Float} (hx : isFinite x = true) (hy : isFinite y = true)
    (hne : signedUnits x ≠ 0) (h : signedUnits x = signedUnits y) : x = y := by
  have hmagnitude : magnitude x = magnitude y := by
    apply unitsOf_injective
    rw [← units, ← units, ← natAbs_signedUnits, ← natAbs_signedUnits, h]
  rw [← ofMagnitude_magnitude hx, ← ofMagnitude_magnitude hy, hmagnitude,
    isNegative_eq_decide hne, isNegative_eq_decide (h ▸ hne), h]

end LengthFormula.Double
