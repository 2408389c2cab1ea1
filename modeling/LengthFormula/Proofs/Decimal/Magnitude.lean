import LengthFormula.Decimal.Shortest
import LengthFormula.Proofs.Double.Nearest

/-!
# The doubles nearest to decimals

The shortcuts for very small and very large decimals round as the fraction does
(`Decimal.magnitude_eq`), so a decimal rounds by its value: zeros at the end of the coefficient can
be moved into the exponent (`Decimal.magnitude_shift`).  The shortest decimal of a double reads back
(`Decimal.magnitude_shortest`).
-/

namespace LengthFormula.Decimal

open Double

theorem nearestMagnitude_of_vanishes {d : Decimal} (h : d.vanishes = true) :
    nearestMagnitude (d.coefficient * 10 ^ d.exponent.toNat) (10 ^ (-d.exponent).toNat) = 0 := by
  apply nearestMagnitude_of_lt
  rw [vanishes, Bool.or_eq_true, beq_iff_eq, decide_eq_true_eq] at h
  by_cases h0 : d.coefficient = 0
  · rw [h0, Nat.zero_mul, Nat.zero_mul]
    exact Nat.pow_pos (by decide)
  · have hlog := h.resolve_left h0
    have hwhole : d.exponent.toNat = 0 := by omega
    have hlt : d.coefficient < 2 ^ (d.coefficient.log2 + 1) := Nat.lt_log2_self
    obtain ⟨j, hj⟩ : ∃ j, (-d.exponent).toNat = j := ⟨_, rfl⟩
    obtain ⟨e, he, hunits⟩ := unitsPerOne_eq_two_pow
    rw [hwhole, hj, Nat.pow_zero, Nat.mul_one, hunits, Nat.mul_comm 2, Nat.mul_assoc,
      ← Nat.pow_succ]
    calc d.coefficient * 2 ^ (e + 1)
        < 2 ^ (d.coefficient.log2 + 1) * 2 ^ (e + 1) :=
          Nat.mul_lt_mul_of_pos_right hlt (Nat.two_pow_pos _)
      _ = 2 ^ (d.coefficient.log2 + 1 + (e + 1)) := (Nat.pow_add _ _ _).symm
      _ ≤ 2 ^ (3 * j) := Nat.pow_le_pow_right (by decide) (by omega)
      _ = 8 ^ j := Nat.pow_mul 2 3 j
      _ ≤ 10 ^ j := Nat.pow_le_pow_left (by decide) j

theorem nearestMagnitude_of_overflows {d : Decimal} (h : d.overflows = true) :
    nearestMagnitude (d.coefficient * 10 ^ d.exponent.toNat) (10 ^ (-d.exponent).toNat)
      = infinityMagnitude := by
  rw [overflows, Bool.and_eq_true, bne_iff_ne, decide_eq_true_eq] at h
  obtain ⟨h0, hexponent⟩ := h
  have hpart : (-d.exponent).toNat = 0 := by omega
  rw [hpart, Nat.pow_zero]
  refine nearestMagnitude_of_le (p := 1025) Nat.one_pos (Nat.le_refl _) ?_
  calc 1 * 2 ^ 1025 ≤ 10 ^ 311 := by decide +kernel
    _ ≤ 10 ^ d.exponent.toNat := Nat.pow_le_pow_right (by decide) (by omega)
    _ ≤ d.coefficient * 10 ^ d.exponent.toNat := Nat.le_mul_of_pos_left _ (by omega)

/-- A decimal is rounded as the fraction of natural numbers that it is. -/
theorem magnitude_eq (d : Decimal) : d.magnitude
    = nearestMagnitude (d.coefficient * 10 ^ d.exponent.toNat) (10 ^ (-d.exponent).toNat) := by
  unfold magnitude
  split
  · next h => exact (nearestMagnitude_of_vanishes h).symm
  · split
    · next h => exact (nearestMagnitude_of_overflows h).symm
    · rfl

/-- Zeros at the end of the coefficient count in the exponent. -/
theorem magnitude_shift (n j : Nat) (e : Int) :
    magnitude ⟨n * 10 ^ j, e⟩ = magnitude ⟨n, e + j⟩ := by
  rw [magnitude_eq, magnitude_eq]
  refine nearestMagnitude_congr (Nat.pow_pos (by decide)) (Nat.pow_pos (by decide)) ?_
  have hexponent : j + e.toNat + (-(e + j)).toNat = (e + j).toNat + (-e).toNat := by omega
  calc n * 10 ^ j * 10 ^ e.toNat * 10 ^ (-(e + j)).toNat
      = n * 10 ^ (j + e.toNat + (-(e + j)).toNat) := by
        rw [Nat.pow_add, Nat.pow_add]
        simp only [Nat.mul_assoc]
    _ = n * 10 ^ (e + j).toNat * 10 ^ (-e).toNat := by
        rw [hexponent, Nat.pow_add, Nat.mul_assoc]

theorem magnitude_zero (e : Int) : magnitude ⟨0, e⟩ = 0 := by
  rw [magnitude, vanishes]
  rfl

/-! ## Shortest decimals -/

theorem magnitude_exact {k : Nat} (h : k < infinityMagnitude) : (exact k).magnitude = k := by
  have hscale : ∀ u e : Nat, u * 5 ^ e * 10 ^ 0 * 2 ^ e = u * 10 ^ e := fun u e => by
    rw [Nat.pow_zero, Nat.mul_one, Nat.mul_assoc, ← Nat.mul_pow]
  rw [magnitude_eq]
  refine Eq.trans ?_ (nearestMagnitude_unitsOf h)
  refine nearestMagnitude_congr (Nat.pow_pos (by decide)) unitsPerOne_pos ?_
  have hwhole : (-1074 : Int).toNat = 0 := rfl
  have hpart : (- -1074 : Int).toNat = 1074 := rfl
  rw [exact, hwhole, hpart, unitsPerOne]
  generalize 1074 = e
  exact hscale (unitsOf k) e

/-- The shortest decimal of a finite double reads back. -/
theorem magnitude_shortest (tie : Tie) {k : Nat} (h : k < infinityMagnitude) :
    (shortest tie k).magnitude = k := by
  unfold shortest
  split
  · next h0 =>
    rw [h0]
    exact magnitude_zero 0
  · cases hfound : (List.range 17).findSome? fun i => withDigits? tie k (i + 1) with
    | none => exact magnitude_exact h
    | some d =>
      obtain ⟨i, -, hi⟩ := List.exists_of_findSome?_eq_some hfound
      exact magnitude_of_withDigits? hi

end LengthFormula.Decimal
