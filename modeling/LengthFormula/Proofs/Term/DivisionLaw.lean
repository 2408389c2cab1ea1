import LengthFormula.Proofs.Double.Saturation
import LengthFormula.Proofs.Term.Remainder

/-!
# The remainder of all doubles

The remainder operator takes any two doubles, infinities and what is no number included.  Of the
64-bit integers that stand for them it gives what the division leaves: less than the divisor and
with the sign of the dividend, which is one integer and no other (`IsRemainder.eq`).  It fails just
where the division does not exist within 64 bits (`Term.eval_mod_of_doubles`).
-/

namespace LengthFormula

open Double (FitsInt64 RoundsTo toInt64 roundHalfUp minInt64 maxInt64 ofInt)

/-- What is left of the dividend when a multiple of the divisor is taken off. -/
structure IsRemainder (dividend divisor m : Int) : Prop where
  exists_quotient : ∃ q, dividend = q * divisor + m
  natAbs_lt : m.natAbs < divisor.natAbs
  sign : m = 0 ∨ m.sign = dividend.sign

namespace IsRemainder

variable {dividend divisor m n : Int}

/-- Two remainders have no opposite signs, so that they lie less than the divisor apart. -/
theorem natAbs_sub_lt (hm : IsRemainder dividend divisor m) (hn : IsRemainder dividend divisor n) :
    (m - n).natAbs < divisor.natAbs := by
  have hmlt := hm.natAbs_lt
  have hnlt := hn.natAbs_lt
  rcases hm.sign with rfl | hmsign
  · omega
  rcases hn.sign with rfl | hnsign
  · omega
  rcases Int.lt_trichotomy dividend 0 with hneg | hzero | hpos
  · rw [Int.sign_eq_neg_one_of_neg hneg, Int.sign_eq_neg_one_iff_neg] at hmsign hnsign
    omega
  · rw [hzero, Int.sign_zero, Int.sign_eq_zero_iff_zero] at hmsign hnsign
    omega
  · rw [Int.sign_eq_one_of_pos hpos, Int.sign_eq_one_iff_pos] at hmsign hnsign
    omega

/-- There is only one remainder. -/
theorem eq (hm : IsRemainder dividend divisor m) (hn : IsRemainder dividend divisor n) : m = n := by
  obtain ⟨p, hp⟩ := hm.exists_quotient
  obtain ⟨q, hq⟩ := hn.exists_quotient
  have hdvd : divisor ∣ m - n :=
    ⟨q - p, by linarith [mul_comm divisor (q - p), sub_mul q p divisor]⟩
  exact Int.sub_eq_zero.1 (Int.eq_zero_of_dvd_of_natAbs_lt_natAbs hdvd (hm.natAbs_sub_lt hn))

end IsRemainder

/-- Truncated division leaves a remainder. -/
theorem isRemainder_tmod (dividend : Int) {divisor : Int} (h : divisor ≠ 0) :
    IsRemainder dividend divisor (dividend.tmod divisor) where
  exists_quotient := ⟨dividend.tdiv divisor, (Int.tdiv_mul_add_tmod dividend divisor).symm⟩
  natAbs_lt := by
    rw [Int.natAbs_tmod]
    exact Nat.mod_lt _ (Int.natAbs_pos.2 h)
  sign := by
    rcases Int.lt_or_le dividend 0 with hneg | hpos
    · have hnonneg := Int.tmod_nonneg divisor (Int.neg_nonneg_of_nonpos hneg.le)
      rw [Int.neg_tmod] at hnonneg
      rw [Int.sign_eq_neg_one_of_neg hneg, Int.sign_eq_neg_one_iff_neg]
      omega
    · have hnonneg := Int.tmod_nonneg divisor hpos
      by_cases hzero : dividend.tmod divisor = 0
      · exact .inl hzero
      · have hne : dividend ≠ 0 := fun h => hzero (by rw [h, Int.zero_tmod])
        right
        rw [Int.sign_eq_one_of_pos (by omega), Int.sign_eq_one_of_pos (by omega)]

/-- Where there is a remainder, the quotient fits 64 bits. -/
theorem fitsInt64_tdiv {dividend divisor : Int} (hdividend : FitsInt64 dividend)
    (h : ¬ NoRemainder dividend divisor) : FitsInt64 (dividend.tdiv divisor) := by
  rw [NoRemainder, not_or, not_and] at h
  obtain ⟨hzero, hleast⟩ := h
  obtain ⟨hlower, hupper⟩ := hdividend
  rw [minInt64] at hlower hleast
  rw [maxInt64] at hupper
  rw [FitsInt64, minInt64, maxInt64]
  by_cases hminus : divisor = -1
  · rw [hminus, Int.tdiv_neg, Int.tdiv_one]
    omega
  · by_cases hone : divisor = 1
    · rw [hone, Int.tdiv_one]
      omega
    · -- any other divisor halves the dividend at least
      have hhalf : (dividend.tdiv divisor).natAbs ≤ dividend.natAbs / 2 := by
        rw [Int.natAbs_tdiv]
        exact Nat.div_le_div_left (by omega) (by decide)
      omega

namespace Term

/-- The remainder of any two doubles.  Of the 64-bit integers that stand for them it does not exist
just where the divisor is zero or the quotient would not fit, and then the error shows both.
Elsewhere the quotient fits, and the value is the double of what the division leaves: one integer
and no other is less than the divisor, has the sign of the dividend, and differs from it by a
multiple of the divisor. -/
theorem eval_mod_of_doubles {scope : Scope} {strict : Bool} {left right : Term}
    {draws draws' draws'' : Draws} {x y : Float}
    (hleft : left.eval scope strict draws = (.ok x, draws'))
    (hright : right.eval scope strict draws' = (.ok y, draws'')) :
    let dividend := toInt64 (roundHalfUp x)
    let divisor := toInt64 (roundHalfUp y)
    (RoundsTo x dividend ∧ FitsInt64 dividend) ∧ (RoundsTo y divisor ∧ FitsInt64 divisor) ∧
      ((binary .mod left right).eval scope strict draws
        = (.error (.invalidModulo dividend divisor), draws'') ↔
          divisor = 0 ∨ (dividend = minInt64 ∧ divisor = -1)) ∧
      (¬ (divisor = 0 ∨ (dividend = minInt64 ∧ divisor = -1)) →
        ∃ m, (binary .mod left right).eval scope strict draws = (.ok (ofInt m), draws'') ∧
          IsRemainder dividend divisor m ∧ (∀ n, IsRemainder dividend divisor n → n = m) ∧
          ∃ q, FitsInt64 q ∧ dividend = q * divisor + m) := by
  intro dividend divisor
  have hfits := Double.fitsInt64_toInt64 (roundHalfUp x)
  refine ⟨⟨Double.roundsTo_toInt64 x, hfits⟩,
    ⟨Double.roundsTo_toInt64 y, Double.fitsInt64_toInt64 _⟩, ?_, ?_⟩
  · rw [eval_mod hleft hright]
    refine ⟨fun herror => Classical.byContradiction fun hsome => ?_, fun hnone => ?_⟩
    · rw [modulo_of_not_noRemainder rfl rfl hsome] at herror
      cases herror
    · rw [modulo_of_noRemainder rfl rfl hnone]
  · intro hsome
    have hremainder : IsRemainder dividend divisor (dividend.tmod divisor) :=
      isRemainder_tmod dividend fun hzero => hsome (.inl hzero)
    refine ⟨dividend.tmod divisor, ?_, hremainder, fun n hn => hn.eq hremainder,
      dividend.tdiv divisor, fitsInt64_tdiv hfits hsome,
      (Int.tdiv_mul_add_tmod dividend divisor).symm⟩
    rw [eval_mod hleft hright, modulo_of_not_noRemainder rfl rfl hsome]

/-- Of negative infinity and `1e300`, which go to the bounds, minus one is left. -/
theorem eval_mod_of_doubles_infinity :
    (binary .mod (number (Double.ofMagnitude true Double.infinityMagnitude)) (number 1e300)).eval
      .empty true (.cycle []) = (.ok (ofInt (-1)), .cycle []) := by
  have hx :
      toInt64 (roundHalfUp (Double.ofMagnitude true Double.infinityMagnitude)) = minInt64 := by
    decide +kernel
  have hy : toInt64 (roundHalfUp 1e300) = maxInt64 := by decide +kernel
  obtain ⟨-, -, -, hvalue⟩ := @eval_mod_of_doubles .empty true
    (number (Double.ofMagnitude true Double.infinityMagnitude)) (number 1e300) (.cycle [])
    (.cycle []) (.cycle []) _ _ rfl rfl
  rw [hx, hy] at hvalue
  obtain ⟨m, heval, -, hunique, -⟩ := hvalue (by decide)
  have hminus : IsRemainder minInt64 maxInt64 (-1) := ⟨⟨-1, by decide⟩, by decide, .inr (by decide)⟩
  rw [heval, hunique (-1) hminus]

end Term

end LengthFormula
