import LengthFormula.Proofs.Double.Saturation

/-!
# Comparisons and differences of doubles

Finite doubles are compared by their values (`Double.compares_of_isFinite`), and a difference that
is the value of a double is exact (`Double.sub_exact`).  So the doubles that leave no fractional
part are the whole numbers (`Double.fract_beq_zero_iff`), and those of them that are in range are
the 64-bit integers, although the upper bound is not one itself (`Double.inInt64Range_iff`).
-/

namespace LengthFormula.Double

open Float.Model
open Float.Model.UnpackedFloat

/-! ## Comparisons -/

section Canonical

variable {m n j k : Nat}

/-- Of two mantissas of 53 bits the one with the larger exponent has the larger value. -/
theorem mul_two_pow_lt_of_lt (hm : IsNormal m k) (hn : IsNormal n j) (h : k < j) :
    m * 2 ^ k < n * 2 ^ j := by
  have hlarge : 2 ^ 52 ≤ n := hn.2.resolve_left (Nat.ne_of_gt (Nat.zero_lt_of_lt h))
  have hpow : 2 ^ (k + 1) = 2 * 2 ^ k := Nat.pow_succ'
  calc m * 2 ^ k < 2 ^ 53 * 2 ^ k := Nat.mul_lt_mul_of_pos_right hm.1 (Nat.two_pow_pos k)
    _ = 2 ^ 52 * 2 ^ (k + 1) := by rw [hpow, ← Nat.mul_assoc]
    _ ≤ n * 2 ^ j := Nat.mul_le_mul hlarge (Nat.pow_le_pow_right Nat.two_pos h)

/-- So they are compared by their exponents first. -/
theorem compares_of_isNormal (hm : IsNormal m k) (hn : IsNormal n j) :
    ((compare ((k : Int) - 1074) ((j : Int) - 1074)).then (compare m n)).Compares
      ((m * 2 ^ k : Nat) : Int) ((n * 2 ^ j : Nat) : Int) := by
  rcases Nat.lt_trichotomy k j with hlt | rfl | hgt
  · rw [compare_lt_iff_lt.2 (by omega : (k : Int) - 1074 < (j : Int) - 1074)]
    exact Int.ofNat_lt.2 (mul_two_pow_lt_of_lt hm hn hlt)
  · rw [compare_eq_iff_eq.2 rfl, Ordering.eq_then]
    have hpow := Nat.two_pow_pos k
    rcases Nat.lt_trichotomy m n with hlt | rfl | hgt
    · rw [compare_lt_iff_lt.2 hlt]
      exact Int.ofNat_lt.2 (Nat.mul_lt_mul_of_pos_right hlt hpow)
    · rw [compare_eq_iff_eq.2 rfl]
      exact rfl
    · rw [compare_gt_iff_gt.2 hgt]
      exact Int.ofNat_lt.2 (Nat.mul_lt_mul_of_pos_right hgt hpow)
  · rw [compare_gt_iff_gt.2 (by omega : (k : Int) - 1074 > (j : Int) - 1074)]
    exact Int.ofNat_lt.2 (mul_two_pow_lt_of_lt hn hm hgt)

end Canonical

theorem compares_neg {o : Ordering} {a b : Int} (h : o.Compares a b) :
    o.swap.Compares (-a) (-b) := by
  cases o with
  | lt => exact Int.neg_lt_neg h
  | eq => exact congrArg _ h
  | gt => exact Int.neg_lt_neg h

/-- Unpacked numbers are compared by their values. -/
theorem compares_of_denotes {f g : UnpackedFloat} {z w : Int} (hf : Denotes f z)
    (hg : Denotes g w) : ∃ o, f.compare g = some o ∧ o.Compares z w := by
  have hpositive : ∀ {m k : Nat}, 0 < m → 0 < ((m * 2 ^ k : Nat) : Int) :=
    fun h => Int.natCast_pos.2 (Nat.mul_pos h (Nat.two_pow_pos _))
  cases hf with
  | zero s =>
    cases hg with
    | zero t => exact ⟨.eq, rfl, rfl⟩
    | finite t hn =>
      cases t with
      | positive => exact ⟨.lt, rfl, hpositive hn⟩
      | negative => exact ⟨.gt, rfl, Int.neg_neg_of_pos (hpositive hn)⟩
  | finite s hm hnormal he =>
    cases hg with
    | zero t =>
      cases s with
      | positive => exact ⟨.gt, rfl, hpositive hm⟩
      | negative => exact ⟨.lt, rfl, Int.neg_neg_of_pos (hpositive hm)⟩
    | finite t hn hnormal' he' =>
      subst he he'
      have hcompares := compares_of_isNormal hnormal hnormal'
      cases s with
      | positive =>
        cases t with
        | positive => exact ⟨_, rfl, hcompares⟩
        | negative => exact ⟨.gt, rfl, (Int.neg_neg_of_pos (hpositive hn)).trans (hpositive hm)⟩
      | negative =>
        cases t with
        | positive => exact ⟨.lt, rfl, (Int.neg_neg_of_pos (hpositive hm)).trans (hpositive hn)⟩
        | negative => exact ⟨_, rfl, compares_neg hcompares⟩

section Finite

variable {x y : Float}

/-- Finite doubles are compared by their values, so that the two zeros are equal. -/
theorem compares_of_isFinite (hx : isFinite x = true) (hy : isFinite y = true) :
    ∃ o, (UnpackedFloat.unpack .binary64 x.toBits.toBitVec).compare
        (UnpackedFloat.unpack .binary64 y.toBits.toBitVec) = some o ∧
      o.Compares (signedUnits x) (signedUnits y) :=
  compares_of_denotes (denotes_unpack hx) (denotes_unpack hy)

theorem lt_iff (hx : isFinite x = true) (hy : isFinite y = true) :
    x < y ↔ signedUnits x < signedUnits y := by
  obtain ⟨o, hcompare, ho⟩ := compares_of_isFinite hx hy
  show decide (UnpackedFloat.lt (UnpackedFloat.unpack .binary64 x.toBits.toBitVec)
    (UnpackedFloat.unpack .binary64 y.toBits.toBitVec) = true) = true ↔ _
  rw [decide_eq_true_eq, UnpackedFloat.lt, hcompare, beq_iff_eq, Option.some.injEq, ho.eq_lt]

theorem le_iff (hx : isFinite x = true) (hy : isFinite y = true) :
    x ≤ y ↔ signedUnits x ≤ signedUnits y := by
  obtain ⟨o, hcompare, ho⟩ := compares_of_isFinite hx hy
  show decide (UnpackedFloat.le (UnpackedFloat.unpack .binary64 x.toBits.toBitVec)
    (UnpackedFloat.unpack .binary64 y.toBits.toBitVec) = true) = true ↔ _
  rw [decide_eq_true_eq, UnpackedFloat.le, hcompare, Option.any_some, Ordering.isLE_iff_ne_gt]
  exact ho.ne_gt

theorem beq_iff (hx : isFinite x = true) (hy : isFinite y = true) :
    (x == y) = true ↔ signedUnits x = signedUnits y := by
  obtain ⟨o, hcompare, ho⟩ := compares_of_isFinite hx hy
  show UnpackedFloat.beq (UnpackedFloat.unpack .binary64 x.toBits.toBitVec)
    (UnpackedFloat.unpack .binary64 y.toBits.toBitVec) = true ↔ _
  rw [UnpackedFloat.beq, hcompare, beq_iff_eq, Option.some.injEq, ho.eq_eq]

/-- What is no number is equal to nothing. -/
theorem beq_eq_false_of_isNaN (hx : isNaN x = true) : (x == y) = false := by
  show UnpackedFloat.beq (UnpackedFloat.unpack .binary64 x.toBits.toBitVec) _ = false
  rw [unpack_of_isNaN hx]
  rfl

end Finite

/-! ## Differences -/

section Differences

variable {x y : Float}

/-- A difference of doubles is one of unpacked numbers. -/
theorem toBitVec_toBits_sub (x y : Float) :
    (x - y).toBits.toBitVec = UnpackedFloat.pack .binary64 (UnpackedFloat.sub .binary64
      (UnpackedFloat.unpack .binary64 x.toBits.toBitVec)
      (UnpackedFloat.unpack .binary64 y.toBits.toBitVec)) := rfl

theorem apply_neg_sign (s : Sign) (n : Int) : (-s).apply n = -(s.apply n) := by
  cases s with
  | positive => rfl
  | negative => exact (Int.neg_neg n).symm

theorem sub_unpacked (f g : UnpackedFloat) :
    UnpackedFloat.sub .binary64 f g = UnpackedFloat.add .binary64 f g.neg := by
  cases f <;> cases g <;>
    simp only [UnpackedFloat.sub, UnpackedFloat.add, UnpackedFloat.neg, apply_neg_sign,
      Int.sub_eq_add_neg]

/-- A difference is the sum with the negation. -/
theorem sub_eq_add_neg (x y : Float) : x - y = x + -y := by
  have hneg := unpack_pack_neg_unpack y.toBits.toBitVec
  apply Float.toBits_inj.1
  apply UInt64.toBitVec_inj.1
  rw [toBitVec_toBits_sub, sub_unpacked, ← hneg]
  rfl

theorem isFinite_neg (h : isFinite x = true) : isFinite (-x) = true := by
  rw [← ofMagnitude_magnitude h, neg_ofMagnitude _ (magnitude_lt h)]
  exact isFinite_ofMagnitude _ (magnitude_lt h)

theorem signedUnits_neg (h : isFinite x = true) : signedUnits (-x) = -signedUnits x := by
  have hk := magnitude_lt h
  have hneg : -x = ofMagnitude (!isNegative x) (magnitude x) := by
    rw [← neg_ofMagnitude _ hk, ofMagnitude_magnitude h]
  rw [hneg, signedUnits, signedUnits, isNegative_ofMagnitude _ hk, units_ofMagnitude _ hk, ← units]
  cases isNegative x with
  | false => rfl
  | true => exact (Int.neg_neg _).symm

/-- A difference that a double is worth is exact. -/
theorem sub_exact {k : Nat} (hx : isFinite x = true) (hy : isFinite y = true)
    (hk : k < infinityMagnitude) (hunits : (signedUnits x - signedUnits y).natAbs = unitsOf k)
    (hne : signedUnits x ≠ signedUnits y) :
    isFinite (x - y) = true ∧ signedUnits (x - y) = signedUnits x - signedUnits y := by
  have hsum : signedUnits x + signedUnits (-y) = signedUnits x - signedUnits y := by
    rw [signedUnits_neg hy, Int.sub_eq_add_neg]
  have hzero : signedUnits x - signedUnits y ≠ 0 := sub_ne_zero.2 hne
  have hnearest := add_eq_nearest hx (isFinite_neg hy) (hsum ▸ hzero)
  rw [hsum, nearest, nearestMagnitude_of_unitsOf unitsPerOne_pos hk (by rw [hunits]),
    ← sub_eq_add_neg] at hnearest
  rw [hnearest]
  refine ⟨isFinite_ofMagnitude _ hk, ?_⟩
  rw [signedUnits, isNegative_ofMagnitude _ hk, units_ofMagnitude _ hk, ← hunits]
  by_cases hneg : signedUnits x - signedUnits y < 0
  · rw [decide_eq_true hneg, if_pos rfl]
    omega
  · rw [decide_eq_false hneg, if_neg Bool.false_ne_true]
    omega

/-- Taking a number from itself leaves the positive zero. -/
theorem sub_self_of_denotes {f : UnpackedFloat} {z : Int} (h : Denotes f z) :
    UnpackedFloat.sub .binary64 f f = .zero .positive := by
  cases h with
  | zero s => cases s <;> rfl
  | finite s hpos hnormal he =>
    simp only [UnpackedFloat.sub, Int.sub_self]
    rfl

theorem sub_self_of_isFinite (h : isFinite x = true) : x - x = 0.0 := by
  apply Float.toBits_inj.1
  apply UInt64.toBitVec_inj.1
  rw [toBitVec_toBits_sub, sub_self_of_denotes (denotes_unpack h)]
  decide +kernel

/-- Taking an infinity from itself leaves nothing that is a number. -/
theorem isNaN_sub_self (h : isFinite x = false) : isNaN (x - x) = true := by
  apply isNaN_of_toBits
  rw [toBitVec_toBits_sub]
  rcases isFinite_or_isInfinite_or_isNaN x with hfinite | hinfinite | hnan
  · rw [h] at hfinite
    cases hfinite
  · obtain ⟨sign, -, hunpack⟩ := exists_of_isInfinite hinfinite
    rw [hunpack]
    cases sign <;> rfl
  · rw [unpack_of_isNaN hnan]
    rfl

end Differences

/-! ## Fractional parts -/

section Fractions

variable {x : Float}

/-- Cutting off the fraction of a finite double is exact and keeps the sign. -/
theorem trunc_exact (h : isFinite x = true) :
    isFinite (trunc x) = true ∧ units (trunc x) = wholePart x * unitsPerOne ∧
      isNegative (trunc x) = isNegative x := by
  cases hfraction : hasFraction x with
  | false =>
    have hintegral := isIntegral_of_isFinite h hfraction
    rw [trunc_of_isIntegral hintegral, ← natAbs_toInt]
    exact ⟨h, units_of_isIntegral hintegral, rfl⟩
  | true =>
    have hlt := wholePart_lt_of_hasFraction hfraction
    rw [trunc, h, hfraction, Bool.and_self, if_pos rfl]
    exact withSignOf_exact x (Nat.lt_trans hlt (by decide))

/-- What is left of a finite double behind its whole part is exact. -/
theorem fract_exact (h : isFinite x = true) :
    isFinite (fract x) = true ∧ units (fract x) = units x % unitsPerOne := by
  obtain ⟨hfinite, hunits, hnegative⟩ := trunc_exact h
  have hone : unitsOf (magnitude 1.0) = unitsPerOne := by decide +kernel
  obtain ⟨k, hk, hmod⟩ := exists_unitsOf_mod (magnitude_lt h)
    (by decide +kernel : magnitude 1.0 < infinityMagnitude)
  rw [hone, ← units] at hmod
  have hrest : (signedUnits x - signedUnits (trunc x)).natAbs = unitsOf k := by
    have hsplit := Nat.div_add_mod' (units x) unitsPerOne
    rw [hmod, signedUnits, signedUnits, hnegative, hunits, wholePart]
    generalize units x / unitsPerOne * unitsPerOne = whole at hsplit ⊢
    generalize units x % unitsPerOne = rest at hsplit ⊢
    generalize units x = all at hsplit ⊢
    split <;> omega
  rw [← hmod, fract]
  cases hfraction : hasFraction x with
  | false =>
    -- a sum of zero has no sign to round it with, so this difference is taken directly
    have hzero : isFinite 0.0 = true ∧ units 0.0 = 0 := by decide +kernel
    have htrunc := trunc_of_isIntegral (isIntegral_of_isFinite h hfraction)
    rw [htrunc, Int.sub_self] at hrest
    rw [htrunc, sub_self_of_isFinite h, ← hrest]
    exact hzero
  | true =>
    have hne : signedUnits x ≠ signedUnits (trunc x) := by
      intro heq
      rw [heq, Int.sub_self, hmod] at hrest
      exact bne_iff_ne.1 hfraction hrest.symm
    obtain ⟨hfract, hsigned⟩ := sub_exact h hfinite hk hrest hne
    exact ⟨hfract, by rw [← natAbs_signedUnits, hsigned, hrest]⟩

/-- The doubles that leave no fractional part are the whole numbers. -/
theorem fract_beq_zero_iff : (fract x == 0.0) = true ↔ isIntegral x = true := by
  cases hx : isFinite x with
  | true =>
    have hzero : isFinite 0.0 = true := by decide +kernel
    have hvalue : signedUnits 0.0 = 0 := by decide +kernel
    obtain ⟨hfract, hunits⟩ := fract_exact hx
    rw [beq_iff hfract hzero, hvalue, ← Int.natAbs_eq_zero, natAbs_signedUnits, hunits,
      isIntegral, hx, hasFraction]
    simp
  | false =>
    have htrunc : trunc x = x := by
      rw [trunc, hx, Bool.false_and, if_neg Bool.false_ne_true]
    rw [fract, htrunc, beq_eq_false_of_isNaN (isNaN_sub_self hx), isIntegral, hx, Bool.false_and]

/-- The whole numbers in range are the 64-bit integers. -/
theorem inInt64Range_iff (h : isIntegral x = true) :
    inInt64Range x = true ↔ FitsInt64 (toInt x) := by
  have hfinite := isFinite_of_isIntegral h
  have hlower : isFinite (ofInt minInt64) = true := by decide +kernel
  have hupper : isFinite (ofInt maxInt64) = true := by decide +kernel
  have hlowest : signedUnits (ofInt minInt64) = minInt64 * (unitsPerOne : Int) := by
    decide +kernel
  have hhighest : signedUnits (ofInt maxInt64) = (maxInt64 + 1) * (unitsPerOne : Int) := by
    decide +kernel
  have hone : (0 : Int) < unitsPerOne := Int.natCast_pos.2 unitsPerOne_pos
  rw [inInt64Range, Bool.and_eq_true, decide_eq_true_eq, decide_eq_true_eq,
    le_iff hlower hfinite, lt_iff hfinite hupper, hlowest, hhighest, signedUnits_of_isIntegral h,
    mul_le_mul_iff_left₀ hone, mul_lt_mul_iff_left₀ hone, Int.lt_add_one_iff, FitsInt64]

end Fractions

end LengthFormula.Double
