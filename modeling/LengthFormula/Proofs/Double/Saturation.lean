import LengthFormula.Proofs.Double.Negation
import LengthFormula.Proofs.Double.Values
import LengthFormula.Proofs.Double.WholeNumbers

/-!
# Doubles as 64-bit integers

An operand of a remainder is rounded half up and then taken as a 64-bit integer.  The rounded double
is whole for every finite operand (`Double.isIntegral_roundHalfUp`), so that nothing is cut off by
the second step; what lies beyond 64 bits, infinities included, goes to a bound, and what is no
number goes to zero (`Double.roundsTo_toInt64`).
-/

namespace LengthFormula.Double

open Float.Model
open Float.Model.UnpackedFloat

/-! ## Sums with infinities and with what is no number -/

theorem exponent_eq_of_le {x : Float} {sign : Sign} {exponent : BitVec 11} {mantissa : BitVec 52}
    (hb : x.toBits.toBitVec = packComponents .binary64 sign exponent mantissa)
    (h : infinityMagnitude ≤ magnitude x) : exponent = -1#11 := by
  have hexponent := exponent.isLt
  have hmantissa := mantissa.isLt
  have hones : (-1#11).toNat = 2047 := rfl
  rw [magnitude_eq_fields hb, infinityMagnitude] at h
  apply BitVec.eq_of_toNat_eq
  rw [hones]
  omega

theorem unpack_of_isNaN {x : Float} (h : isNaN x = true) :
    UnpackedFloat.unpack .binary64 x.toBits.toBitVec = .notANumber := by
  obtain ⟨sign, exponent, mantissa, hb⟩ := exists_packComponents x.toBits.toBitVec
  have hlt : infinityMagnitude < magnitude x := of_decide_eq_true h
  have hones := exponent_eq_of_le hb hlt.le
  rw [hb]
  refine unpack_packComponents_nan hones ?_
  rintro rfl
  subst hones
  rw [magnitude_eq_fields hb] at hlt
  exact absurd hlt (by decide)

theorem isNaN_of_toBits {x : Float} (h : x.toBits.toBitVec = packedNaN .binary64) :
    isNaN x = true := by
  rw [isNaN, magnitude, ← UInt64.toNat_toBitVec, h]
  decide

/-- A sum with what is no number is none. -/
theorem isNaN_add {x : Float} (h : isNaN x = true) (y : Float) : isNaN (x + y) = true := by
  apply isNaN_of_toBits
  show UnpackedFloat.pack .binary64 (UnpackedFloat.add .binary64
    (UnpackedFloat.unpack .binary64 x.toBits.toBitVec) _) = _
  rw [unpack_of_isNaN h]
  rfl

theorem exists_of_isInfinite {x : Float} (h : isInfinite x = true) :
    ∃ sign, x.toBits.toBitVec = packedInfinity .binary64 sign ∧
      UnpackedFloat.unpack .binary64 x.toBits.toBitVec = .infinity sign := by
  obtain ⟨sign, exponent, mantissa, hb⟩ := exists_packComponents x.toBits.toBitVec
  have hmagnitude : magnitude x = infinityMagnitude := beq_iff_eq.1 h
  have hones := exponent_eq_of_le hb hmagnitude.ge
  subst hones
  have hmantissa : mantissa = 0#52 := mantissa_eq_zero_of_le hb hmagnitude.le rfl
  subst hmantissa
  refine ⟨sign, hb, ?_⟩
  rw [hb]
  unfold UnpackedFloat.unpack
  simp only [unpackMantissa_packComponents, unpackExponent_packComponents,
    unpackSign_packComponents, Sign.ofBitVec_toBitVec, if_true]

/-- An infinity stays what it is when a finite double is added. -/
theorem add_of_isInfinite {x y : Float} (hx : isInfinite x = true) (hy : isFinite y = true) :
    x + y = x := by
  obtain ⟨sign, hbits, hunpack⟩ := exists_of_isInfinite hx
  apply Float.toBits_inj.1
  show UInt64.ofBitVec (UnpackedFloat.pack .binary64 (UnpackedFloat.add .binary64
    (UnpackedFloat.unpack .binary64 x.toBits.toBitVec)
    (UnpackedFloat.unpack .binary64 y.toBits.toBitVec))) = x.toBits
  have hadd : UnpackedFloat.add .binary64 (.infinity sign)
      (UnpackedFloat.unpack .binary64 y.toBits.toBitVec) = .infinity sign := by
    have hdenotes := denotes_unpack hy
    generalize signedUnits y = z at hdenotes
    generalize UnpackedFloat.unpack .binary64 y.toBits.toBitVec = g at hdenotes ⊢
    cases hdenotes <;> rfl
  have hpack : UnpackedFloat.pack .binary64 (.infinity sign) = x.toBits.toBitVec := hbits.symm
  rw [hunpack, hadd, hpack]

/-! ## Floors are whole -/

/-- A double with a fractional part lies below `2 ^ 52`. -/
theorem wholePart_lt_of_hasFraction {x : Float} (h : hasFraction x = true) :
    wholePart x < 2 ^ 52 := by
  obtain ⟨m, e, hnormal, hk⟩ := exists_isNormal (magnitude x)
  have hunits : units x = m * 2 ^ e := by rw [units, hk, unitsOf_of_isNormal hnormal]
  obtain ⟨p, hp, hhalf, hone⟩ := unitsPerHalf_eq_two_pow
  have hpow : 2 ^ (p + 1) = 2 * 2 ^ p := Nat.pow_succ'
  have he : e ≤ p := by
    by_contra hlarge
    obtain ⟨t, rfl⟩ := Nat.exists_eq_add_of_le (Nat.not_le.1 hlarge)
    refine bne_iff_ne.1 h ?_
    rw [hunits, hone, Nat.pow_add, ← Nat.mul_assoc, Nat.mul_right_comm, Nat.mul_mod_left]
  rw [wholePart, Nat.div_lt_iff_lt_mul unitsPerOne_pos, hunits, hone, hpow]
  calc m * 2 ^ e < 2 ^ 53 * 2 ^ e := Nat.mul_lt_mul_of_pos_right hnormal.1 (Nat.two_pow_pos e)
    _ ≤ 2 ^ 53 * 2 ^ p := Nat.mul_le_mul_left _ (Nat.pow_le_pow_right (by decide) he)
    _ = 2 ^ 52 * (2 * 2 ^ p) := by rw [← Nat.mul_assoc]

/-- Whole numbers of 53 bits are doubles. -/
theorem withSignOf_exact (x : Float) {n : Nat} (hn : n < 2 ^ 53) :
    isFinite (withSignOf x n) = true ∧ units (withSignOf x n) = n * unitsPerOne ∧
      isNegative (withSignOf x n) = isNegative x := by
  obtain ⟨p, hp, hone⟩ := unitsPerOne_eq_two_pow
  have hbound : (p + 2) * 2 ^ 52 ≤ 2047 * 2 ^ 52 := by omega
  obtain ⟨k, hk, hunits⟩ := exists_unitsOf_eq p hn
  have hk : k < infinityMagnitude := Nat.lt_of_lt_of_le hk hbound
  rw [← hone] at hunits
  have hmagnitude : nearestMagnitude n 1 = k :=
    nearestMagnitude_of_unitsOf Nat.one_pos hk (by rw [Nat.mul_one, hunits])
  rw [withSignOf, nearest, hmagnitude]
  exact ⟨isFinite_ofMagnitude _ hk, (units_ofMagnitude _ hk).trans hunits,
    isNegative_ofMagnitude _ hk⟩

theorem isIntegral_withSignOf (x : Float) {n : Nat} (hn : n < 2 ^ 53) :
    isIntegral (withSignOf x n) = true := by
  obtain ⟨hfinite, hunits, -⟩ := withSignOf_exact x hn
  exact isIntegral_of_units hfinite hunits

/-- The floor of a finite double is whole. -/
theorem isIntegral_floor {x : Float} (h : isFinite x = true) : isIntegral (floor x) = true := by
  cases hfraction : hasFraction x with
  | false =>
    have hwhole := isIntegral_of_isFinite h hfraction
    rwa [floor_of_isIntegral hwhole]
  | true =>
    have hlt := wholePart_lt_of_hasFraction hfraction
    rw [floor, h, hfraction, Bool.and_self, if_pos rfl]
    apply isIntegral_withSignOf
    split <;> omega

theorem floor_of_not_isFinite {x : Float} (h : isFinite x = false) : floor x = x := by
  rw [floor, h, Bool.false_and, if_neg Bool.false_ne_true]

/-! ## One half more -/

/-- A number of `p` bits is rounded to a double of not many more. -/
theorem roundedMagnitude_le {n p : Nat} (h : n < 2 ^ p) :
    roundedMagnitude n 1 ≤ (p + 2) * 2 ^ 52 := by
  have hle := roundHalfEven_le n (2 ^ droppedBits n)
  have hlt := div_two_pow_droppedBits_lt n
  have hdropped : droppedBits n ≤ p := by
    rw [droppedBits]
    rcases Nat.eq_zero_or_pos n with rfl | hpos
    · simp
    · have := (Nat.log2_lt (Nat.ne_of_gt hpos)).2 h
      omega
  have hmagnitude : roundedMagnitude n 1
      = droppedBits n * 2 ^ 52 + roundHalfEven n (2 ^ droppedBits n) := by
    simp only [roundedMagnitude, Nat.div_one, Nat.one_mul]
  rw [hmagnitude]
  omega

/-- Where there is a fractional part, one half more is far from infinity. -/
theorem isFinite_add_half {x : Float} (hx : isFinite x = true) (hfraction : hasFraction x = true) :
    isFinite (x + 0.5) = true := by
  by_cases hzero : signedUnits x + signedUnits 0.5 = 0
  · have hhalf : isFinite (-0.5) = true := by decide +kernel
    have hunits : signedUnits (-0.5) = -unitsPerHalf := by decide +kernel
    rw [signedUnits_half] at hzero
    have hpos := unitsPerHalf_pos
    have hx : x = -0.5 := eq_of_signedUnits_eq hx hhalf (by omega) (by omega)
    rw [hx]
    decide +kernel
  · obtain ⟨p, hp, hhalf, hone⟩ := unitsPerHalf_eq_two_pow
    have hlt := wholePart_lt_of_hasFraction hfraction
    rw [wholePart, Nat.div_lt_iff_lt_mul unitsPerOne_pos] at hlt
    have hsum : (signedUnits x + signedUnits 0.5).natAbs < 2 ^ (p + 55) := by
      have habs := natAbs_signedUnits x
      have hle := Int.natAbs_add_le (signedUnits x) (signedUnits 0.5)
      rw [signedUnits_half, Int.natAbs_natCast, habs] at hle
      have hpow : 2 ^ (p + 55) = 2 ^ 55 * 2 ^ p := by rw [Nat.add_comm, Nat.pow_add]
      rw [unitsPerOne_eq, hhalf] at hlt
      rw [signedUnits_half, hpow, hhalf]
      rw [hhalf] at hle
      have := Nat.two_pow_pos p
      omega
    have hmagnitude := roundedMagnitude_le hsum
    rw [add_eq_nearest hx isFinite_half hzero, nearest, nearestMagnitude_unitsPerOne]
    apply isFinite_ofMagnitude
    refine Nat.lt_of_le_of_lt (Nat.min_le_left _ _) ?_
    rw [infinityMagnitude]
    omega

/-! ## Rounding half up -/

theorem isIntegral_roundHalfUp {x : Float} (h : isFinite x = true) :
    isIntegral (roundHalfUp x) = true := by
  cases hfraction : hasFraction x with
  | false => exact (roundHalfUp_of_isIntegral (isIntegral_of_isFinite h hfraction)).1
  | true => exact isIntegral_floor (isFinite_add_half h hfraction)

theorem roundHalfUp_of_isInfinite {x : Float} (h : isInfinite x = true) : roundHalfUp x = x := by
  rw [roundHalfUp, add_of_isInfinite h isFinite_half,
    floor_of_not_isFinite (isFinite_eq_false_of_isInfinite h)]

theorem isNaN_roundHalfUp {x : Float} (h : isNaN x = true) : isNaN (roundHalfUp x) = true := by
  have hnan := isNaN_add h 0.5
  rwa [roundHalfUp, floor_of_not_isFinite (isFinite_eq_false_of_isNaN hnan)]

/-! ## The integer of an operand -/

/-- The integer fits 64 bits. -/
def FitsInt64 (n : Int) : Prop := minInt64 ≤ n ∧ n ≤ maxInt64

instance (n : Int) : Decidable (FitsInt64 n) := inferInstanceAs (Decidable (_ ∧ _))

theorem fitsInt64_clampInt64 (n : Int) : FitsInt64 (clampInt64 n) := by
  rw [clampInt64, FitsInt64, minInt64, maxInt64]
  omega

/-- The 64-bit integer `n` stands for the operand `x`: rounded half up and brought into range, with
zero for what is no number. -/
structure RoundsTo (x : Float) (n : Int) : Prop where
  finite : isFinite x = true →
    isIntegral (roundHalfUp x) = true ∧ n = clampInt64 (toInt (roundHalfUp x))
  infinite : isInfinite x = true → n = if isNegative x then minInt64 else maxInt64
  nan : isNaN x = true → n = 0

theorem roundsTo_toInt64 (x : Float) : RoundsTo x (toInt64 (roundHalfUp x)) where
  finite := by
    intro h
    have hintegral := isIntegral_roundHalfUp h
    have hfinite := isFinite_of_isIntegral hintegral
    have hnan := isNaN_eq_false_of_isFinite hfinite
    have hinfinite := isInfinite_eq_false_of_isFinite hfinite
    refine ⟨hintegral, ?_⟩
    rw [toInt64, hnan, hinfinite, if_neg Bool.false_ne_true, if_neg Bool.false_ne_true]
  infinite := by
    intro h
    have hnan := isNaN_eq_false_of_isInfinite h
    rw [roundHalfUp_of_isInfinite h, toInt64, hnan, h, if_neg Bool.false_ne_true, if_pos rfl]
  nan := by
    intro h
    rw [toInt64, isNaN_roundHalfUp h, if_pos rfl]

theorem fitsInt64_toInt64 (x : Float) : FitsInt64 (toInt64 x) := by
  rw [toInt64]
  split
  · decide
  · split
    · split <;> decide
    · exact fitsInt64_clampInt64 _

end LengthFormula.Double
