import LengthFormula.Proofs.Double.Bits
import LengthFormula.Proofs.Double.Nearest

/-!
# Sums of doubles

The sum of two finite doubles is the double nearest to the exact sum (`Double.add_eq_nearest`).

Addition brings both numbers to one exponent, adds their mantissas as integers and rounds the
result.  Rounding shifts bits out of the mantissa and keeps two residual bits for all of them;
`Residual` says which fraction such a mantissa stands for, so that rounding it is
`Double.roundHalfEven` of that fraction (`Residual.roundedMantissa`).
-/

namespace LengthFormula.Double

open Float.Model
open Float.Model.UnpackedFloat

/-! ## Residual bits -/

/-- The extended mantissa stands for `n / d`: its whole part, and where the rest lies relative to
zero and to one half. -/
structure Residual (em : ExtendedMantissa) (n d : Nat) : Prop where
  mantissa : em.mantissa = n / d
  roundBit : em.roundBit = true ↔ d ≤ 2 * (n % d)
  stickyBit : em.stickyBit = true ↔ n % d ≠ 0 ∧ 2 * (n % d) ≠ d

namespace Residual

variable {em : ExtendedMantissa} {n d : Nat}

/-- A mantissa that lost no bits. -/
theorem exact (n : Nat) : Residual (.ofMantissaAndAccuracy n .exact) n 1 where
  mantissa := (Nat.div_one n).symm
  roundBit := by simp [ExtendedMantissa.ofMantissaAndAccuracy, Nat.mod_one]
  stickyBit := by simp [ExtendedMantissa.ofMantissaAndAccuracy, Nat.mod_one]

/-- Shifting out a bit halves the fraction. -/
theorem shiftRightOne (hd : 0 < d) (h : Residual em n d) :
    Residual em.shiftRightOne n (d * 2) := by
  have hrest : n % (d * 2) = n % d + d * (n / d % 2) := Nat.mod_mul
  have hlt : n % d < d := Nat.mod_lt n hd
  have hbit : n / d % 2 = 0 ∨ n / d % 2 = 1 := Nat.mod_two_eq_zero_or_one _
  refine ⟨?_, ?_, ?_⟩
  · show em.mantissa / 2 = n / (d * 2)
    rw [h.mantissa, Nat.div_div_eq_div_mul]
  · show (em.mantissa % 2 != 0) = true ↔ _
    rw [h.mantissa, hrest]
    rcases hbit with hbit | hbit <;> rw [hbit] <;> simp <;> omega
  · show (em.roundBit || em.stickyBit) = true ↔ _
    rw [Bool.or_eq_true, h.roundBit, h.stickyBit, hrest]
    rcases hbit with hbit | hbit <;> rw [hbit] <;> omega

theorem shiftRight (hd : 0 < d) (h : Residual em n d) (s : Nat) :
    Residual (em >>> s) n (d * 2 ^ s) := by
  show Residual (s.repeat ExtendedMantissa.shiftRightOne em) n (d * 2 ^ s)
  induction s with
  | zero => simpa [Nat.repeat] using h
  | succ s ih =>
    rw [Nat.pow_succ, ← Nat.mul_assoc]
    exact shiftRightOne (Nat.mul_pos hd (Nat.two_pow_pos s)) ih

/-- Rounding by the residual bits is rounding the fraction. -/
theorem roundedMantissa (hd : 0 < d) (h : Residual em n d) :
    em.roundedMantissa = roundHalfEven n d := by
  obtain ⟨m, round, sticky⟩ := em
  obtain ⟨hm, hround, hsticky⟩ := h
  simp only at hm hround hsticky
  subst hm
  have hlt : n % d < d := Nat.mod_lt n hd
  have hbit : n / d % 2 = 0 ∨ n / d % 2 = 1 := Nat.mod_two_eq_zero_or_one _
  cases round <;> cases sticky <;>
    simp only [Bool.false_eq_true, false_iff, true_iff] at hround hsticky <;>
    simp only [ExtendedMantissa.roundedMantissa, ExtendedMantissa.accuracy,
      Accuracy.roundToNearestEven, roundHalfEven]
  · -- nothing was shifted out
    have hrest : n % d = 0 := by omega
    simp [hrest]
    omega
  · have hup : ¬ d < 2 * (n % d) := by omega
    have htie : ¬ 2 * (n % d) = d := by omega
    simp [hup, htie]
  · have htie : 2 * (n % d) = d := by omega
    rcases hbit with hbit | hbit <;> simp [htie, hbit]
  · have hup : d < 2 * (n % d) := by omega
    simp [hup]

end Residual

/-! ## Rounding to 53 bits -/

/-- A power of two lengthens a number by its exponent. -/
theorem log2_mul_two_pow {m : Nat} (hm : 0 < m) (k : Nat) : (m * 2 ^ k).log2 = m.log2 + k := by
  have hpos : m * 2 ^ k ≠ 0 := Nat.ne_of_gt (Nat.mul_pos hm (Nat.two_pow_pos k))
  obtain ⟨hlo, hhi⟩ := (Nat.log2_eq_iff (Nat.ne_of_gt hm)).1 rfl
  refine (Nat.log2_eq_iff hpos).2 ⟨?_, ?_⟩
  · rw [Nat.pow_add]
    exact Nat.mul_le_mul_right _ hlo
  · rw [Nat.add_right_comm, Nat.pow_add]
    exact Nat.mul_lt_mul_of_pos_right hhi (Nat.two_pow_pos k)

/-- Rounding aims at the exponent that leaves 53 bits. -/
theorem targetExponent_eq {m : Nat} (hm : 0 < m) (k : Nat) :
    Format.binary64.targetExponent (totalExponent m ((k : Int) - 1074))
      = (droppedBits (m * 2 ^ k) : Int) - 1074 := by
  have hmin : Format.binary64.minExponent = -1074 := rfl
  have hbits : Format.binary64.mantissaBits = 53 := rfl
  rw [Format.targetExponent, totalExponent, hmin, hbits, droppedBits, log2_mul_two_pow hm]
  omega

/-- Shifting to that exponent drops the bits in between. -/
theorem exists_shiftToTargetExponent {m k : Nat} (hm : 0 < m) (hk : k ≤ droppedBits (m * 2 ^ k)) :
    ∃ em, shiftToTargetExponent .binary64 m ((k : Int) - 1074) .exact
        = (em, (droppedBits (m * 2 ^ k) : Int) - 1074) ∧
      Residual em m (2 ^ (droppedBits (m * 2 ^ k) - k)) := by
  generalize hD : droppedBits (m * 2 ^ k) = D at hk
  have htarget := targetExponent_eq hm k
  rw [hD] at htarget
  have hshift : ((D : Int) - 1074 - ((k : Int) - 1074)).toNat = D - k := by omega
  have hexponent : (k : Int) - 1074 + ((D - k : Nat) : Int) = (D : Int) - 1074 := by omega
  have hresidual := (Residual.exact m).shiftRight Nat.one_pos (D - k)
  rw [Nat.one_mul] at hresidual
  refine ⟨_, ?_, hresidual⟩
  rw [shiftToTargetExponent, htarget, shiftToExponent, hshift, hexponent]

theorem div_le_roundHalfEven (n d : Nat) : n / d ≤ roundHalfEven n d := by
  rw [roundHalfEven]
  split <;> omega

theorem roundHalfEven_le (n d : Nat) : roundHalfEven n d ≤ n / d + 1 := by
  rw [roundHalfEven]
  split <;> omega

/-- What is left of a number has 53 bits at most. -/
theorem div_two_pow_droppedBits_lt (n : Nat) : n / 2 ^ droppedBits n < 2 ^ 53 := by
  rw [Nat.div_lt_iff_lt_mul (Nat.two_pow_pos _), ← Nat.pow_add]
  refine Nat.lt_of_lt_of_le (Nat.lt_log2_self) (Nat.pow_le_pow_right (by decide) ?_)
  rw [droppedBits]
  omega

/-- It has just as many where any bit was dropped. -/
theorem le_div_two_pow_droppedBits {n : Nat} (h : 0 < droppedBits n) :
    2 ^ 52 ≤ n / 2 ^ droppedBits n := by
  rw [droppedBits] at h
  have hlog : 52 + droppedBits n = n.log2 := by
    rw [droppedBits]
    omega
  have hn : n ≠ 0 := by
    rintro rfl
    exact absurd h (by decide)
  rw [Nat.le_div_iff_mul_le (Nat.two_pow_pos _), ← Nat.pow_add, hlog]
  exact Nat.log2_self_le hn

/-! ## The carry out of 53 bits -/

/-- A mantissa at an exponent as rounding leaves it: `2 ^ 53` is possible, one more than 53 bits
hold. -/
structure IsRounded (m k : Nat) : Prop where
  pos : 0 < m
  le : m ≤ 2 ^ 53
  lead : 0 < k → 2 ^ 52 ≤ m

theorem isRounded_roundHalfEven {n : Nat} (hn : 0 < n) :
    IsRounded (roundHalfEven n (2 ^ droppedBits n)) (droppedBits n) := by
  have hlo := div_le_roundHalfEven n (2 ^ droppedBits n)
  have hhi := roundHalfEven_le n (2 ^ droppedBits n)
  have hlead : 0 < droppedBits n → 2 ^ 52 ≤ roundHalfEven n (2 ^ droppedBits n) :=
    fun hdropped => Nat.le_trans (le_div_two_pow_droppedBits hdropped) hlo
  refine ⟨?_, Nat.le_trans hhi (div_two_pow_droppedBits_lt n), hlead⟩
  rcases Nat.eq_zero_or_pos (droppedBits n) with hzero | hdropped
  · rw [hzero, Nat.pow_zero, Nat.div_one] at hlo
    rw [hzero, Nat.pow_zero]
    exact Nat.lt_of_lt_of_le hn hlo
  · exact Nat.lt_of_lt_of_le (by decide) (hlead hdropped)

namespace IsRounded

variable {m k : Nat}

theorem droppedBits_eq (h : IsRounded m k) :
    (droppedBits (m * 2 ^ k) = k ∧ m < 2 ^ 53) ∨
      (droppedBits (m * 2 ^ k) = k + 1 ∧ m = 2 ^ 53) := by
  obtain ⟨hpos, hm, hk⟩ := h
  rw [droppedBits, log2_mul_two_pow hpos]
  rcases Nat.lt_or_eq_of_le hm with hlt | rfl
  · left
    have hlog : m.log2 < 53 := (Nat.log2_lt (Nat.ne_of_gt hpos)).2 hlt
    refine ⟨?_, hlt⟩
    rcases Nat.eq_zero_or_pos k with rfl | hkpos
    · omega
    · have := (Nat.le_log2 (Nat.ne_of_gt hpos)).2 (hk hkpos)
      omega
  · right
    rw [Nat.log2_two_pow]
    omega

/-- A second shift moves a carry from the mantissa into the exponent; magnitudes count on across
it. -/
theorem exists_carried (h : IsRounded m k) :
    ∃ (em : ExtendedMantissa) (j : Nat),
      shiftToTargetExponent .binary64 m ((k : Int) - 1074) .exact = (em, (j : Int) - 1074) ∧
        0 < em.mantissa ∧ IsNormal em.mantissa j ∧
          j * 2 ^ 52 + em.mantissa = k * 2 ^ 52 + m := by
  have hcarry := h.droppedBits_eq
  obtain ⟨em, hshift, hem⟩ := exists_shiftToTargetExponent (k := k) h.pos (by omega)
  generalize droppedBits (m * 2 ^ k) = j at hcarry hshift hem
  refine ⟨em, j, hshift, ?_⟩
  rw [hem.mantissa]
  rcases hcarry with ⟨rfl, hlt⟩ | ⟨rfl, rfl⟩
  · rw [Nat.sub_self, Nat.pow_zero, Nat.div_one]
    exact ⟨h.pos, ⟨hlt, (Nat.eq_zero_or_pos j).imp_right h.lead⟩, rfl⟩
  · rw [Nat.add_sub_cancel_left, IsNormal]
    omega

end IsRounded

/-! ## The bits of a rounded number -/

/-- The bits of a rounded number: its sign over its magnitude, which stops at infinity. -/
theorem toNat_pack_finite (s : Sign) {m k : Nat} (hpos : 0 < m) (h : IsNormal m k) :
    (UnpackedFloat.pack .binary64 (.finite s m ((k : Int) - 1074) hpos)).toNat
      = s.toBitVec.toNat * 2 ^ 63 + min (k * 2 ^ 52 + m) infinityMagnitude := by
  obtain ⟨hm, hk⟩ := h
  have hbiased : ((k : Int) - 1074 + 1023 + 52).toNat = k + 1 := by omega
  rw [infinityMagnitude]
  by_cases hlarge : 2 ^ 11 ≤ k + 1 + 1
  · have hpack : UnpackedFloat.pack .binary64 (.finite s m ((k : Int) - 1074) hpos)
        = packedInfinity .binary64 s := if_pos (by rw [← hbiased] at hlarge; exact hlarge)
    have hinfinity : (-1#11).toNat = 2047 := rfl
    rw [hpack, packedInfinity, toNat_packComponents, hinfinity]
    simp
    omega
  · have hpack : UnpackedFloat.pack .binary64 (.finite s m ((k : Int) - 1074) hpos)
        = if m.log2 + 1 = 53 then packComponents .binary64 s (.ofNat 11 (k + 1)) (.ofNat 52 m)
          else packComponents .binary64 s 0#11 (.ofNat 52 m) := by
      rw [← hbiased] at hlarge ⊢
      exact if_neg hlarge
    rw [hpack]
    by_cases hnormal : 2 ^ 52 ≤ m
    · have hlog : m.log2 + 1 = 53 := by
        rw [(Nat.log2_eq_iff (Nat.ne_of_gt hpos)).2 ⟨hnormal, hm⟩]
      rw [if_pos hlog, toNat_packComponents, BitVec.toNat_ofNat, BitVec.toNat_ofNat]
      omega
    · have hlog : ¬ m.log2 + 1 = 53 := by
        have := (Nat.log2_lt (Nat.ne_of_gt hpos)).2 (Nat.not_le.1 hnormal)
        omega
      rw [if_neg hlog, toNat_packComponents, BitVec.toNat_ofNat]
      simp
      omega

/-- Rounding a number of units and packing it gives the bits of the nearest magnitude. -/
theorem toNat_pack_roundWithAccuracy (s : Sign) {m k : Nat} (hm : 0 < m)
    (hk : k ≤ droppedBits (m * 2 ^ k)) :
    (UnpackedFloat.pack .binary64
        (roundWithAccuracy .binary64 s m ((k : Int) - 1074) .exact)).toNat
      = s.toBitVec.toNat * 2 ^ 63 + min (roundedMagnitude (m * 2 ^ k) 1) infinityMagnitude := by
  obtain ⟨em, hfirst, hem⟩ := exists_shiftToTargetExponent hm hk
  have hpos : 0 < m * 2 ^ k := Nat.mul_pos hm (Nat.two_pow_pos k)
  generalize hU : m * 2 ^ k = U at hk hfirst hem hpos
  have hrounded : em.roundedMantissa = roundHalfEven U (2 ^ droppedBits U) := by
    rw [hem.roundedMantissa (Nat.two_pow_pos _), ← roundHalfEven_mul m _ (Nat.two_pow_pos k), hU,
      ← Nat.pow_add, Nat.sub_add_cancel hk]
  have hmagnitude : roundedMagnitude U 1 = droppedBits U * 2 ^ 52 + em.roundedMantissa := by
    simp only [roundedMagnitude, Nat.div_one, Nat.one_mul, hrounded]
  have hisRounded : IsRounded em.roundedMantissa (droppedBits U) :=
    hrounded ▸ isRounded_roundHalfEven hpos
  obtain ⟨em', j, hsecond, hpos', hnormal, hsame⟩ := hisRounded.exists_carried
  rw [hmagnitude, ← hsame, ← toNat_pack_finite s hpos' hnormal, roundWithAccuracy, hfirst]
  dsimp only
  rw [hsecond]
  dsimp only
  rw [dif_neg (Nat.ne_of_gt hpos')]

/-- Rounding may take bits in as well as drop them. -/
theorem toNat_pack_round (s : Sign) {m : Nat} (hm : 0 < m) (k : Nat) :
    (UnpackedFloat.pack .binary64 (UnpackedFloat.round .binary64 s m ((k : Int) - 1074))).toNat
      = s.toBitVec.toNat * 2 ^ 63 + min (roundedMagnitude (m * 2 ^ k) 1) infinityMagnitude := by
  have htarget := targetExponent_eq hm k
  generalize hD : droppedBits (m * 2 ^ k) = D at htarget
  -- the mantissa takes in the bits by which the exponent lies above its target
  have hshift : ((k : Int) - 1074 - ((D : Int) - 1074)).toNat = k - D := by omega
  have hexponent : (k : Int) - 1074 - ((k - D : Nat) : Int) = ((min k D : Nat) : Int) - 1074 := by
    omega
  have hsame : m * 2 ^ (k - D) * 2 ^ min k D = m * 2 ^ k := by
    rw [Nat.mul_assoc, ← Nat.pow_add]
    congr 2
    omega
  rw [UnpackedFloat.round]
  dsimp only
  rw [htarget, decreaseExponent, hshift, hexponent, Nat.shiftLeft_eq]
  have hpos : 0 < m * 2 ^ (k - D) := Nat.mul_pos hm (Nat.two_pow_pos _)
  rw [toNat_pack_roundWithAccuracy s hpos, hsame]
  rw [hsame, hD]
  exact Nat.min_le_right k D

/-! ## The value of an unpacked number -/

/-- The unpacked number is finite, has 53 bits at most and is worth `z` units. -/
inductive Denotes : UnpackedFloat → Int → Prop where
  | zero (s : Sign) : Denotes (.zero s) 0
  | finite (s : Sign) {m k : Nat} {e : Int} (hpos : 0 < m) (h : IsNormal m k)
      (he : e = (k : Int) - 1074) :
      Denotes (.finite s m e hpos) (s.apply ((m * 2 ^ k : Nat) : Int))

/-- The value of a finite double in units. -/
def signedUnits (x : Float) : Int := if isNegative x then -(units x : Int) else units x

theorem signedUnits_eq {x : Float} {sign : Sign} {exponent : BitVec 11} {mantissa : BitVec 52}
    (hb : x.toBits.toBitVec = packComponents .binary64 sign exponent mantissa) :
    signedUnits x
      = sign.apply ((unitsOf (exponent.toNat * 2 ^ 52 + mantissa.toNat) : Nat) : Int) := by
  have hbits := toNat_toBits_eq_fields hb
  have hexponent := exponent.isLt
  have hmantissa := mantissa.isLt
  have hmagnitude := magnitude_eq_fields hb
  cases sign with
  | positive =>
    have hsign : Sign.positive.toBitVec.toNat = 0 := rfl
    have hnegative : isNegative x = false := by
      rw [isNegative, hbits, hsign]
      exact decide_eq_false (by omega)
    rw [signedUnits, hnegative, units, hmagnitude, if_neg Bool.false_ne_true, Sign.apply]
  | negative =>
    have hsign : Sign.negative.toBitVec.toNat = 1 := rfl
    have hnegative : isNegative x = true := by
      rw [isNegative, hbits, hsign]
      exact decide_eq_true (by omega)
    rw [signedUnits, hnegative, units, hmagnitude, if_pos rfl, Sign.apply]

/-- A finite double is unpacked to its value. -/
theorem denotes_unpack {x : Float} (hx : isFinite x = true) :
    Denotes (UnpackedFloat.unpack .binary64 x.toBits.toBitVec) (signedUnits x) := by
  obtain ⟨sign, exponent, mantissa, hb⟩ := exists_packComponents x.toBits.toBitVec
  have hones : exponent ≠ -1#11 := exponent_ne_of_lt hb (magnitude_lt hx)
  have hmantissa := mantissa.isLt
  rw [signedUnits_eq hb, hb]
  unfold UnpackedFloat.unpack
  simp only [unpackMantissa_packComponents, unpackExponent_packComponents,
    unpackSign_packComponents, Sign.ofBitVec_toBitVec, if_neg hones]
  by_cases hzero : exponent = 0#11
  · subst hzero
    rw [if_pos rfl]
    split
    · next hnone =>
      subst hnone
      have hunits : unitsOf ((0#11).toNat * 2 ^ 52 + (0#52).toNat) = 0 := by decide
      have hsigned : sign.apply ((0 : Nat) : Int) = 0 := by cases sign <;> rfl
      rw [hunits, hsigned]
      exact Denotes.zero sign
    · next hsome =>
      have hnormal : IsNormal mantissa.toNat (0#11).toNat := ⟨by omega, .inl rfl⟩
      rw [unitsOf_of_isNormal hnormal]
      exact Denotes.finite sign _ hnormal rfl
  · rw [if_neg hzero]
    have hexponent : 1 ≤ exponent.toNat := by
      rw [Nat.one_le_iff_ne_zero]
      exact fun h => hzero (BitVec.eq_of_toNat_eq h)
    have hsignificand : (1#1 ++ mantissa).toNat = 2 ^ 52 + mantissa.toNat := by
      rw [BitVec.toNat_append, ← Nat.shiftLeft_add_eq_or_of_lt hmantissa, Nat.shiftLeft_eq]
      rfl
    have hnormal : IsNormal (1#1 ++ mantissa).toNat (exponent.toNat - 1) := by
      rw [hsignificand]
      exact ⟨by omega, .inr (by omega)⟩
    have hfields : exponent.toNat * 2 ^ 52 + mantissa.toNat
        = (exponent.toNat - 1) * 2 ^ 52 + (1#1 ++ mantissa).toNat := by
      rw [hsignificand]
      omega
    have hbias : Format.binary64.exponentBias = 1023 := rfl
    rw [hfields, unitsOf_of_isNormal hnormal]
    refine Denotes.finite sign _ hnormal ?_
    rw [hbias]
    omega

/-! ## Sums -/

/-- The bits of the double nearest to `z` units, where that is not zero. -/
def nearestBits (z : Int) : Nat :=
  signUnits (z < 0) + min (roundedMagnitude z.natAbs 1) infinityMagnitude

theorem natAbs_apply (s : Sign) (n : Nat) : (s.apply (n : Int)).natAbs = n := by
  cases s <;> simp [Sign.apply]

theorem signUnits_apply (s : Sign) {n : Nat} (hn : 0 < n) :
    signUnits (decide (s.apply (n : Int) < 0)) = s.toBitVec.toNat * 2 ^ 63 := by
  cases s with
  | negative =>
    have hneg : Sign.negative.apply (n : Int) < 0 := by
      rw [Sign.apply]
      omega
    rw [decide_eq_true hneg]
    rfl
  | positive =>
    have hpos : ¬ Sign.positive.apply (n : Int) < 0 := by
      rw [Sign.apply]
      omega
    rw [decide_eq_false hpos]
    rfl

/-- A number of 53 bits is its own nearest double. -/
theorem toNat_pack_of_denotes {f : UnpackedFloat} {z : Int} (hf : Denotes f z) (hz : z ≠ 0) :
    (UnpackedFloat.pack .binary64 f).toNat = nearestBits z := by
  cases hf with
  | zero s => exact absurd rfl hz
  | @finite s m k e hpos hnormal he =>
    subst he
    have hrounded : roundedMagnitude (m * 2 ^ k) 1 = k * 2 ^ 52 + m := by
      have := roundedMagnitude_unitsOf (k * 2 ^ 52 + m) Nat.one_pos
      rwa [unitsOf_of_isNormal hnormal, Nat.mul_one] at this
    rw [toNat_pack_finite s hpos hnormal, nearestBits, natAbs_apply, hrounded,
      signUnits_apply s (Nat.mul_pos hpos (Nat.two_pow_pos k))]

/-- An integer mantissa is rounded by its absolute value. -/
theorem toNat_pack_normalize {z : Int} (hz : z ≠ 0) (k : Nat) (s : Sign) :
    (UnpackedFloat.pack .binary64
        (UnpackedFloat.normalize .binary64 z ((k : Int) - 1074) s)).toNat
      = nearestBits (z * 2 ^ k) := by
  have hpow : (0 : Int) < 2 ^ k := by positivity
  have habs : (z * 2 ^ k).natAbs = z.natAbs * 2 ^ k := by
    rw [Int.natAbs_mul, Int.natAbs_pow]
    rfl
  rw [UnpackedFloat.normalize, nearestBits, habs]
  rcases Int.lt_or_gt_of_ne hz with hneg | hpos
  · have hcompare : compare z 0 = .lt := compare_lt_iff_lt.2 hneg
    have hsign : z * 2 ^ k < 0 := Int.mul_neg_of_neg_of_pos hneg hpow
    have hmantissa : (-z).toNat = z.natAbs := by omega
    rw [hcompare, decide_eq_true hsign]
    dsimp only
    rw [toNat_pack_round _ (by omega), hmantissa]
    rfl
  · have hcompare : compare z 0 = .gt := compare_gt_iff_gt.2 hpos
    have hsign : ¬ z * 2 ^ k < 0 := Int.not_lt.2 (Int.mul_nonneg hpos.le hpow.le)
    have hmantissa : z.toNat = z.natAbs := by omega
    rw [hcompare, decide_eq_false hsign]
    dsimp only
    rw [toNat_pack_round _ (by omega), hmantissa]
    rfl

/-- Taking bits into the mantissa lowers the exponent. -/
theorem apply_shiftLeft (s : Sign) (m : Nat) {i k : Nat} (h : i ≤ k) :
    s.apply ((m <<< (k - i) : Nat) : Int) * 2 ^ i = s.apply ((m * 2 ^ k : Nat) : Int) := by
  have hsame : m * 2 ^ k = m <<< (k - i) * 2 ^ i := by
    rw [Nat.shiftLeft_eq, Nat.mul_assoc, ← Nat.pow_add, Nat.sub_add_cancel h]
  rw [hsame]
  cases s <;> simp [Sign.apply]

/-- Both mantissas are brought to the smaller exponent and added as integers. -/
theorem toNat_pack_add {f g : UnpackedFloat} {z w : Int} (hf : Denotes f z) (hg : Denotes g w)
    (h : z + w ≠ 0) :
    (UnpackedFloat.pack .binary64 (UnpackedFloat.add .binary64 f g)).toNat
      = nearestBits (z + w) := by
  cases hf with
  | zero s =>
    have hsame : UnpackedFloat.add .binary64 (.zero s) g = g := by
      cases hg with
      | zero t => exact absurd rfl h
      | finite t hpos hnormal he => rfl
    rw [Int.zero_add] at h ⊢
    rw [hsame]
    exact toNat_pack_of_denotes hg h
  | @finite s m k e hpos hnormal he =>
    cases hg with
    | zero t =>
      rw [Int.add_zero] at h ⊢
      exact toNat_pack_of_denotes (Denotes.finite s hpos hnormal he) h
    | @finite t n j e' hpos' hnormal' he' =>
      subst he he'
      have hmin : min ((k : Int) - 1074) ((j : Int) - 1074) = ((min k j : Nat) : Int) - 1074 := by
        omega
      have hleft : ((k : Int) - 1074 - (((min k j : Nat) : Int) - 1074)).toNat = k - min k j := by
        omega
      have hright : ((j : Int) - 1074 - (((min k j : Nat) : Int) - 1074)).toNat = j - min k j := by
        omega
      have hsum := Int.add_mul (s.apply ((m <<< (k - min k j) : Nat) : Int))
        (t.apply ((n <<< (j - min k j) : Nat) : Int)) (2 ^ min k j)
      rw [apply_shiftLeft s m (Nat.min_le_left k j), apply_shiftLeft t n (Nat.min_le_right k j)]
        at hsum
      rw [← hsum] at h ⊢
      rw [← toNat_pack_normalize (left_ne_zero_of_mul h) _ .positive, UnpackedFloat.add]
      simp only [decreaseExponent, hmin, hleft, hright]

theorem toBits_add_toNat {x y : Float} (hx : isFinite x = true) (hy : isFinite y = true)
    (h : signedUnits x + signedUnits y ≠ 0) :
    (x + y).toBits.toNat = nearestBits (signedUnits x + signedUnits y) :=
  toNat_pack_add (denotes_unpack hx) (denotes_unpack hy) h

/-- The sum of two finite doubles is the double nearest to the exact sum and has its sign.  A sum of
zero has no sign of its own and is left out. -/
theorem add_eq_nearest {x y : Float} (hx : isFinite x = true) (hy : isFinite y = true)
    (h : signedUnits x + signedUnits y ≠ 0) :
    x + y = nearest (signedUnits x + signedUnits y < 0) (signedUnits x + signedUnits y).natAbs
      unitsPerOne := by
  generalize hz : signedUnits x + signedUnits y = z at h
  apply Float.toBits_inj.1
  apply UInt64.toNat_inj.1
  rw [toBits_add_toNat hx hy (hz ▸ h), hz, nearest, nearestMagnitude_unitsPerOne,
    toNat_toBits_ofMagnitude _ (Nat.min_le_right _ _), nearestBits]

end LengthFormula.Double
