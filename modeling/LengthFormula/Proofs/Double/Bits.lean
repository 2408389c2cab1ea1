import Mathlib
import LengthFormula.Double.Bits

/-!
# Doubles and their bits

A double is given by its sign bit and its magnitude (`Double.ofMagnitude_magnitude`).  This is read
off how a double is packed from a sign, an exponent and a mantissa.
-/

namespace LengthFormula.Double

open Float.Model
open Float.Model.UnpackedFloat

/-! ## Packing -/

/-- The number that the packed fields write. -/
theorem toNat_packComponents (sign : Sign) (exponent : BitVec 11) (mantissa : BitVec 52) :
    (packComponents .binary64 sign exponent mantissa).toNat
      = sign.toBitVec.toNat * 2 ^ 63 + exponent.toNat * 2 ^ 52 + mantissa.toNat := by
  unfold packComponents
  rw [BitVec.toNat_append, BitVec.toNat_append, ← Nat.shiftLeft_add_eq_or_of_lt exponent.isLt,
    ← Nat.shiftLeft_add_eq_or_of_lt mantissa.isLt, Nat.shiftLeft_eq, Nat.shiftLeft_eq]
  omega

/-- Every bit pattern is packed from a sign, an exponent and a mantissa. -/
theorem exists_packComponents (b : BitVec 64) :
    ∃ (sign : Sign) (exponent : BitVec 11) (mantissa : BitVec 52),
      b = packComponents .binary64 sign exponent mantissa :=
  ⟨_, _, _, (@packComponents_unpackSign_unpackExponent_unpackMantissa .binary64 b).symm⟩

/-- The fields of a number are packed as they were unpacked. -/
theorem pack_unpack_packComponents {sign : Sign} {exponent : BitVec 11} {mantissa : BitVec 52}
    (h : exponent = -1#11 → mantissa = 0#52) :
    UnpackedFloat.pack .binary64
        (UnpackedFloat.unpack .binary64 (packComponents .binary64 sign exponent mantissa))
      = packComponents .binary64 sign exponent mantissa := by
  rw [pack_unpack, if_neg]
  simp only [isNaNBits, unpackExponent_packComponents, unpackMantissa_packComponents,
    decide_eq_true_eq]
  exact fun hnan => hnan.2 (h hnan.1)

/-- The bits of a double are what its fields write. -/
theorem toNat_toBits_eq_fields {x : Float} {sign : Sign} {exponent : BitVec 11}
    {mantissa : BitVec 52}
    (hb : x.toBits.toBitVec = packComponents .binary64 sign exponent mantissa) :
    x.toBits.toNat = sign.toBitVec.toNat * 2 ^ 63 + exponent.toNat * 2 ^ 52 + mantissa.toNat := by
  rw [← toNat_packComponents, ← hb, UInt64.toNat_toBitVec]

/-- The magnitude is what the fields below the sign write. -/
theorem magnitude_eq_fields {x : Float} {sign : Sign} {exponent : BitVec 11} {mantissa : BitVec 52}
    (hb : x.toBits.toBitVec = packComponents .binary64 sign exponent mantissa) :
    magnitude x = exponent.toNat * 2 ^ 52 + mantissa.toNat := by
  have hexponent := exponent.isLt
  have hmantissa := mantissa.isLt
  rw [magnitude, toNat_toBits_eq_fields hb]
  omega

/-! ## Finite doubles -/

/-- A magnitude below that of infinity leaves a bit of the exponent unset. -/
theorem exponent_ne_of_lt {b : BitVec 64} {sign : Sign} {exponent : BitVec 11}
    {mantissa : BitVec 52} (hb : b = packComponents .binary64 sign exponent mantissa)
    (h : b.toNat % 2 ^ 63 < infinityMagnitude) : exponent ≠ -1#11 := by
  rintro rfl
  have hmantissa := mantissa.isLt
  have hexponent : (-1#11).toNat = 2047 := rfl
  rw [hb, toNat_packComponents, hexponent, infinityMagnitude] at h
  omega

/-- With all bits of the exponent set, only an infinity is not above the magnitude of infinity. -/
theorem mantissa_eq_zero_of_le {b : BitVec 64} {sign : Sign} {exponent : BitVec 11}
    {mantissa : BitVec 52} (hb : b = packComponents .binary64 sign exponent mantissa)
    (h : b.toNat % 2 ^ 63 ≤ infinityMagnitude) (hones : exponent = -1#11) : mantissa = 0#52 := by
  subst hones
  have hmantissa := mantissa.isLt
  have hexponent : (-1#11).toNat = 2047 := rfl
  rw [hb, toNat_packComponents, hexponent, infinityMagnitude] at h
  apply BitVec.eq_of_toNat_eq
  rw [BitVec.toNat_ofNat]
  omega

/-- The bits of a number or an infinity are read back as they are. -/
theorem toBits_ofBits {b : UInt64} (h : b.toNat % 2 ^ 63 ≤ infinityMagnitude) :
    (Float.ofBits b).toBits = b := by
  obtain ⟨sign, exponent, mantissa, hb⟩ := exists_packComponents b.toBitVec
  show UInt64.ofBitVec (UnpackedFloat.pack .binary64
    (UnpackedFloat.unpack .binary64 b.toBitVec)) = b
  rw [hb, pack_unpack_packComponents (mantissa_eq_zero_of_le hb h), ← hb]

/-- What the sign bit counts. -/
def signUnits (negative : Bool) : Nat := if negative then 2 ^ 63 else 0

section Magnitude

variable (negative : Bool) {k : Nat}

theorem signUnits_add_mod (h : k ≤ infinityMagnitude) : (signUnits negative + k) % 2 ^ 63 = k := by
  rw [infinityMagnitude] at h
  cases negative <;> simp [signUnits] <;> omega

theorem le_signUnits_add (h : k ≤ infinityMagnitude) :
    decide (2 ^ 63 ≤ signUnits negative + k) = negative := by
  rw [infinityMagnitude] at h
  cases negative
  · exact decide_eq_false (by rw [signUnits, if_neg Bool.false_ne_true]; omega)
  · exact decide_eq_true (by rw [signUnits, if_pos rfl]; omega)

theorem toNat_toBits_ofMagnitude (h : k ≤ infinityMagnitude) :
    (ofMagnitude negative k).toBits.toNat = signUnits negative + k := by
  have hbits : (UInt64.ofNat (if negative then 2 ^ 63 + k else k)).toNat
      = signUnits negative + k := by
    rw [infinityMagnitude] at h
    rw [UInt64.toNat_ofNat']
    cases negative <;> simp [signUnits] <;> omega
  have hfinite : (UInt64.ofNat (if negative then 2 ^ 63 + k else k)).toNat % 2 ^ 63
      ≤ infinityMagnitude := by
    rw [hbits, signUnits_add_mod negative h]
    exact h
  rw [ofMagnitude, toBits_ofBits hfinite, hbits]

@[simp]
theorem magnitude_ofMagnitude (h : k < infinityMagnitude) :
    magnitude (ofMagnitude negative k) = k := by
  rw [magnitude, toNat_toBits_ofMagnitude negative h.le, signUnits_add_mod negative h.le]

@[simp]
theorem isNegative_ofMagnitude (h : k < infinityMagnitude) :
    isNegative (ofMagnitude negative k) = negative := by
  rw [isNegative, toNat_toBits_ofMagnitude negative h.le]
  exact le_signUnits_add negative h.le

end Magnitude

/-- A finite double is given by its sign bit and its magnitude. -/
theorem ofMagnitude_magnitude {x : Float} (h : isFinite x = true) :
    ofMagnitude (isNegative x) (magnitude x) = x := by
  have hfinite := magnitude_lt h
  have hbits := x.toBits.toNat_lt
  apply Float.toBits_inj.1
  apply UInt64.toNat_inj.1
  rw [toNat_toBits_ofMagnitude _ hfinite.le, signUnits, isNegative, magnitude]
  by_cases hsign : 2 ^ 63 ≤ x.toBits.toNat
  · rw [if_pos (decide_eq_true hsign)]
    omega
  · rw [if_neg (Bool.eq_false_iff.1 (decide_eq_false hsign))]
    omega

end LengthFormula.Double
