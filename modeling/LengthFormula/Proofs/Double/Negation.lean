import LengthFormula.Proofs.Double.Bits

/-!
# Negation of doubles

Negation turns the sign bit (`Double.neg_ofMagnitude`), and a product or a quotient changes its sign
with its first operand (`Double.neg_mul`, `Double.neg_div`).  This holds of all doubles: rounding
looks at the absolute value alone.
-/

namespace LengthFormula.Double

open Float.Model
open Float.Model.UnpackedFloat

/-! ## The sign that is packed -/

section Fields

variable {sign : Sign} {exponent : BitVec 11} {mantissa : BitVec 52}

/-- Negation turns the sign alone. -/
theorem neg_unpack_packComponents (h : exponent = -1#11 → mantissa = 0#52) :
    (UnpackedFloat.unpack .binary64
        (packComponents .binary64 sign exponent mantissa)).neg
      = UnpackedFloat.unpack .binary64
        (packComponents .binary64 (-sign) exponent mantissa) := by
  unfold UnpackedFloat.unpack
  simp only [unpackMantissa_packComponents, unpackExponent_packComponents,
    unpackSign_packComponents, Sign.ofBitVec_toBitVec]
  split
  · next hones =>
    rw [if_pos (h hones), if_pos (h hones)]
    rfl
  · split
    · split <;> rfl
    · rfl

theorem unpack_packComponents_nan (hones : exponent = -1#11) (hmantissa : mantissa ≠ 0#52) :
    UnpackedFloat.unpack .binary64 (packComponents .binary64 sign exponent mantissa)
      = .notANumber := by
  unfold UnpackedFloat.unpack
  simp only [unpackMantissa_packComponents, unpackExponent_packComponents, if_pos hones,
    if_neg hmantissa]

end Fields

/-- A number and its negation are packed from the same fields. -/
theorem exists_pack_eq (f : UnpackedFloat) (hf : f ≠ .notANumber) :
    ∃ (sign : Sign) (exponent : BitVec 11) (mantissa : BitVec 52),
      (exponent = -1#11 → mantissa = 0#52) ∧
        f.pack .binary64 = packComponents .binary64 sign exponent mantissa ∧
        f.neg.pack .binary64 = packComponents .binary64 (-sign) exponent mantissa := by
  cases f with
  | notANumber => exact absurd rfl hf
  | infinity s => exact ⟨s, -1#11, 0#52, fun _ => rfl, rfl, rfl⟩
  | zero s => exact ⟨s, 0#11, 0#52, fun _ => rfl, rfl, rfl⟩
  | finite s m e hm =>
    by_cases hlarge : 2 ^ 11 ≤ (e + 1023 + 52).toNat + 1
    · exact ⟨s, -1#11, 0#52, fun _ => rfl, if_pos hlarge, if_pos hlarge⟩
    · by_cases hnormal : m.log2 + 1 = 53
      · refine ⟨s, .ofNat 11 (e + 1023 + 52).toNat, .ofNat 52 m, ?_,
          (if_neg hlarge).trans (if_pos hnormal), (if_neg hlarge).trans (if_pos hnormal)⟩
        intro hones
        have hones := congrArg BitVec.toNat hones
        have hmax : (-1#11).toNat = 2047 := rfl
        rw [hmax, BitVec.toNat_ofNat] at hones
        omega
      · exact ⟨s, 0#11, .ofNat 52 m, fun hones => absurd hones (by decide),
          (if_neg hlarge).trans (if_neg hnormal), (if_neg hlarge).trans (if_neg hnormal)⟩

/-- Rounding to a double may come before negation. -/
theorem pack_neg_unpack_pack (f : UnpackedFloat) :
    (UnpackedFloat.unpack .binary64 (f.pack .binary64)).neg.pack .binary64
      = f.neg.pack .binary64 := by
  by_cases hf : f = .notANumber
  · subst hf
    show (UnpackedFloat.unpack .binary64 (packedNaN .binary64)).neg.pack _ = _
    rw [unpack_packedNaN]
  · obtain ⟨sign, exponent, mantissa, h, hpack, hneg⟩ := exists_pack_eq f hf
    rw [hpack, neg_unpack_packComponents h, pack_unpack_packComponents h, hneg]

/-- The negation of a double is a double. -/
theorem unpack_pack_neg_unpack (b : BitVec 64) :
    UnpackedFloat.unpack .binary64
        ((UnpackedFloat.unpack .binary64 b).neg.pack .binary64)
      = (UnpackedFloat.unpack .binary64 b).neg := by
  obtain ⟨sign, exponent, mantissa, rfl⟩ := exists_packComponents b
  by_cases h : exponent = -1#11 → mantissa = 0#52
  · rw [neg_unpack_packComponents h, pack_unpack_packComponents h]
  · rw [Classical.not_imp] at h
    rw [unpack_packComponents_nan h.1 h.2]
    exact unpack_packedNaN

/-! ## The sign bit -/

theorem toNat_toBitVec_neg (sign : Sign) : (-sign).toBitVec.toNat = 1 - sign.toBitVec.toNat := by
  cases sign <;> rfl

/-- Negation turns the sign that is packed. -/
theorem toBits_neg {x : Float} {sign : Sign} {exponent : BitVec 11} {mantissa : BitVec 52}
    (hx : x.toBits.toBitVec = packComponents .binary64 sign exponent mantissa)
    (h : exponent = -1#11 → mantissa = 0#52) :
    (-x).toBits = UInt64.ofBitVec (packComponents .binary64 (-sign) exponent mantissa) := by
  show UInt64.ofBitVec (UnpackedFloat.pack .binary64
    (UnpackedFloat.unpack .binary64 x.toBits.toBitVec).neg) = _
  rw [hx, neg_unpack_packComponents h, pack_unpack_packComponents h]

/-- Negation turns the sign bit. -/
theorem neg_ofMagnitude (negative : Bool) {k : Nat} (h : k < infinityMagnitude) :
    -ofMagnitude negative k = ofMagnitude (!negative) k := by
  obtain ⟨sign, exponent, mantissa, hb⟩ :=
    exists_packComponents (ofMagnitude negative k).toBits.toBitVec
  have hbits : (ofMagnitude negative k).toBits.toBitVec.toNat = signUnits negative + k :=
    toNat_toBits_ofMagnitude negative h.le
  have hexponent : exponent ≠ -1#11 := by
    refine exponent_ne_of_lt hb ?_
    rw [hbits, signUnits_add_mod negative h.le]
    exact h
  have hfields : sign.toBitVec.toNat * 2 ^ 63 + exponent.toNat * 2 ^ 52 + mantissa.toNat
      = signUnits negative + k := by
    rw [← hbits, hb, toNat_packComponents]
  apply Float.toBits_inj.1
  apply UInt64.toNat_inj.1
  rw [toBits_neg hb (absurd · hexponent), toNat_toBits_ofMagnitude _ h.le]
  show (packComponents .binary64 (-sign) exponent mantissa).toNat = _
  rw [toNat_packComponents, toNat_toBitVec_neg]
  have hsign : sign.toBitVec.toNat = 0 ∨ sign.toBitVec.toNat = 1 := by
    have := sign.toBitVec.isLt
    omega
  have he := exponent.isLt
  have hm := mantissa.isLt
  rw [infinityMagnitude] at h
  cases negative
  · simp only [signUnits, Bool.not_false, if_true, Bool.false_eq_true, if_false] at hfields ⊢
    rcases hsign with hsign | hsign <;> rw [hsign] at hfields ⊢ <;> omega
  · simp only [signUnits, Bool.not_true, if_true, Bool.false_eq_true, if_false] at hfields ⊢
    rcases hsign with hsign | hsign <;> rw [hsign] at hfields ⊢ <;> omega

/-! ## Products and quotients -/

theorem neg_roundWithAccuracy (s : Sign) (m : Nat) (e : Int) (acc : Accuracy) :
    roundWithAccuracy .binary64 (-s) m e acc
      = (roundWithAccuracy .binary64 s m e acc).neg := by
  unfold roundWithAccuracy
  dsimp only
  split <;> rfl

theorem neg_mul_sign (s t : Sign) : -s * t = -(s * t) := by
  cases s <;> cases t <;> rfl

theorem neg_div_sign (s t : Sign) : -s / t = -(s / t) := by
  cases s <;> cases t <;> rfl

/-- A product changes its sign with its first factor. -/
theorem neg_mul_unpacked (f g : UnpackedFloat) :
    UnpackedFloat.mul .binary64 f.neg g = (UnpackedFloat.mul .binary64 f g).neg := by
  cases f <;> cases g <;>
    simp only [UnpackedFloat.mul, UnpackedFloat.neg, neg_mul_sign, neg_roundWithAccuracy]

/-- A quotient changes its sign with its dividend. -/
theorem neg_div_unpacked (f g : UnpackedFloat) :
    UnpackedFloat.div .binary64 f.neg g = (UnpackedFloat.div .binary64 f g).neg := by
  cases f <;> cases g <;>
    simp only [UnpackedFloat.div, UnpackedFloat.neg, neg_div_sign, neg_roundWithAccuracy]

/-- An operation that changes its sign with its first operand does so on doubles too. -/
theorem pack_op_neg {op : UnpackedFloat → UnpackedFloat → UnpackedFloat}
    (h : ∀ f g, op f.neg g = (op f g).neg) (b : BitVec 64) (g : UnpackedFloat) :
    UnpackedFloat.pack .binary64 (op (UnpackedFloat.unpack .binary64
        (UnpackedFloat.pack .binary64 (UnpackedFloat.unpack .binary64 b).neg)) g)
      = UnpackedFloat.pack .binary64 (UnpackedFloat.unpack .binary64
        (UnpackedFloat.pack .binary64 (op (UnpackedFloat.unpack .binary64 b) g))).neg := by
  rw [unpack_pack_neg_unpack, h, pack_neg_unpack_pack]

theorem neg_mul (x y : Float) : -x * y = -(x * y) :=
  Float.toBits_inj.1 (congrArg UInt64.ofBitVec (pack_op_neg neg_mul_unpacked x.toBits.toBitVec
    (UnpackedFloat.unpack .binary64 y.toBits.toBitVec)))

theorem neg_div (x y : Float) : -x / y = -(x / y) :=
  Float.toBits_inj.1 (congrArg UInt64.ofBitVec (pack_op_neg neg_div_unpacked x.toBits.toBitVec
    (UnpackedFloat.unpack .binary64 y.toBits.toBitVec)))

end LengthFormula.Double
