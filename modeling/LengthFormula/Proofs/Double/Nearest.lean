import LengthFormula.Double.Nearest

/-!
# Rounding fractions

Rounding depends on the value of a fraction only (`Double.nearestMagnitude_congr`), and a finite
double is the one nearest to its own value (`Double.nearestMagnitude_unitsOf`).  Fractions below
half a unit round to zero, and fractions of `2 ^ 1025` or more to infinity.
-/

namespace LengthFormula.Double

theorem unitsPerOne_eq_two_pow : ∃ e, e = 1074 ∧ unitsPerOne = 2 ^ e :=
  ⟨1074, rfl, by rw [unitsPerOne]⟩

theorem unitsPerOne_pos : 0 < unitsPerOne := by
  obtain ⟨e, -, he⟩ := unitsPerOne_eq_two_pow
  rw [he]
  exact Nat.two_pow_pos e

/-! ## Equal fractions -/

/-- A common factor makes no difference to the nearest natural number. -/
theorem roundHalfEven_mul (n d : Nat) {c : Nat} (hc : 0 < c) :
    roundHalfEven (n * c) (d * c) = roundHalfEven n d := by
  have hq : n * c / (d * c) = n / d := Nat.mul_div_mul_right n d hc
  have hr : 2 * (n * c % (d * c)) = 2 * (n % d) * c := by
    rw [Nat.mul_mod_mul_right, Nat.mul_assoc]
  have hlt : d * c < 2 * (n % d) * c ↔ d < 2 * (n % d) := Nat.mul_lt_mul_right hc
  have heq : 2 * (n % d) * c = d * c ↔ 2 * (n % d) = d :=
    ⟨Nat.eq_of_mul_eq_mul_right hc, fun h => by rw [h]⟩
  simp only [roundHalfEven, hq, hr, hlt, Bool.beq_eq_decide_eq, heq]

theorem roundedMagnitude_mul (n d : Nat) {c : Nat} (hc : 0 < c) :
    roundedMagnitude (n * c) (d * c) = roundedMagnitude n d := by
  have hscale : ∀ p, d * c * p = d * p * c := fun p => Nat.mul_right_comm d c p
  simp only [roundedMagnitude, Nat.mul_div_mul_right n d hc, hscale, roundHalfEven_mul _ _ hc]

theorem nearestMagnitude_mul (num den : Nat) {c : Nat} (hc : 0 < c) :
    nearestMagnitude (num * c) (den * c) = nearestMagnitude num den := by
  rw [nearestMagnitude, Nat.mul_right_comm, roundedMagnitude_mul _ _ hc, nearestMagnitude]

/-- Equal fractions have the same nearest double. -/
theorem nearestMagnitude_congr {num den num' den' : Nat} (hden : 0 < den) (hden' : 0 < den')
    (h : num * den' = num' * den) : nearestMagnitude num den = nearestMagnitude num' den' := by
  rw [← nearestMagnitude_mul num den hden', h, Nat.mul_comm den den',
    nearestMagnitude_mul num' den' hden]

/-! ## Between two doubles -/

/-- A multiple with a rest is rounded by the rest. -/
theorem roundHalfEven_mul_add (m : Nat) {r d : Nat} (hr : r < d) :
    roundHalfEven (m * d + r) d
      = if 2 * r < d then m else if 2 * r = d then m + m % 2 else m + 1 := by
  have hq : (m * d + r) / d = m := by
    rw [Nat.mul_comm, Nat.mul_add_div (by omega), Nat.div_eq_of_lt hr, Nat.add_zero]
  have hrest : (m * d + r) % d = r := by
    rw [Nat.mul_comm, Nat.mul_add_mod, Nat.mod_eq_of_lt hr]
  have hbit : m % 2 = 0 ∨ m % 2 = 1 := Nat.mod_two_eq_zero_or_one m
  simp only [roundHalfEven, hq, hrest]
  rcases Nat.lt_trichotomy (2 * r) d with hlt | heq | hgt
  · have hup : ¬ d < 2 * r := by omega
    have htie : ¬ 2 * r = d := by omega
    simp [hlt, hup, htie]
  · rcases hbit with hbit | hbit <;> simp [heq, hbit]
  · have hdown : ¬ 2 * r < d := by omega
    have htie : ¬ 2 * r = d := by omega
    simp [hgt, hdown, htie]

/-- A multiple is its own nearest natural number. -/
theorem roundHalfEven_mul_self (m : Nat) {d : Nat} (hd : 0 < d) : roundHalfEven (m * d) d = m := by
  have h := roundHalfEven_mul_add m hd
  rwa [Nat.add_zero, if_pos (by omega)] at h

/-- The mantissa `m` at the exponent `e` has all 53 bits, or the exponent is the least one. -/
def IsNormal (m e : Nat) : Prop := m < 2 ^ 53 ∧ (e = 0 ∨ 2 ^ 52 ≤ m)

/-- Every magnitude writes a mantissa at an exponent. -/
theorem exists_isNormal (k : Nat) : ∃ m e, IsNormal m e ∧ k = e * 2 ^ 52 + m :=
  ⟨k - (k / 2 ^ 52 - 1) * 2 ^ 52, k / 2 ^ 52 - 1, ⟨by omega, by omega⟩, by omega⟩

section Normal

variable {m e : Nat} (h : IsNormal m e)

include h

/-- The value of the magnitude that writes a mantissa at an exponent. -/
theorem unitsOf_of_isNormal : unitsOf (e * 2 ^ 52 + m) = m * 2 ^ e := by
  obtain ⟨hm, he⟩ := h
  rw [unitsOf]
  by_cases hsmall : m < 2 ^ 52
  · have hzero : e = 0 := by omega
    subst hzero
    rw [if_pos (by omega)]
    omega
  · have hmod : 2 ^ 52 + (e * 2 ^ 52 + m) % 2 ^ 52 = m := by omega
    have hdiv : (e * 2 ^ 52 + m) / 2 ^ 52 - 1 = e := by omega
    rw [if_neg (by omega), hmod, hdiv]

/-- The next double is one more in the last place. -/
theorem unitsOf_succ_of_isNormal : unitsOf (e * 2 ^ 52 + m + 1) = (m + 1) * 2 ^ e := by
  obtain ⟨hm, he⟩ := h
  by_cases hcarry : m + 1 < 2 ^ 53
  · have hnormal : IsNormal (m + 1) e := ⟨hcarry, by omega⟩
    rw [Nat.add_assoc, unitsOf_of_isNormal hnormal]
  · have hm : m + 1 = 2 ^ 52 * 2 := by omega
    have hnext : e * 2 ^ 52 + m + 1 = (e + 1) * 2 ^ 52 + 2 ^ 52 := by omega
    have hnormal : IsNormal (2 ^ 52) (e + 1) := ⟨by omega, .inr (Nat.le_refl _)⟩
    have hpow : 2 ^ (e + 1) = 2 * 2 ^ e := Nat.pow_succ'
    rw [hnext, unitsOf_of_isNormal hnormal, hm, hpow, Nat.mul_assoc]

/-- From one double up to the next, the mantissa is rounded in place. -/
theorem roundedMagnitude_of_isNormal {d r : Nat} (hr : r < d * 2 ^ e) :
    roundedMagnitude (m * (d * 2 ^ e) + r) d
      = e * 2 ^ 52 + roundHalfEven (m * (d * 2 ^ e) + r) (d * 2 ^ e) := by
  obtain ⟨hm, he⟩ := h
  have hd : 0 < d := Nat.pos_of_mul_pos_right (Nat.zero_lt_of_lt hr)
  have hwhole : (m * (d * 2 ^ e) + r) / d = m * 2 ^ e + r / d := by
    rw [Nat.mul_left_comm, Nat.mul_add_div hd]
  have hrest : r / d < 2 ^ e := Nat.div_lt_of_lt_mul hr
  have hdropped : droppedBits (m * 2 ^ e + r / d) = e := by
    rcases Nat.eq_zero_or_pos e with rfl | hpos
    · have hlog : (m * 2 ^ 0 + r / d).log2 < 53 := by
        by_cases hzero : m * 2 ^ 0 + r / d = 0
        · rw [hzero]
          decide
        · exact (Nat.log2_lt hzero).2 (by omega)
      rw [droppedBits]
      omega
    · have hlo : 2 ^ (52 + e) ≤ m * 2 ^ e := by
        rw [Nat.pow_add]
        exact Nat.mul_le_mul_right _ (by omega)
      have hhi : (m + 1) * 2 ^ e ≤ 2 ^ (52 + e + 1) := by
        rw [Nat.add_right_comm, Nat.pow_add]
        exact Nat.mul_le_mul_right _ hm
      have hlog : (m * 2 ^ e + r / d).log2 = 52 + e := by
        rw [Nat.add_mul, Nat.one_mul] at hhi
        have hle : 2 ^ (52 + e) ≤ m * 2 ^ e + r / d := Nat.le_trans hlo (Nat.le_add_right _ _)
        have hlt : m * 2 ^ e + r / d < 2 ^ (52 + e + 1) :=
          Nat.lt_of_lt_of_le (Nat.add_lt_add_left hrest _) hhi
        have hne := Nat.ne_of_gt (Nat.lt_of_lt_of_le (Nat.two_pow_pos (52 + e)) hle)
        exact (Nat.log2_eq_iff hne).2 ⟨hle, hlt⟩
      rw [droppedBits, hlog]
      omega
  simp only [roundedMagnitude, hwhole, hdropped]

end Normal

/-! ## Values of doubles -/

/-- A remainder below one half is dropped. -/
theorem roundHalfEven_of_lt {n d : Nat} (h : 2 * (n % d) < d) : roundHalfEven n d = n / d := by
  have hup : ¬ d < 2 * (n % d) := by omega
  have htie : ¬ 2 * (n % d) = d := by omega
  simp [roundHalfEven, hup, htie]

/-- A finite double is the nearest one to its own value. -/
theorem roundedMagnitude_unitsOf (k : Nat) {d : Nat} (hd : 0 < d) :
    roundedMagnitude (unitsOf k * d) d = k := by
  obtain ⟨m, e, hnormal, rfl⟩ := exists_isNormal k
  have hpos : 0 < d * 2 ^ e := Nat.mul_pos hd (Nat.two_pow_pos e)
  have h := roundedMagnitude_of_isNormal hnormal hpos
  have hvalue : m * 2 ^ e * d = m * (d * 2 ^ e) := by
    rw [Nat.mul_assoc, Nat.mul_comm (2 ^ e) d]
  rw [Nat.add_zero, roundHalfEven_mul_self m hpos] at h
  rw [unitsOf_of_isNormal hnormal, hvalue, h]

theorem nearestMagnitude_unitsOf {k : Nat} (h : k < infinityMagnitude) :
    nearestMagnitude (unitsOf k) unitsPerOne = k := by
  rw [nearestMagnitude, roundedMagnitude_unitsOf k unitsPerOne_pos]
  omega

theorem nearestMagnitude_unitsPerOne (n : Nat) :
    nearestMagnitude n unitsPerOne = min (roundedMagnitude n 1) infinityMagnitude := by
  have h := roundedMagnitude_mul n 1 unitsPerOne_pos
  rw [Nat.one_mul] at h
  rw [nearestMagnitude, h]

/-- A fraction that is the value of a double has that double as its nearest one. -/
theorem nearestMagnitude_of_unitsOf {num den k : Nat} (hden : 0 < den) (hk : k < infinityMagnitude)
    (h : unitsOf k * den = num * unitsPerOne) : nearestMagnitude num den = k := by
  rw [← nearestMagnitude_unitsOf hk]
  exact nearestMagnitude_congr hden unitsPerOne_pos h.symm

/-- Mantissas of 53 bits are values of doubles, with or without their leading bits. -/
theorem exists_unitsOf_eq (e : Nat) :
    ∀ {m : Nat}, m < 2 ^ 53 → ∃ k, k < (e + 2) * 2 ^ 52 ∧ unitsOf k = m * 2 ^ e := by
  induction e with
  | zero =>
    intro m hm
    exact ⟨0 * 2 ^ 52 + m, by omega, unitsOf_of_isNormal ⟨hm, .inl rfl⟩⟩
  | succ e ih =>
    intro m hm
    by_cases hlead : 2 ^ 52 ≤ m
    · exact ⟨(e + 1) * 2 ^ 52 + m, by omega, unitsOf_of_isNormal ⟨hm, .inr hlead⟩⟩
    · have hbound : (e + 2) * 2 ^ 52 ≤ (e + 1 + 2) * 2 ^ 52 := by omega
      have hpow : 2 ^ (e + 1) = 2 * 2 ^ e := Nat.pow_succ'
      obtain ⟨k, hk, hunits⟩ := ih (m := m * 2) (by omega)
      refine ⟨k, Nat.lt_of_lt_of_le hk hbound, ?_⟩
      rw [hunits, hpow, Nat.mul_assoc]

/-- The remainder of the values of two doubles is the value of a double: it has no bits below the
last place of either, and fewer above than one of them. -/
theorem exists_unitsOf_mod {j k : Nat} (hj : j < infinityMagnitude) (hk : k < infinityMagnitude) :
    ∃ i, i < infinityMagnitude ∧ unitsOf i = unitsOf j % unitsOf k := by
  obtain ⟨m, e, hm, rfl⟩ := exists_isNormal j
  obtain ⟨n, f, hn, rfl⟩ := exists_isNormal k
  rcases Nat.eq_zero_or_pos n with rfl | hpos
  · rw [unitsOf_of_isNormal hn, Nat.zero_mul, Nat.mod_zero]
    exact ⟨_, hj, rfl⟩
  rw [unitsOf_of_isNormal hm, unitsOf_of_isNormal hn]
  rw [infinityMagnitude] at hj hk ⊢
  obtain ⟨hmlt, hmlead⟩ := hm
  obtain ⟨hnlt, hnlead⟩ := hn
  rcases Nat.le_total e f with hle | hle
  · obtain ⟨t, rfl⟩ := Nat.exists_eq_add_of_le' hle
    have hmod : m * 2 ^ e % (n * 2 ^ (t + e)) = m % (n * 2 ^ t) * 2 ^ e := by
      rw [Nat.pow_add, ← Nat.mul_assoc, Nat.mul_mod_mul_right]
    have hbound : (e + 2) * 2 ^ 52 ≤ 2047 * 2 ^ 52 := by omega
    obtain ⟨i, hi, hunits⟩ := exists_unitsOf_eq e
      (Nat.lt_of_le_of_lt (Nat.mod_le m (n * 2 ^ t)) hmlt)
    exact ⟨i, Nat.lt_of_lt_of_le hi hbound, hunits.trans hmod.symm⟩
  · obtain ⟨t, rfl⟩ := Nat.exists_eq_add_of_le' hle
    have hmod : m * 2 ^ (t + f) % (n * 2 ^ f) = m * 2 ^ t % n * 2 ^ f := by
      rw [Nat.pow_add, ← Nat.mul_assoc, Nat.mul_mod_mul_right]
    have hbound : (f + 2) * 2 ^ 52 ≤ 2047 * 2 ^ 52 := by omega
    obtain ⟨i, hi, hunits⟩ := exists_unitsOf_eq f
      (Nat.lt_trans (Nat.mod_lt (m * 2 ^ t) hpos) hnlt)
    exact ⟨i, Nat.lt_of_lt_of_le hi hbound, hunits.trans hmod.symm⟩

/-! ## Out of range -/

/-- What is below half a unit rounds to zero. -/
theorem nearestMagnitude_of_lt {num den : Nat} (h : 2 * (num * unitsPerOne) < den) :
    nearestMagnitude num den = 0 := by
  generalize hn : num * unitsPerOne = n at h
  have hq : n / den = 0 := Nat.div_eq_of_lt (by omega)
  have hr : 2 * (n % den) < den := by
    rw [Nat.mod_eq_of_lt (by omega)]
    exact h
  have hrounded : roundedMagnitude n den = 0 := by
    have hdropped : droppedBits 0 = 0 := rfl
    simp only [roundedMagnitude, hq, hdropped]
    rw [Nat.pow_zero, Nat.mul_one, roundHalfEven_of_lt hr, hq, Nat.zero_mul]
  rw [nearestMagnitude, hn, hrounded]
  omega

/-- A fraction of one or more does not round to zero. -/
theorem nearestMagnitude_pos {num den : Nat} (hden : 0 < den) (h : den ≤ num) :
    0 < nearestMagnitude num den := by
  obtain ⟨e, he, hunits⟩ := unitsPerOne_eq_two_pow
  have hwhole : 2 ^ e ≤ num * unitsPerOne / den := by
    rw [Nat.le_div_iff_mul_le hden, hunits, Nat.mul_comm]
    exact Nat.mul_le_mul_right _ h
  rw [nearestMagnitude]
  generalize num * unitsPerOne = n at hwhole ⊢
  have hdropped : 1 ≤ droppedBits (n / den) := by
    have hpos : n / den ≠ 0 := Nat.ne_of_gt (Nat.lt_of_lt_of_le (Nat.two_pow_pos e) hwhole)
    have := (Nat.le_log2 hpos).2 hwhole
    rw [droppedBits]
    omega
  have hrounded : 0 < roundedMagnitude n den :=
    Nat.lt_of_lt_of_le (Nat.mul_pos hdropped (by decide)) (Nat.le_add_right _ _)
  exact Nat.lt_min.2 ⟨hrounded, by decide⟩

/-- From `2 ^ 1025` on fractions round to infinity. -/
theorem nearestMagnitude_of_le {num den p : Nat} (hden : 0 < den) (hp : 1025 ≤ p)
    (h : den * 2 ^ p ≤ num) : nearestMagnitude num den = infinityMagnitude := by
  obtain ⟨e, he, hwhole⟩ : ∃ e, 2099 ≤ e ∧ 2 ^ e ≤ num * unitsPerOne / den := by
    obtain ⟨e, he, hunits⟩ := unitsPerOne_eq_two_pow
    refine ⟨p + e, by omega, ?_⟩
    rw [Nat.le_div_iff_mul_le hden, hunits, Nat.pow_add, Nat.mul_comm, ← Nat.mul_assoc]
    exact Nat.mul_le_mul_right _ h
  rw [nearestMagnitude]
  generalize num * unitsPerOne = n at hwhole ⊢
  have hdropped : 2047 ≤ droppedBits (n / den) := by
    have hpos : n / den ≠ 0 := Nat.ne_of_gt (Nat.lt_of_lt_of_le (Nat.two_pow_pos e) hwhole)
    have := (Nat.le_log2 hpos).2 hwhole
    rw [droppedBits]
    omega
  have hrounded : infinityMagnitude ≤ roundedMagnitude n den :=
    Nat.le_trans (Nat.mul_le_mul_right _ hdropped) (Nat.le_add_right _ _)
  exact Nat.min_eq_right hrounded

end LengthFormula.Double
