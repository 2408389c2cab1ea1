import LengthFormula.Double.Integral
import LengthFormula.Proofs.Double.Sums

/-!
# Whole numbers among the doubles

What a whole number is as a double, and what rounding half up does to it
(`Double.roundHalfUp_of_isIntegral`).  The sum with one half is exact up to `2 ^ 52`, and taking its
floor gives the number back.  Above, no double lies half way between two whole numbers: the sum is
rounded to a neighbour with an even magnitude, so that an odd number moves up by one.
-/

namespace LengthFormula.Double

/-! ## Values in units -/

theorem isFinite_of_isIntegral {x : Float} (h : isIntegral x = true) : isFinite x = true :=
  (Bool.and_eq_true_iff.1 h).1

theorem hasFraction_of_isIntegral {x : Float} (h : isIntegral x = true) :
    hasFraction x = false := by
  simpa using (Bool.and_eq_true_iff.1 h).2

theorem isIntegral_of_isFinite {x : Float} (hx : isFinite x = true)
    (h : hasFraction x = false) : isIntegral x = true := by
  rw [isIntegral, hx, h]
  rfl

theorem natAbs_toInt (x : Float) : (toInt x).natAbs = wholePart x := by
  rw [toInt]
  split <;> omega

/-- A whole number is a multiple of one. -/
theorem units_of_isIntegral {x : Float} (h : isIntegral x = true) :
    units x = (toInt x).natAbs * unitsPerOne := by
  have hrest : units x % unitsPerOne = 0 := by
    simpa [hasFraction] using hasFraction_of_isIntegral h
  rw [natAbs_toInt, wholePart, Nat.div_mul_cancel (Nat.dvd_of_mod_eq_zero hrest)]

theorem signedUnits_of_isIntegral {x : Float} (h : isIntegral x = true) :
    signedUnits x = toInt x * (unitsPerOne : Int) := by
  have hunits := units_of_isIntegral h
  rw [natAbs_toInt] at hunits
  rw [signedUnits, toInt, hunits]
  split
  · rw [Int.neg_mul, Int.natCast_mul]
  · rw [Int.natCast_mul]

theorem isIntegral_of_units {x : Float} {n : Nat} (hx : isFinite x = true)
    (h : units x = n * unitsPerOne) : isIntegral x = true := by
  rw [isIntegral, hx, hasFraction, h, Nat.mul_mod_left]
  rfl

theorem toInt_of_units {x : Float} {n : Nat} (h : units x = n * unitsPerOne) :
    toInt x = if isNegative x then -(n : Int) else n := by
  rw [toInt, wholePart, h, Nat.mul_div_cancel _ unitsPerOne_pos]

/-- A whole number is its own floor. -/
theorem floor_of_isIntegral {x : Float} (h : isIntegral x = true) : floor x = x := by
  rw [floor, hasFraction_of_isIntegral h, Bool.and_false, if_neg Bool.false_ne_true]

/-- Nothing is cut off a whole number. -/
theorem trunc_of_isIntegral {x : Float} (h : isIntegral x = true) : trunc x = x := by
  rw [trunc, hasFraction_of_isIntegral h, Bool.and_false, if_neg Bool.false_ne_true]

section OfMagnitude

variable (negative : Bool) {k : Nat} (hk : k < infinityMagnitude)

include hk

theorem isFinite_ofMagnitude : isFinite (ofMagnitude negative k) = true := by
  rw [isFinite, magnitude_ofMagnitude negative hk]
  exact decide_eq_true hk

theorem units_ofMagnitude : units (ofMagnitude negative k) = unitsOf k := by
  rw [units, magnitude_ofMagnitude negative hk]

end OfMagnitude

/-- An integer whose absolute value is that of a double is converted to a double exactly. -/
theorem ofInt_exact {n : Int} {k : Nat} (hk : k < infinityMagnitude)
    (h : unitsOf k = n.natAbs * unitsPerOne) :
    isIntegral (ofInt n) = true ∧ toInt (ofInt n) = n := by
  have hmagnitude : nearestMagnitude n.natAbs 1 = k :=
    nearestMagnitude_of_unitsOf Nat.one_pos hk (by rw [Nat.mul_one, h])
  have hunits : units (ofInt n) = n.natAbs * unitsPerOne := by
    rw [ofInt, nearest, hmagnitude, units_ofMagnitude _ hk, h]
  have hfinite : isFinite (ofInt n) = true := by
    rw [ofInt, nearest, hmagnitude, isFinite_ofMagnitude _ hk]
  have hnegative : isNegative (ofInt n) = decide (n < 0) := by
    rw [ofInt, nearest, hmagnitude, isNegative_ofMagnitude _ hk]
  refine ⟨isIntegral_of_units hfinite hunits, ?_⟩
  rw [toInt_of_units hunits, hnegative]
  split
  · next hneg =>
    have := of_decide_eq_true hneg
    omega
  · next hpos =>
    have := of_decide_eq_false (Bool.eq_false_iff.2 hpos)
    omega

/-! ## One half -/

/-- How many units make one half. -/
def unitsPerHalf : Nat := 2 ^ 1073

theorem unitsPerHalf_eq_two_pow :
    ∃ e, e = 1073 ∧ unitsPerHalf = 2 ^ e ∧ unitsPerOne = 2 ^ (e + 1) := by
  obtain ⟨e, he, hone⟩ := unitsPerOne_eq_two_pow
  have hexponent : e = 1073 + 1 := he
  exact ⟨1073, rfl, by rw [unitsPerHalf], by rw [hone, hexponent]⟩

theorem unitsPerOne_eq : unitsPerOne = 2 * unitsPerHalf := by
  obtain ⟨e, -, hhalf, hone⟩ := unitsPerHalf_eq_two_pow
  rw [hhalf, hone]
  exact Nat.pow_succ'

theorem unitsPerHalf_pos : 0 < unitsPerHalf := by
  rw [unitsPerHalf]
  exact Nat.two_pow_pos 1073

theorem isFinite_half : isFinite 0.5 = true := by
  decide +kernel

theorem signedUnits_half : signedUnits 0.5 = unitsPerHalf := by
  decide +kernel

/-- A whole number and one half make an odd number of halves. -/
theorem add_half {x : Float} (hx : isIntegral x = true) :
    x + 0.5 = ofMagnitude (toInt x < 0)
      (min (roundedMagnitude ((2 * toInt x + 1).natAbs * unitsPerHalf) 1) infinityMagnitude) := by
  have hpos : (0 : Int) < unitsPerHalf := Int.natCast_pos.2 unitsPerHalf_pos
  have hsum : signedUnits x + signedUnits 0.5 = (2 * toInt x + 1) * (unitsPerHalf : Int) := by
    rw [signedUnits_of_isIntegral hx, signedUnits_half, unitsPerOne_eq]
    push_cast
    ring
  have hodd : 2 * toInt x + 1 ≠ 0 := by omega
  have hsign : (2 * toInt x + 1) * (unitsPerHalf : Int) < 0 ↔ toInt x < 0 := by
    rw [mul_neg_iff]
    omega
  have hne : signedUnits x + signedUnits 0.5 ≠ 0 := by
    rw [hsum]
    exact mul_ne_zero hodd hpos.ne'
  rw [add_eq_nearest (isFinite_of_isIntegral hx) isFinite_half hne, hsum, nearest,
    nearestMagnitude_unitsPerOne, Int.natAbs_mul, Int.natAbs_natCast, decide_eq_decide.2 hsign]

/-- Up to `2 ^ 52` the sum with one half is exact, and its floor is the number itself. -/
theorem floor_half {n : Int} (hn : (2 * n + 1).natAbs < 2 ^ 53) :
    floor (ofMagnitude (n < 0)
      (min (roundedMagnitude ((2 * n + 1).natAbs * unitsPerHalf) 1) infinityMagnitude))
      = ofInt n := by
  obtain ⟨e, he, hhalf, -⟩ := unitsPerHalf_eq_two_pow
  have hbound : (e + 2) * 2 ^ 52 ≤ 2047 * 2 ^ 52 := by omega
  obtain ⟨k, hk, hunits⟩ := exists_unitsOf_eq e hn
  have hk : k < infinityMagnitude := Nat.lt_of_lt_of_le hk hbound
  have hrounded : roundedMagnitude ((2 * n + 1).natAbs * unitsPerHalf) 1 = k := by
    have := roundedMagnitude_unitsOf k Nat.one_pos
    rwa [Nat.mul_one, hunits, ← hhalf] at this
  rw [hrounded, Nat.min_eq_left hk.le]
  rw [← hhalf] at hunits
  have hodd : (2 * n + 1).natAbs % 2 = 1 := by omega
  have hrest : unitsOf k % unitsPerOne = unitsPerHalf := by
    rw [hunits, unitsPerOne_eq, Nat.mul_mod_mul_right, hodd, Nat.one_mul]
  have hwhole : unitsOf k / unitsPerOne = (2 * n + 1).natAbs / 2 := by
    rw [hunits, unitsPerOne_eq, Nat.mul_div_mul_right _ _ unitsPerHalf_pos]
  have hfraction : hasFraction (ofMagnitude (n < 0) k) = true := by
    rw [hasFraction, units_ofMagnitude _ hk, hrest]
    exact bne_iff_ne.2 unitsPerHalf_pos.ne'
  have habs : (if decide (n < 0) then (2 * n + 1).natAbs / 2 + 1 else (2 * n + 1).natAbs / 2)
      = n.natAbs := by
    by_cases hneg : n < 0
    · rw [if_pos (decide_eq_true hneg)]
      omega
    · rw [if_neg (Bool.eq_false_iff.1 (decide_eq_false hneg))]
      omega
  rw [floor, isFinite_ofMagnitude _ hk, hfraction, Bool.and_self, if_pos rfl, withSignOf,
    isNegative_ofMagnitude _ hk, wholePart, units_ofMagnitude _ hk, hwhole, habs, ofInt]

/-! ## Where all doubles are whole -/

/-- From `2 ^ 52` on, one is a multiple of the last place. -/
theorem exists_lastPlace {m e n : Nat} (h : m * 2 ^ e = n * unitsPerOne) (hlt : m < 2 * n) :
    ∃ t, e = 1074 + t ∧ 2 ^ e = 2 ^ t * unitsPerOne ∧ n = m * 2 ^ t := by
  obtain ⟨p, hp, hone⟩ := unitsPerOne_eq_two_pow
  have hexponent : p ≤ e := by
    by_contra hsmall
    obtain ⟨f, hf, hhalf, -⟩ := unitsPerHalf_eq_two_pow
    have hpow : 2 ^ e ≤ unitsPerHalf := by
      rw [hhalf]
      exact Nat.pow_le_pow_right (by decide) (by omega)
    have hstep : m * 2 ^ e < 2 * n * unitsPerHalf :=
      Nat.lt_of_le_of_lt (Nat.mul_le_mul_left m hpow)
        (Nat.mul_lt_mul_of_pos_right hlt unitsPerHalf_pos)
    rw [h, unitsPerOne_eq, Nat.mul_comm 2 n, Nat.mul_assoc] at hstep
    exact Nat.lt_irrefl _ hstep
  obtain ⟨t, rfl⟩ := Nat.exists_eq_add_of_le hexponent
  have hpow : 2 ^ (p + t) = 2 ^ t * unitsPerOne := by
    rw [hone, ← Nat.pow_add, Nat.add_comm]
  refine ⟨t, by rw [hp], hpow, ?_⟩
  rw [hpow, ← Nat.mul_assoc] at h
  exact (Nat.eq_of_mul_eq_mul_right unitsPerOne_pos h).symm

/-- Whether the next double is one away or more. -/
theorem unitsPerOne_eq_or_lt {e t : Nat} (hpow : 2 ^ e = 2 ^ t * unitsPerOne) :
    (t = 0 ∧ unitsPerOne = 2 ^ e) ∨ (t ≠ 0 ∧ unitsPerOne < 2 ^ e) := by
  rw [hpow]
  by_cases hzero : t = 0
  · left
    rw [hzero, Nat.pow_zero, Nat.one_mul]
    exact ⟨rfl, rfl⟩
  · right
    exact ⟨hzero, lt_mul_of_one_lt_left unitsPerOne_pos (Nat.one_lt_two_pow hzero)⟩

/-- A number that stands above bits of its last place is even. -/
theorem eq_or_even_of_eq_mul {m n t : Nat} (h : n = m * 2 ^ t) :
    (t = 0 ∧ n = m) ∨ (t ≠ 0 ∧ n % 2 = 0) := by
  cases t with
  | zero => exact .inl ⟨rfl, by rw [h, Nat.pow_zero, Nat.mul_one]⟩
  | succ t =>
    rw [Nat.pow_succ, ← Nat.mul_assoc] at h
    exact .inr ⟨Nat.succ_ne_zero t, by omega⟩

section Neighbours

variable {m e t : Nat} (h : IsNormal m e) (hpow : 2 ^ e = 2 ^ t * unitsPerOne)

include h hpow

/-- A half above a double is a tie where the next double is one away, and is dropped above. -/
theorem roundedMagnitude_add_half :
    roundedMagnitude (m * 2 ^ e + unitsPerHalf) 1
      = e * 2 ^ 52 + if t = 0 then m + m % 2 else m := by
  have hpos := unitsPerHalf_pos
  have hone := unitsPerOne_eq
  have hstep := unitsPerOne_eq_or_lt hpow
  have hlt : unitsPerHalf < 1 * 2 ^ e := by omega
  rw [← Nat.one_mul (2 ^ e), roundedMagnitude_of_isNormal h hlt, roundHalfEven_mul_add m hlt,
    Nat.one_mul, ← hone]
  rcases hstep with ⟨hzero, hsame⟩ | ⟨hzero, hmore⟩
  · rw [if_neg (by omega), if_pos hsame, if_pos hzero]
  · rw [if_pos hmore, if_neg hzero]

/-- So is a half below the next double. -/
theorem roundedMagnitude_sub_half :
    roundedMagnitude ((m + 1) * 2 ^ e - unitsPerHalf) 1
      = e * 2 ^ 52 + if t = 0 then m + m % 2 else m + 1 := by
  have hpos := unitsPerHalf_pos
  have hone := unitsPerOne_eq
  have hstep := unitsPerOne_eq_or_lt hpow
  have hlt : 2 ^ e - unitsPerHalf < 1 * 2 ^ e := by omega
  have hbelow : (m + 1) * 2 ^ e - unitsPerHalf = m * (1 * 2 ^ e) + (2 ^ e - unitsPerHalf) := by
    rw [Nat.add_mul, Nat.one_mul]
    omega
  rw [hbelow, roundedMagnitude_of_isNormal h hlt, roundHalfEven_mul_add m hlt, Nat.one_mul]
  rcases hstep with ⟨hzero, hsame⟩ | ⟨hzero, hmore⟩
  · rw [if_neg (by omega), if_pos (by omega), if_pos hzero]
  · rw [if_neg (by omega), if_neg (by omega), if_neg hzero]

/-- Both neighbours are whole. -/
theorem isIntegral_neighbour {n : Nat} (hn : n = m ∨ n = m + 1)
    (hlt : e * 2 ^ 52 + n < infinityMagnitude) (negative : Bool) :
    isIntegral (ofMagnitude negative (e * 2 ^ 52 + n)) = true ∧
      toInt (ofMagnitude negative (e * 2 ^ 52 + n))
        = if negative then -((n * 2 ^ t : Nat) : Int) else (n * 2 ^ t : Nat) := by
  have hvalue : unitsOf (e * 2 ^ 52 + n) = n * 2 ^ t * unitsPerOne := by
    rw [Nat.mul_assoc, ← hpow]
    rcases hn with rfl | rfl
    · exact unitsOf_of_isNormal h
    · rw [← Nat.add_assoc, unitsOf_succ_of_isNormal h]
  have hunits : units (ofMagnitude negative (e * 2 ^ 52 + n)) = n * 2 ^ t * unitsPerOne := by
    rw [units_ofMagnitude negative hlt, hvalue]
  refine ⟨isIntegral_of_units (isFinite_ofMagnitude negative hlt) hunits, ?_⟩
  rw [toInt_of_units hunits, isNegative_ofMagnitude negative hlt]

end Neighbours

/-! ## Rounding half up -/

section RoundHalfUp

variable {x : Float} (hx : isIntegral x = true)

include hx

/-- Up to `2 ^ 52` a whole number is its own nearest one. -/
theorem roundHalfUp_of_small (hsmall : (2 * toInt x + 1).natAbs < 2 ^ 53) :
    isIntegral (roundHalfUp x) = true ∧ toInt (roundHalfUp x) = toInt x := by
  rw [roundHalfUp, add_half hx, floor_half hsmall]
  exact ofInt_exact (magnitude_lt (isFinite_of_isIntegral hx)) (units_of_isIntegral hx)

/-- Where the sum with one half is rounded to a whole neighbour, that one is the result. -/
theorem roundHalfUp_of_neighbour {m e t n : Nat} (hnormal : IsNormal m e)
    (hpow : 2 ^ e = 2 ^ t * unitsPerOne) (hn : n = m ∨ n = m + 1)
    (hlt : e * 2 ^ 52 + n < infinityMagnitude)
    (hrounded : roundedMagnitude ((2 * toInt x + 1).natAbs * unitsPerHalf) 1 = e * 2 ^ 52 + n) :
    isIntegral (roundHalfUp x) = true ∧
      toInt (roundHalfUp x)
        = if toInt x < 0 then -((n * 2 ^ t : Nat) : Int) else (n * 2 ^ t : Nat) := by
  obtain ⟨hintegral, htoInt⟩ := isIntegral_neighbour hnormal hpow hn hlt (decide (toInt x < 0))
  rw [roundHalfUp, add_half hx, hrounded, Nat.min_eq_left hlt.le, floor_of_isIntegral hintegral]
  refine ⟨hintegral, htoInt.trans ?_⟩
  simp only [decide_eq_true_eq]

/-- Above zero the sum with one half lies over the number. -/
theorem roundHalfUp_of_large_pos (hlarge : 2 ^ 52 ≤ toInt x) :
    isIntegral (roundHalfUp x) = true ∧ toInt (roundHalfUp x) = toInt x + toInt x % 2 := by
  have hmagnitude := magnitude_lt (isFinite_of_isIntegral hx)
  have hvalue := units_of_isIntegral hx
  obtain ⟨m, e, hnormal, hk⟩ := exists_isNormal (magnitude x)
  rw [units, hk, unitsOf_of_isNormal hnormal] at hvalue
  rw [hk] at hmagnitude
  have hm := hnormal.1
  generalize hn : (toInt x).natAbs = n at hvalue
  obtain ⟨t, he, hpow, hsame⟩ := exists_lastPlace hvalue (by omega)
  have hhalves : (2 * toInt x + 1).natAbs * unitsPerHalf = m * 2 ^ e + unitsPerHalf := by
    have habs : (2 * toInt x + 1).natAbs = n * 2 + 1 := by omega
    rw [habs, Nat.add_mul, Nat.one_mul, Nat.mul_assoc, ← unitsPerOne_eq, hvalue]
  have hrounded := roundedMagnitude_add_half hnormal hpow
  rw [← hhalves] at hrounded
  rcases eq_or_even_of_eq_mul hsame with ⟨hzero, hwhole⟩ | ⟨hzero, heven⟩
  · -- the next double is one away: the tie goes to the even one of the two
    rw [if_pos hzero] at hrounded
    have hlt : e * 2 ^ 52 + (m + m % 2) < infinityMagnitude := by
      rw [infinityMagnitude]
      omega
    obtain ⟨hintegral, htoInt⟩ :=
      roundHalfUp_of_neighbour hx hnormal hpow (by omega) hlt hrounded
    rw [hzero, Nat.pow_zero, Nat.mul_one, if_neg (by omega)] at htoInt
    exact ⟨hintegral, by omega⟩
  · rw [if_neg hzero] at hrounded
    obtain ⟨hintegral, htoInt⟩ :=
      roundHalfUp_of_neighbour hx hnormal hpow (.inl rfl) hmagnitude hrounded
    rw [← hsame, if_neg (by omega)] at htoInt
    exact ⟨hintegral, by omega⟩

/-- Below zero it lies under the absolute value. -/
theorem roundHalfUp_of_large_neg (hlarge : toInt x < -2 ^ 52) :
    isIntegral (roundHalfUp x) = true ∧ toInt (roundHalfUp x) = toInt x + toInt x % 2 := by
  have hmagnitude := magnitude_lt (isFinite_of_isIntegral hx)
  have hvalue := units_of_isIntegral hx
  have hsome : magnitude x ≠ 0 := by
    intro hzero
    have hnone : unitsOf 0 = 0 := rfl
    rw [units, hzero, hnone] at hvalue
    rcases Nat.mul_eq_zero.1 hvalue.symm with habs | hone
    · omega
    · exact unitsPerOne_pos.ne' hone
  obtain ⟨j, hj⟩ := Nat.exists_eq_succ_of_ne_zero hsome
  obtain ⟨m, e, hnormal, hk⟩ := exists_isNormal j
  rw [units, hj, hk, unitsOf_succ_of_isNormal hnormal] at hvalue
  rw [hj, hk, Nat.succ_eq_add_one, Nat.add_assoc] at hmagnitude
  have hm := hnormal.1
  generalize hn : (toInt x).natAbs = n at hvalue
  obtain ⟨t, he, hpow, hsame⟩ := exists_lastPlace hvalue (by omega)
  have hhalves : (2 * toInt x + 1).natAbs * unitsPerHalf = (m + 1) * 2 ^ e - unitsPerHalf := by
    have habs : (2 * toInt x + 1).natAbs = n * 2 - 1 := by omega
    rw [habs, Nat.sub_mul, Nat.one_mul, Nat.mul_assoc, ← unitsPerOne_eq, hvalue]
  have hrounded := roundedMagnitude_sub_half hnormal hpow
  rw [← hhalves] at hrounded
  rcases eq_or_even_of_eq_mul hsame with ⟨hzero, hwhole⟩ | ⟨hzero, heven⟩
  · rw [if_pos hzero] at hrounded
    have hlt : e * 2 ^ 52 + (m + m % 2) < infinityMagnitude := by
      rw [infinityMagnitude]
      omega
    obtain ⟨hintegral, htoInt⟩ :=
      roundHalfUp_of_neighbour hx hnormal hpow (by omega) hlt hrounded
    rw [hzero, Nat.pow_zero, Nat.mul_one, if_pos (by omega)] at htoInt
    exact ⟨hintegral, by omega⟩
  · rw [if_neg hzero] at hrounded
    obtain ⟨hintegral, htoInt⟩ :=
      roundHalfUp_of_neighbour hx hnormal hpow (.inr rfl) hmagnitude hrounded
    rw [← hsame, if_pos (by omega)] at htoInt
    exact ⟨hintegral, by omega⟩

/-- Rounding half up leaves a whole number as it is, except that an odd one beyond `2 ^ 52` moves up
by one. -/
theorem roundHalfUp_of_isIntegral :
    isIntegral (roundHalfUp x) = true ∧
      toInt (roundHalfUp x)
        = if 2 ^ 52 < (toInt x).natAbs then toInt x + toInt x % 2 else toInt x := by
  by_cases hsmall : (2 * toInt x + 1).natAbs < 2 ^ 53
  · rw [if_neg (by omega)]
    exact roundHalfUp_of_small hx hsmall
  · have hlarge : isIntegral (roundHalfUp x) = true ∧
        toInt (roundHalfUp x) = toInt x + toInt x % 2 := by
      rcases Int.lt_or_le (toInt x) 0 with hneg | hpos
      · exact roundHalfUp_of_large_neg hx (by omega)
      · exact roundHalfUp_of_large_pos hx (by omega)
    refine ⟨hlarge.1, hlarge.2.trans ?_⟩
    split <;> omega

end RoundHalfUp

/-- An odd number ends in the last place of one, so that it has 53 bits at most. -/
theorem natAbs_lt_of_odd {x : Float} (hx : isIntegral x = true) (hodd : toInt x % 2 = 1) :
    (toInt x).natAbs < 2 ^ 53 := by
  have hvalue := units_of_isIntegral hx
  obtain ⟨m, e, hnormal, hk⟩ := exists_isNormal (magnitude x)
  rw [units, hk, unitsOf_of_isNormal hnormal] at hvalue
  have hm := hnormal.1
  by_contra hlarge
  obtain ⟨t, -, -, hsame⟩ := exists_lastPlace hvalue (by omega)
  rcases eq_or_even_of_eq_mul hsame with ⟨-, hwhole⟩ | ⟨-, heven⟩ <;> omega

/-! ## Whole numbers of 64 bits -/

/-- A whole number in the range of the 64-bit integers. -/
structure IsInt64 (x : Float) : Prop where
  integral : isIntegral x = true
  lower : minInt64 ≤ toInt x
  upper : toInt x ≤ maxInt64

/-- A whole number that rounding half up leaves as it is. -/
def IsSettled (x : Float) : Prop := toInt x % 2 = 0 ∨ (toInt x).natAbs ≤ 2 ^ 52

theorem toInt64_of_isFinite {x : Float} (hx : isFinite x = true) (hlower : minInt64 ≤ toInt x)
    (hupper : toInt x ≤ maxInt64) : toInt64 x = toInt x := by
  rw [toInt64, isNaN_eq_false_of_isFinite hx, isInfinite_eq_false_of_isFinite hx,
    if_neg Bool.false_ne_true, if_neg Bool.false_ne_true, clampInt64, min_eq_right hupper,
    max_eq_right hlower]

/-- The integer that stands for an operand. -/
theorem toInt64_roundHalfUp {x : Float} (hx : IsInt64 x) :
    toInt64 (roundHalfUp x)
      = if 2 ^ 52 < (toInt x).natAbs then toInt x + toInt x % 2 else toInt x := by
  obtain ⟨hintegral, hlower, hupper⟩ := hx
  obtain ⟨hrounded, htoInt⟩ := roundHalfUp_of_isIntegral hintegral
  have hodd := natAbs_lt_of_odd hintegral
  rw [minInt64] at hlower
  rw [maxInt64] at hupper
  rw [← htoInt]
  apply toInt64_of_isFinite (isFinite_of_isIntegral hrounded) <;> rw [htoInt]
  · rw [minInt64]
    split <;> omega
  · rw [maxInt64]
    split <;> omega

theorem toInt64_roundHalfUp_of_isSettled {x : Float} (hx : IsInt64 x) (h : IsSettled x) :
    toInt64 (roundHalfUp x) = toInt x := by
  rw [toInt64_roundHalfUp hx]
  rcases h with heven | hsmall
  · rw [heven, Int.add_zero, ite_self]
  · rw [if_neg (Nat.not_lt.2 hsmall)]

/-- The truncated remainder of two whole numbers is a double. -/
theorem ofInt_tmod_exact {x y : Float} (hx : isIntegral x = true) (hy : isIntegral y = true) :
    isIntegral (ofInt ((toInt x).tmod (toInt y))) = true ∧
      toInt (ofInt ((toInt x).tmod (toInt y))) = (toInt x).tmod (toInt y) := by
  obtain ⟨k, hk, hunits⟩ := exists_unitsOf_mod (magnitude_lt (isFinite_of_isIntegral hx))
    (magnitude_lt (isFinite_of_isIntegral hy))
  refine ofInt_exact hk ?_
  have hxunits := units_of_isIntegral hx
  have hyunits := units_of_isIntegral hy
  rw [units] at hxunits hyunits
  rw [hunits, hxunits, hyunits, Nat.mul_mod_mul_right, Int.natAbs_tmod]

end LengthFormula.Double
