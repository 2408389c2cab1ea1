import LengthFormula.Decimal.Layout
import LengthFormula.Decimal.Reading
import LengthFormula.Proofs.Decimal.Magnitude

/-!
# Plain text of doubles

The text of a double in a formula is digits with at most one point among them (`PlainDecimal`), and
it is the text of a decimal that rounds to the double again (`Layout.formula_magnitudeText`).
-/

namespace LengthFormula

/-- The digits of the text are one or more and nothing else. -/
def IsDigits (cs : List Char) : Prop := cs ≠ [] ∧ ∀ c ∈ cs, isDigit c = true

/-- A text without a power of ten, and the decimal that it writes. -/
inductive PlainDecimal : List Char → Decimal → Prop
  /-- Digits alone. -/
  | whole {cs : List Char} : IsDigits cs → PlainDecimal cs ⟨Nat.ofDigitChars 10 cs 0, 0⟩
  /-- Digits around a point. -/
  | point {a b : List Char} : IsDigits a → IsDigits b →
      PlainDecimal (a ++ '.' :: b) ⟨Nat.ofDigitChars 10 (a ++ b) 0, -b.length⟩

/-! ## Reading -/

section Digits

variable {p : Char → Bool} {a b : List Char}

theorem takeWhile_of_forall (h : ∀ c ∈ a, p c = true) : a.takeWhile p = a := by
  rw [← List.append_nil a, List.takeWhile_append_of_pos h, List.takeWhile_nil]

theorem dropWhile_of_forall (h : ∀ c ∈ a, p c = true) : a.dropWhile p = [] := by
  rw [← List.append_nil a, List.dropWhile_append_of_pos h, List.dropWhile_nil]

end Digits

namespace PlainDecimal

variable {cs : List Char} {d : Decimal}

/-- The text is read as the decimal that it writes. -/
theorem read?_eq (h : PlainDecimal cs d) : Decimal.read? cs = some d := by
  cases h with
  | whole hcs =>
    obtain ⟨hne, hdigits⟩ := hcs
    simp [Decimal.read?, takeWhile_of_forall hdigits, dropWhile_of_forall hdigits, fractionDigits,
      readExponent?, hne]
  | @point a b ha hb =>
    obtain ⟨hne, hdigits⟩ := ha
    have htake : (a ++ '.' :: b).takeWhile isDigit = a := by
      rw [List.takeWhile_append_of_pos hdigits, List.takeWhile_cons]
      exact List.append_nil a
    have hdrop : (a ++ '.' :: b).dropWhile isDigit = '.' :: b := by
      rw [List.dropWhile_append_of_pos hdigits]
      rfl
    simp [Decimal.read?, htake, hdrop, fractionDigits, takeWhile_of_forall hb.2,
      dropWhile_of_forall hb.2, readExponent?, hne]

/-- Only digits and points stand in the text. -/
theorem isNumberLead (h : PlainDecimal cs d) : ∀ c ∈ cs, isNumberLead c = true := by
  have lead : ∀ {c : Char}, isDigit c = true → LengthFormula.isNumberLead c = true := fun h => by
    rw [LengthFormula.isNumberLead, h, Bool.true_or]
  cases h with
  | whole hcs => exact fun c hc => lead (hcs.2 c hc)
  | point ha hb =>
    intro c hc
    rcases List.mem_append.1 hc with hc | hc
    · exact lead (ha.2 c hc)
    · rcases List.mem_cons.1 hc with rfl | hc
      · rfl
      · exact lead (hb.2 c hc)

/-- The text starts with a digit. -/
theorem exists_cons (h : PlainDecimal cs d) : ∃ c ds, cs = c :: ds ∧ isDigit c = true := by
  have first : ∀ {a : List Char} (b : List Char), IsDigits a →
      ∃ c ds, a ++ b = c :: ds ∧ isDigit c = true := by
    rintro (_ | ⟨c, a⟩) b ⟨hne, hdigits⟩
    · exact absurd rfl hne
    · exact ⟨c, a ++ b, rfl, hdigits c List.mem_cons_self⟩
  cases h with
  | whole hcs => simpa using first [] hcs
  | point ha hb => exact first _ ha

end PlainDecimal

/-! ## Writing -/

namespace Significant

/-- The decimal with these digits. -/
def toDecimal (s : Significant) : Decimal :=
  ⟨Nat.ofDigitChars 10 s.digits 0, s.exponent + 1 - s.digits.length⟩

theorem isDigit_zero : isDigit '0' = true := rfl

/-- The digits without the zeros at their end and these zeros make up the digits. -/
theorem exists_zeros (all : List Char) :
    ∃ j, all = (all.reverse.dropWhile (· == '0')).reverse ++ List.replicate j '0' := by
  refine ⟨(all.reverse.takeWhile (· == '0')).length, ?_⟩
  have hzeros : all.reverse.takeWhile (· == '0')
      = List.replicate (all.reverse.takeWhile (· == '0')).length '0' := by
    refine List.eq_replicate_of_mem ?_
    intro c hc
    have := List.all_eq_true.1 List.all_takeWhile c hc
    simpa using this
  have hall := List.takeWhile_append_dropWhile (p := (· == '0')) (l := all.reverse)
  have hreverse := congrArg List.reverse hall
  rw [List.reverse_append, List.reverse_reverse, hzeros, List.reverse_replicate] at hreverse
  exact hreverse.symm

theorem isDigits_ofDecimal (d : Decimal) : IsDigits (ofDecimal d).digits := by
  obtain ⟨j, hj⟩ := exists_zeros (Nat.toDigits 10 d.coefficient)
  simp only [ofDecimal]
  split
  · exact ⟨by simp, by simp [isDigit_zero]⟩
  · next hkept =>
    refine ⟨by simpa using hkept, fun c hc => ?_⟩
    refine Nat.isDigit_of_mem_toDigits (b := 10) (n := d.coefficient) (by decide) (by decide) ?_
    rw [hj]
    exact List.mem_append_left _ hc

/-- The digits of a decimal round as it does. -/
theorem magnitude_toDecimal_ofDecimal (d : Decimal) :
    (ofDecimal d).toDecimal.magnitude = d.magnitude := by
  obtain ⟨n, e⟩ := d
  obtain ⟨j, hj⟩ := exists_zeros (Nat.toDigits 10 n)
  have hn : n = Nat.ofDigitChars 10
      ((Nat.toDigits 10 n).reverse.dropWhile (· == '0')).reverse 0 * 10 ^ j := by
    conv => lhs; rw [← Nat.ofDigitChars_ten_toDigits (n := n), hj]
    rw [Nat.ofDigitChars_append, Nat.ofDigitChars_replicate_zero, Nat.mul_comm]
  have hlength := congrArg List.length hj
  rw [List.length_append, List.length_replicate] at hlength
  simp only [ofDecimal, toDecimal]
  generalize ((Nat.toDigits 10 n).reverse.dropWhile (· == '0')).reverse = kept at hn hlength ⊢
  split
  · next hnil =>
    rw [List.isEmpty_iff] at hnil
    rw [hnil, Nat.ofDigitChars_nil, Nat.zero_mul] at hn
    rw [hn]
    exact (Decimal.magnitude_zero _).trans (Decimal.magnitude_zero e).symm
  · conv => rhs; rw [hn]
    rw [Decimal.magnitude_shift]
    congr 2
    omega

/-- Written without a power of ten, digits are the text of a decimal that rounds as theirs. -/
theorem plainDecimal_plain {s : Significant} (h : IsDigits s.digits) (keepsPoint : Bool) :
    ∃ d, PlainDecimal (s.plain keepsPoint) d ∧ d.magnitude = s.toDecimal.magnitude := by
  obtain ⟨digits, exponent⟩ := s
  obtain ⟨hne, hdigits⟩ := h
  simp only at hne hdigits
  simp only [plain, toDecimal]
  split
  · next hexponent =>
    split
    · next hlength =>
      -- zeros up to the point, and perhaps one behind it
      obtain ⟨j, hj⟩ : ∃ j, exponent.toNat + 1 - digits.length = j := ⟨_, rfl⟩
      rw [hj]
      have hwhole : IsDigits (digits ++ List.replicate j '0') := by
        refine ⟨by simp [hne], fun c hc => ?_⟩
        rcases List.mem_append.1 hc with hc | hc
        · exact hdigits c hc
        · rw [List.eq_of_mem_replicate hc]
          rfl
      have hvalue : ∀ i, Nat.ofDigitChars 10 (digits ++ List.replicate i '0') 0
          = Nat.ofDigitChars 10 digits 0 * 10 ^ i := by
        intro i
        rw [Nat.ofDigitChars_append, Nat.ofDigitChars_replicate_zero, Nat.mul_comm]
      cases keepsPoint with
      | false =>
        rw [if_neg Bool.false_ne_true, List.append_nil]
        refine ⟨_, .whole hwhole, ?_⟩
        rw [hvalue, Decimal.magnitude_shift]
        congr 2
        omega
      | true =>
        have hzero : digits ++ List.replicate j '0' ++ ['0']
            = digits ++ List.replicate (j + 1) '0' := by
          rw [List.append_assoc, List.replicate_succ']
        rw [if_pos rfl]
        refine ⟨_, .point hwhole ⟨by simp, by simp [isDigit_zero]⟩, ?_⟩
        rw [hzero, hvalue, Decimal.magnitude_shift, List.length_singleton]
        congr 2
        omega
    · next hlength =>
      have hpoint : PlainDecimal (digits.take (exponent.toNat + 1) ++ '.' ::
          digits.drop (exponent.toNat + 1)) _ :=
        .point ⟨by simp [hne], fun c hc => hdigits c (List.mem_of_mem_take hc)⟩
          ⟨by simpa using hlength, fun c hc => hdigits c (List.mem_of_mem_drop hc)⟩
      rw [List.append_assoc]
      refine ⟨_, hpoint, ?_⟩
      rw [List.take_append_drop, List.length_drop]
      congr 2
      omega
  · next hexponent =>
    -- zeros between the point and the digits
    obtain ⟨j, hj⟩ : ∃ j : Nat, (-exponent - 1).toNat = j := ⟨_, rfl⟩
    rw [hj]
    have hpoint : PlainDecimal (['0'] ++ '.' :: (List.replicate j '0' ++ digits)) _ :=
      .point ⟨by simp, by simp [isDigit_zero]⟩ ⟨by simp [hne], fun c hc => by
        rcases List.mem_append.1 hc with hc | hc
        · rw [List.eq_of_mem_replicate hc]
          rfl
        · exact hdigits c hc⟩
    rw [List.append_assoc]
    refine ⟨_, hpoint, ?_⟩
    have hvalue : Nat.ofDigitChars 10 (['0'] ++ (List.replicate j '0' ++ digits)) 0
        = Nat.ofDigitChars 10 digits 0 := by
      rw [← List.append_assoc, ← List.replicate_one, List.replicate_append_replicate,
        Nat.ofDigitChars_append, Nat.ofDigitChars_replicate_zero, Nat.mul_zero]
    rw [hvalue, List.length_append, List.length_replicate]
    congr 2
    omega

end Significant

/-- A finite double is written as its sign and the digits of its magnitude. -/
theorem Layout.chars_of_isFinite (layout : Layout) {x : Float} (h : Double.isFinite x = true) :
    layout.chars x = (if Double.isNegative x then ['-'] else [])
      ++ layout.magnitudeText (Double.magnitude x) := by
  have hnan := Double.isNaN_eq_false_of_isFinite h
  have hinfinite := Double.isInfinite_eq_false_of_isFinite h
  simp only [chars, hnan, hinfinite, Bool.false_eq_true, if_false]

/-- The text of a finite magnitude in a formula is the text of a decimal that rounds to it. -/
theorem Layout.formula_magnitudeText {k : Nat} (h : k < Double.infinityMagnitude) :
    ∃ d, PlainDecimal (formula.magnitudeText k) d ∧ d.magnitude = k := by
  obtain ⟨d, hd, hmagnitude⟩ := Significant.plainDecimal_plain
    (Significant.isDigits_ofDecimal (Decimal.shortest .away k)) false
  refine ⟨d, hd, ?_⟩
  rw [hmagnitude, Significant.magnitude_toDecimal_ofDecimal, Decimal.magnitude_shortest .away h]

end LengthFormula
