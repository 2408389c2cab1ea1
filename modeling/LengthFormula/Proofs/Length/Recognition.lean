import LengthFormula.Proofs.Double.Bits
import LengthFormula.Proofs.Length.Completeness

/-!
# Recognition of lengths

The reader of lengths takes what the grammar of lengths derives, with the number that it writes, and
refuses everything else (`readLength?_eq_some_iff`).  What the grammar calls a decimal and a
fraction can be told from the characters alone: digits and points read as a decimal if they hold a
digit and no second point (`isSome_read?_iff`), and digits read as zero if all of them are zeros
(`digitsDouble_eq_zero_iff`).
-/

namespace LengthFormula

/-! ## What reads as a decimal -/

section Decimals

variable {lead power cs : List Char}

/-- A power of ten has an exponent. -/
theorem PowerText.isSome_readExponent? (h : PowerText power) :
    (readExponent? power).isSome = true := by
  cases h with
  | none => rfl
  | @unsigned mark ds hexp hds =>
    rw [readExponent?, if_pos hexp]
    unfold readInteger?
    split
    · exact absurd (hds.2 '-' List.mem_cons_self) (by decide)
    · exact absurd (hds.2 '+' List.mem_cons_self) (by decide)
    · rw [readNatural?_of_isDigits hds]
      rfl
  | @signed mark sign ds hexp hsign hds =>
    rw [readExponent?, if_pos hexp]
    rw [isSign, Bool.or_eq_true, beq_iff_eq, beq_iff_eq] at hsign
    rcases hsign with rfl | rfl
    · rw [readInteger?, readNatural?_of_isDigits hds]
      rfl
    · rw [readInteger?, readNatural?_of_isDigits hds]
      rfl

/-- The digits in front of the first point, and those behind it, are read for themselves. -/
theorem read?_append {whole more : List Char} (hwhole : ∀ c ∈ whole, isDigit c = true)
    (hmore : startsWith isDigit more = false) : Decimal.read? (whole ++ more) =
      if whole.isEmpty && (fractionDigits more).1.isEmpty then none
      else (readExponent? (fractionDigits more).2).map fun e =>
        ⟨Nat.ofDigitChars 10 (whole ++ (fractionDigits more).1) 0,
          e - (fractionDigits more).1.length⟩ := by
  rw [Decimal.read?, takeWhile_append_exact hwhole hmore, dropWhile_append_exact hwhole hmore]

theorem count_dot_of_isDigit {ds : List Char} (h : ∀ c ∈ ds, isDigit c = true) :
    ds.count '.' = 0 :=
  List.count_eq_zero.2 fun hdot => absurd (h _ hdot) (by decide)

/-- Of digits and points only a point is no digit. -/
theorem exists_dot_of_isNumberLead {c : Char} {ds : List Char}
    (h : ∀ d ∈ c :: ds, isNumberLead d = true) (hc : startsWith isDigit (c :: ds) = false) :
    c = '.' := by
  have hlead := h c List.mem_cons_self
  rw [startsWith_cons] at hc
  rwa [isNumberLead, hc, Bool.false_or, isDot, beq_iff_eq] at hlead

theorem isSome_read?_of_exponent {whole more : List Char} {e : Int}
    (hwhole : ∀ c ∈ whole, isDigit c = true) (hmore : startsWith isDigit more = false)
    (he : readExponent? (fractionDigits more).2 = some e) :
    (Decimal.read? (whole ++ more)).isSome = true ↔ whole ≠ [] ∨ (fractionDigits more).1 ≠ [] := by
  rw [read?_append hwhole hmore, he]
  by_cases h : whole = [] <;> by_cases h' : (fractionDigits more).1 = [] <;> simp [h, h']

theorem exists_mem_isDigit_iff {ds : List Char} (h : ∀ c ∈ ds, isDigit c = true) :
    (∃ c ∈ ds, isDigit c = true) ↔ ds ≠ [] := by
  cases ds with
  | nil => simp
  | cons c ds => exact iff_of_true ⟨c, List.mem_cons_self, h c List.mem_cons_self⟩ (by simp)

/-- Digits and points with a power of ten behind them read as a decimal exactly when there is a
digit among them, and at most one point. -/
theorem isSome_read?_iff (hlead : ∀ c ∈ lead, isNumberLead c = true) (hpower : PowerText power) :
    (Decimal.read? (lead ++ power)).isSome = true ↔
      (∃ c ∈ lead, isDigit c = true) ∧ lead.count '.' ≤ 1 := by
  have hstop : startsWith isNumberLead (power ++ []) = false := hpower.startsWith_append rfl
  rw [List.append_nil] at hstop
  have hdigit := startsWith_isDigit_of_isNumberLead hstop
  obtain ⟨e, he⟩ := Option.isSome_iff_exists.1 hpower.isSome_readExponent?
  obtain ⟨whole, more, rfl, hwhole, hmore, -⟩ := exists_takeWhile isDigit lead
  rw [List.count_append, count_dot_of_isDigit hwhole, Nat.zero_add]
  cases more with
  | nil =>
    have hnone := fractionDigits_of_startsWith (startsWith_isDot_of_isNumberLead hstop)
    rw [List.append_nil, isSome_read?_of_exponent hwhole hdigit (by rw [hnone, he]), hnone,
      exists_mem_isDigit_iff hwhole]
    simp
  | cons c more =>
    obtain rfl :=
      exists_dot_of_isNumberLead (fun d hd => hlead d (List.mem_append_right _ hd)) hmore
    obtain ⟨part, rest, rfl, hpart, hrest, -⟩ := exists_takeWhile isDigit more
    cases rest with
    | nil =>
      have hpoint := fractionDigits_dot hpart hdigit
      rw [List.append_nil, List.append_assoc, List.cons_append,
        isSome_read?_of_exponent hwhole rfl (by rw [hpoint, he]), hpoint, List.count_cons_self,
        count_dot_of_isDigit hpart, ← exists_mem_isDigit_iff hwhole, ← exists_mem_isDigit_iff hpart]
      simp [or_and_right, exists_or, show isDigit '.' = false from rfl]
    | cons d rest =>
      -- the second point stands where the power of ten is read
      obtain rfl := exists_dot_of_isNumberLead (fun d hd => hlead d (by simp [hd])) hrest
      have hpoint : fractionDigits ('.' :: (part ++ '.' :: (rest ++ power)))
          = (part, '.' :: (rest ++ power)) := fractionDigits_dot hpart rfl
      have hread : Decimal.read? (whole ++ '.' :: (part ++ '.' :: (rest ++ power))) = none := by
        rw [read?_append hwhole rfl, hpoint]
        simp [readExponent?, show isExponentMark '.' = false from rfl]
      simp [hread]

theorem exists_decimalText_iff (hlead : ∀ c ∈ lead, isNumberLead c = true)
    (hpower : PowerText power) :
    (∃ x, DecimalText (lead ++ power) x) ↔ (Decimal.read? (lead ++ power)).isSome = true := by
  rw [Option.isSome_iff_exists]
  constructor
  · generalize lead ++ power = cs
    rintro ⟨x, h⟩
    cases h with
    | intro _ _ hread => exact ⟨_, hread⟩
  · rintro ⟨d, hread⟩
    exact ⟨_, .intro hlead hpower hread⟩

end Decimals

/-! ## What reads as zero -/

/-- Digits read as zero only if all of them are zeros. -/
theorem digitsDouble_eq_zero_iff {ds : List Char} :
    digitsDouble ds = 0.0 ↔ Nat.ofDigitChars 10 ds 0 = 0 := by
  rw [digitsDouble, Decimal.toDouble]
  constructor
  · intro h
    by_contra hne
    have hpos : 0 < Decimal.magnitude ⟨Nat.ofDigitChars 10 ds 0, 0⟩ := by
      rw [Decimal.magnitude_eq]
      exact Double.nearestMagnitude_pos Nat.one_pos (Nat.one_le_iff_ne_zero.2 (by simpa using hne))
    have hle : Decimal.magnitude ⟨Nat.ofDigitChars 10 ds 0, 0⟩ ≤ Double.infinityMagnitude := by
      rw [Decimal.magnitude_eq]
      exact Nat.min_le_right _ _
    rcases Nat.lt_or_eq_of_le hle with hlt | heq
    · have hzero := Double.magnitude_ofMagnitude false hlt
      rw [h, show Double.magnitude 0.0 = 0 by decide] at hzero
      exact Nat.ne_of_gt hpos hzero.symm
    · rw [heq] at h
      exact absurd h (by decide)
  · intro h
    rw [h, Decimal.magnitude_zero]
    decide

/-- Digits around a bar are a fraction exactly if those behind it are not all zero. -/
theorem exists_fractionText_iff {a b : List Char} (ha : IsDigits a) (hb : IsDigits b) :
    (∃ z, FractionText (a ++ '/' :: b) z) ↔ Nat.ofDigitChars 10 b 0 ≠ 0 := by
  refine ⟨?_, fun hvalue => ⟨_, .intro ha hb hvalue⟩⟩
  rintro ⟨z, hz⟩ hzero
  have hfound : takeFraction? (a ++ '/' :: b ++ []) = some (z, []) := hz.takeFraction?_append rfl
  rw [List.append_assoc, List.cons_append, LengthFormula.takeFraction?_append ha hb.2 rfl,
    if_pos hzero] at hfound
  cases hfound

/-- A text is read as a length exactly when it is one of the grammar, or a minus in front of one,
and then it is read as the number that it writes, negated behind the minus.  In the grammar a
decimal is digits and points with at least one digit and at most one point, and a power of ten or
none; a fraction has a denominator that does not read as zero. -/
theorem readLength?_eq_some_iff :
    (∀ text v, readLength? text = some v ↔
      LengthText text v ∨ ∃ body u, text = '-' :: body ∧ LengthText body u ∧ v = -u) ∧
    (∀ lead power, (∀ c ∈ lead, isNumberLead c = true) → PowerText power →
      ((∃ x, DecimalText (lead ++ power) x) ↔
        (∃ c ∈ lead, isDigit c = true) ∧ lead.count '.' ≤ 1)) ∧
    ∀ a b, IsDigits a → IsDigits b →
      ((∃ x, FractionText (a ++ '/' :: b) x) ↔ digitsDouble b ≠ 0.0) := by
  refine ⟨?_, ?_, ?_⟩
  · intro text v
    constructor
    · exact lengthText_of_readLength?
    · rintro (h | ⟨body, u, rfl, h, rfl⟩)
      · rw [readLength?_of_opensNumber h.opensNumber, h.readUnsignedLength?_eq]
      · rw [readLength?, if_pos (show isMinus '-' = true from rfl), h.readUnsignedLength?_eq]
        rfl
  · intro lead power hlead hpower
    rw [exists_decimalText_iff hlead hpower, isSome_read?_iff hlead hpower]
  · intro a b ha hb
    rw [exists_fractionText_iff ha hb]
    exact not_congr digitsDouble_eq_zero_iff.symm

/-- Feet, inches and a fraction of an inch are a length; with two points there is no decimal, and
with nothing but zeros behind the bar no fraction. -/
theorem readLength?_eq_some_iff_forms :
    (∃ u, LengthText "5'-6 1/2\"".toList u ∧ (-66.5 : Float) = -u) ∧
      (¬ ∃ x, DecimalText ("1.2.3".toList ++ []) x) ∧
      ¬ ∃ x, FractionText ("1".toList ++ '/' :: "00".toList) x := by
  obtain ⟨htexts, hdecimals, hfractions⟩ := readLength?_eq_some_iff
  refine ⟨?_, ?_, ?_⟩
  · have hread : readLength? "-5'-6 1/2\"".toList = some (-66.5) := by decide +kernel
    rcases (htexts _ _).1 hread with h | ⟨body, u, htext, h, hu⟩
    · exact absurd h.opensNumber (by decide)
    · rw [← (List.cons.inj htext).2] at h
      exact ⟨u, h, hu⟩
  · rw [hdecimals _ _ (List.all_eq_true.1 (by decide +kernel)) .none]
    exact fun h => absurd h.2 (by decide +kernel)
  · have hone : IsDigits "1".toList := ⟨by decide +kernel, List.all_eq_true.1 (by decide +kernel)⟩
    have hzeros : IsDigits "00".toList :=
      ⟨by decide +kernel, List.all_eq_true.1 (by decide +kernel)⟩
    rw [hfractions _ _ hone hzeros, not_not]
    decide +kernel

end LengthFormula
