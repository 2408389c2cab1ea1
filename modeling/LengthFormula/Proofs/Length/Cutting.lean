import LengthFormula.Proofs.Formula.PutIn
import LengthFormula.Proofs.Length.Grammar

/-!
# Cutting lengths into parts

How the scanner of literals cuts the pieces of a length off the front of a text: decimals, feet and
fractions, each in front of whatever does not continue it.
-/

namespace LengthFormula

/-! ## Characters of numbers -/

/-- A character of a decimal or of a fraction. -/
def inNumber (c : Char) : Bool :=
  isNumberLead c || isExponentMark c || isSign c || isFractionBar c

theorem inNumber_of_isNumberLead {c : Char} (h : isNumberLead c = true) : inNumber c = true := by
  simp [inNumber, h]

theorem inNumber_of_isDigit {c : Char} (h : isDigit c = true) : inNumber c = true :=
  inNumber_of_isNumberLead (isNumberLead_of_isDigit h)

theorem isBlank_of_inNumber {c : Char} (h : inNumber c = true) : isBlank c = false := by
  simp only [inNumber, Bool.or_eq_true] at h
  rcases h with ((h | h) | h) | h
  · exact isBlank_of_isNumberLead h
  · exact isBlank_of_isWord (isWord_of_isExponentMark h)
  · rw [isSign, Bool.or_eq_true, beq_iff_eq, beq_iff_eq] at h
    rcases h with rfl | rfl <;> decide
  · rw [isFractionBar, beq_iff_eq] at h
    rw [h]
    decide

theorem isFootMark_of_inNumber {c : Char} (h : inNumber c = true) : isFootMark c = false := by
  rw [isFootMark, beq_eq_false_iff_ne]
  rintro rfl
  exact absurd h (by decide)

theorem PowerText.inNumber {cs : List Char} (h : PowerText cs) :
    ∀ c ∈ cs, LengthFormula.inNumber c = true := by
  have hmark : ∀ {c : Char}, isExponentMark c = true → LengthFormula.inNumber c = true := by
    intro c hc
    simp [LengthFormula.inNumber, hc]
  cases h with
  | none => simp
  | unsigned hexp hds =>
    exact List.forall_mem_cons.2 ⟨hmark hexp, fun c hc => inNumber_of_isDigit (hds.2 c hc)⟩
  | signed hexp hsign hds =>
    refine List.forall_mem_cons.2 ⟨hmark hexp, List.forall_mem_cons.2 ⟨?_, ?_⟩⟩
    · simp [LengthFormula.inNumber, hsign]
    · exact fun c hc => inNumber_of_isDigit (hds.2 c hc)

theorem DecimalText.inNumber {cs : List Char} {x : Float} (h : DecimalText cs x) :
    ∀ c ∈ cs, LengthFormula.inNumber c = true := by
  cases h with
  | intro hlead hpower _ =>
    exact List.forall_mem_append.2
      ⟨fun c hc => inNumber_of_isNumberLead (hlead c hc), hpower.inNumber⟩

theorem FractionText.inNumber {cs : List Char} {x : Float} (h : FractionText cs x) :
    ∀ c ∈ cs, LengthFormula.inNumber c = true := by
  cases h with
  | intro ha hb _ =>
    refine List.forall_mem_append.2 ⟨fun c hc => inNumber_of_isDigit (ha.2 c hc), ?_⟩
    exact List.forall_mem_cons.2 ⟨rfl, fun c hc => inNumber_of_isDigit (hb.2 c hc)⟩

/-! ## How decimals and fractions open -/

/-- What reads as a decimal opens a number. -/
theorem opensNumber_of_read? {cs : List Char} {d : Decimal} (h : Decimal.read? cs = some d) :
    opensNumber cs = true := by
  cases cs with
  | nil => cases h
  | cons c cs =>
    by_cases hdigit : isDigit c = true
    · exact opensNumber_of_isDigit hdigit
    · have htake : (c :: cs).takeWhile isDigit = [] := by simp [hdigit]
      have hdrop : (c :: cs).dropWhile isDigit = c :: cs := by simp [hdigit]
      rw [Decimal.read?, htake, hdrop] at h
      by_cases hdot : c = '.'
      · subst hdot
        simp only [fractionDigits, List.isEmpty_nil, Bool.true_and] at h
        split at h
        · cases h
        · next hpart =>
          cases cs with
          | nil => exact absurd rfl hpart
          | cons d cs =>
            by_cases hd : isDigit d = true
            · simp [opensNumber, digitAfter, isDot, hd]
            · simp [hd] at hpart
      · have hnone : fractionDigits (c :: cs) = ([], c :: cs) :=
          fractionDigits_of_startsWith (beq_eq_false_iff_ne.2 hdot)
        simp only [hnone] at h
        cases h

theorem opensNumber_append_right {a : List Char} (h : opensNumber a = true) (rest : List Char) :
    opensNumber (a ++ rest) = true := by
  match a, h with
  | [c], h =>
    have hdigit : isDigit c = true := by simpa [opensNumber, digitAfter] using h
    exact opensNumber_of_isDigit hdigit
  | c :: d :: a, h => simpa [opensNumber, digitAfter] using h

theorem DecimalText.opensNumber {cs : List Char} {x : Float} (h : DecimalText cs x) :
    LengthFormula.opensNumber cs = true := by
  cases h with
  | intro _ _ hread => exact opensNumber_of_read? hread

theorem FractionText.startsWith_isDigit {cs : List Char} {x : Float} (h : FractionText cs x) :
    startsWith isDigit cs = true := by
  cases h with
  | @intro a b ha _ _ =>
    obtain ⟨hne, hdigits⟩ := ha
    cases a with
    | nil => exact absurd rfl hne
    | cons c a =>
      rw [List.cons_append, startsWith_cons]
      exact hdigits c List.mem_cons_self

/-- A length opens a number. -/
theorem LengthText.opensNumber {cs : List Char} {v : Float} (h : LengthText cs v) :
    LengthFormula.opensNumber cs = true := by
  cases h with
  | fraction hcs =>
    have hfirst := hcs.startsWith_isDigit
    refine opensNumber_append_right ?_ _
    rw [LengthFormula.opensNumber, hfirst, Bool.true_or]
  | decimal hcs => exact hcs.opensNumber
  | marked hcs | feet hcs => exact opensNumber_append_right hcs.opensNumber _
  | feetInches ha => exact opensNumber_append_right ha.opensNumber _
  | mixed ha => exact opensNumber_append_right ha.opensNumber _

/-- Without a sign a length is read as one without a sign. -/
theorem readLength?_of_opensNumber {cs : List Char} (h : opensNumber cs = true) :
    readLength? cs = readUnsignedLength? cs := by
  cases cs with
  | nil => cases h
  | cons c cs =>
    have hminus := isMinus_of_isNumberLead (isNumberLead_of_opensNumber h)
    rw [readLength?, if_neg (Bool.eq_false_iff.1 hminus)]

/-! ## Cutting off each part -/

section Parts

variable {p : Char → Bool} {a b rest : List Char} {c : Char}

theorem DecimalText.decimalPart_append {x : Float} (h : DecimalText a x)
    (hrest : startsWith isNumberLead rest = false)
    (hmark : startsWith isExponentMark rest = false) : decimalPart (a ++ rest) = a := by
  cases h with
  | intro hlead hpower _ => exact decimalPart_append_exact hlead hpower hrest hmark

/-- Behind a foot mark come digits and points, behind a spacer only if a digit comes first. -/
theorem feetPart_append {gap lead : List Char} (hgap : IsGap gap) (hne : lead ≠ [])
    (hlead : ∀ c ∈ lead, isNumberLead c = true) (hdigit : gap = [] ∨ startsWith isDigit lead = true)
    (hrest : startsWith isNumberLead rest = false) :
    feetPart ('\x27' :: (gap ++ (lead ++ rest))) = '\x27' :: (gap ++ lead) := by
  obtain ⟨d, ds, rfl⟩ := List.exists_cons_of_ne_nil hne
  have htake := takeWhile_append_exact hlead hrest
  rw [feetPart, if_pos (show isFootMark '\x27' = true from rfl)]
  rcases hgap with rfl | ⟨c, hspacer, rfl⟩
  · have hfirst : digitAfter isSpacer ([] ++ (d :: ds ++ rest)) = false := by
      simp [digitAfter, isSpacer_of_isNumberLead (hlead d List.mem_cons_self)]
    rw [if_neg (Bool.eq_false_iff.1 hfirst), List.nil_append, htake, List.nil_append]
  · have hd : isDigit d = true := by simpa using hdigit
    have hfirst : digitAfter isSpacer ([c] ++ (d :: ds ++ rest)) = true := by
      simp [digitAfter, hspacer, hd]
    rw [if_pos hfirst]
    simpa using htake

theorem separated_append (hb : IsDigits b) (hrest : startsWith isDigit rest = false) (c : Char) :
    separated (c :: (b ++ rest)) = c :: b := by
  rw [separated, List.tail_cons, takeWhile_append_exact hb.2 hrest]
  rfl

theorem digitAfter_cons (hc : p c = true) (hb : IsDigits b) (rest : List Char) :
    digitAfter p (c :: (b ++ rest)) = true := by
  obtain ⟨hne, hdigits⟩ := hb
  obtain ⟨d, ds, rfl⟩ := List.exists_cons_of_ne_nil hne
  simp [digitAfter, hc, hdigits d List.mem_cons_self]

theorem digitAfter_of_startsWith (h : startsWith p rest = false) : digitAfter p rest = false := by
  rw [digitAfter, h, Bool.false_and]

/-- A bar and digits are a fraction part. -/
theorem fractionPart_bar (hb : IsDigits b) (hrest : startsWith isDigit rest = false) :
    fractionPart ('/' :: (b ++ rest)) = ('/' :: b, true) := by
  rw [fractionPart, if_pos (digitAfter_cons rfl hb rest), separated_append hb hrest]

/-- A spacer and a fraction are a fraction part. -/
theorem fractionPart_spacer {f : List Char} {x : Float} (hc : isSpacer c = true)
    (hf : FractionText f x) (hrest : startsWith isDigit rest = false) :
    fractionPart (c :: (f ++ rest)) = (c :: f, true) := by
  cases hf with
  | @intro a b ha hb _ =>
    have hbar : digitAfter isFractionBar (c :: (a ++ '/' :: b ++ rest)) = false :=
      digitAfter_of_startsWith (by rw [startsWith_cons, isFractionBar_of_isSpacer hc])
    have hwhole : separated (c :: (a ++ ('/' :: (b ++ rest)))) = c :: a :=
      separated_append ha rfl c
    have hdrop : (c :: (a ++ ('/' :: (b ++ rest)))).drop (c :: a).length = '/' :: (b ++ rest) := by
      simp
    rw [fractionPart, if_neg (Bool.eq_false_iff.1 hbar), List.append_assoc, List.cons_append,
      if_pos (digitAfter_cons hc ha _), hwhole]
    simp only [hdrop]
    rw [if_pos (digitAfter_cons rfl hb rest), separated_append hb hrest]
    rfl

/-- Where no bar and no spacer comes first there is no fraction part. -/
theorem fractionPart_eq_nil (hbar : digitAfter isFractionBar rest = false)
    (hspacer : digitAfter isSpacer rest = false) : fractionPart rest = ([], false) := by
  rw [fractionPart, if_neg (Bool.eq_false_iff.1 hbar), if_neg (Bool.eq_false_iff.1 hspacer)]

end Parts

end LengthFormula
