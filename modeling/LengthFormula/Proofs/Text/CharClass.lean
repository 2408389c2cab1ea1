import LengthFormula.Text.CharClass

/-!
# Character classes apart

The characters of names are apart from white space and, but for the digits and the exponent marks,
from the characters of numbers.  Digits and points are apart from signs, exponent marks and spacers.
-/

namespace LengthFormula

/-- No range of one set meets a range of the other. -/
def CodeRanges.apart (a b : CodeRanges) : Bool :=
  a.all fun r => b.all fun s => r.2 < s.1 || s.2 < r.1

theorem CodeRanges.has_of_apart {a b : CodeRanges} (h : a.apart b = true) {c : Char}
    (ha : a.has c = true) : b.has c = false := by
  rw [Bool.eq_false_iff]
  intro hb
  obtain ⟨r, hr, hlo, hhi⟩ := CodeRanges.has_iff.1 ha
  obtain ⟨s, hs, hlo', hhi'⟩ := CodeRanges.has_iff.1 hb
  have hrs := List.all_eq_true.1 (List.all_eq_true.1 h r hr) s hs
  simp only [Bool.or_eq_true, decide_eq_true_eq] at hrs
  omega

/-- The ranges hold the letters and digits of the ASCII range as well. -/
theorem has_of_isAlphanumeric {c : Char} (h : isAlphanumeric c = true) :
    alphanumericRanges.has c = true := by
  unfold isAlphanumeric at h
  split at h
  · rcases isAlphanum_iff.1 h with (h | h) | h
    · exact CodeRanges.has_iff.2 ⟨(0x41, 0x5A), .tail _ (.head _), h⟩
    · exact CodeRanges.has_iff.2 ⟨(0x61, 0x7A), .tail _ (.tail _ (.head _)), h⟩
    · exact CodeRanges.has_iff.2 ⟨(0x30, 0x39), .head _, h⟩
  · exact h

/-- Letters, numerals and the underscore lie outside the white space. -/
theorem isBlank_of_isWord {c : Char} (h : isWord c = true) : isBlank c = false := by
  rw [isWord, Bool.or_eq_true, beq_iff_eq] at h
  rcases h with rfl | h
  · decide
  · exact CodeRanges.has_of_apart (by decide +kernel) (has_of_isAlphanumeric h)

/-- A class tells its characters from those outside of it. -/
theorem ne_of_class {p : Char → Bool} {c d : Char} (h : p c = true) (hd : p d = false) : c ≠ d := by
  rintro rfl
  rw [h] at hd
  cases hd

/-! ## Names -/

/-- A character that may open a name. -/
def opensWord (c : Char) : Bool := isWord c && !isDigit c

theorem opensWord_iff {c : Char} : opensWord c = true ↔ isWord c = true ∧ isDigit c = false := by
  simp [opensWord]

theorem ne_of_isWord {c d : Char} (h : isWord c = true) (hd : isWord d = false) : c ≠ d :=
  ne_of_class h hd

theorem isSign_of_isWord {c : Char} (h : isWord c = true) : isSign c = false := by
  rw [isSign, Bool.or_eq_false_iff, beq_eq_false_iff_ne, beq_eq_false_iff_ne]
  exact ⟨ne_of_isWord h (by decide), ne_of_isWord h (by decide)⟩

theorem isNumberLead_of_opensWord {c : Char} (h : opensWord c = true) : isNumberLead c = false := by
  obtain ⟨hword, hdigit⟩ := opensWord_iff.1 h
  rw [isNumberLead, hdigit, Bool.false_or, isDot, beq_eq_false_iff_ne]
  exact ne_of_isWord hword (by decide)

/-! ## Numbers -/

section Numbers

variable {c : Char}

theorem isNumberLead_of_isDigit (h : isDigit c = true) : isNumberLead c = true := by
  rw [isNumberLead, h, Bool.true_or]

/-- A digit is its own small letter. -/
theorem toLower_of_isDigit (h : isDigit c = true) : c.toLower = c := by
  rw [isDigit, Char.isDigit, Bool.and_eq_true, decide_eq_true_eq, decide_eq_true_eq] at h
  refine dif_neg fun hupper => ?_
  exact absurd (UInt32.le_trans hupper.1 h.2) (by decide)

theorem isDigit_of_isNumberLead_eq_false (h : isNumberLead c = false) : isDigit c = false := by
  rw [isNumberLead, Bool.or_eq_false_iff] at h
  exact h.1

theorem isBlank_of_isNumberLead (h : isNumberLead c = true) : isBlank c = false := by
  rw [isNumberLead, Bool.or_eq_true] at h
  rcases h with h | h
  · exact isBlank_of_isWord (isWord_of_isDigit h)
  · rw [isDot, beq_iff_eq] at h
    subst h
    decide

theorem isSign_of_isNumberLead (h : isNumberLead c = true) : isSign c = false := by
  rw [isSign, Bool.or_eq_false_iff, beq_eq_false_iff_ne, beq_eq_false_iff_ne]
  exact ⟨ne_of_class h rfl, ne_of_class h rfl⟩

theorem isMinus_of_isNumberLead (h : isNumberLead c = true) : isMinus c = false := by
  rw [isMinus, beq_eq_false_iff_ne]
  exact ne_of_class h rfl

theorem isExponentMark_of_isNumberLead (h : isNumberLead c = true) : isExponentMark c = false := by
  rw [isExponentMark, Bool.or_eq_false_iff, beq_eq_false_iff_ne, beq_eq_false_iff_ne]
  exact ⟨ne_of_class h rfl, ne_of_class h rfl⟩

theorem isSpacer_of_isNumberLead (h : isNumberLead c = true) : isSpacer c = false := by
  rw [isSpacer, Bool.or_eq_false_iff, beq_eq_false_iff_ne, beq_eq_false_iff_ne]
  exact ⟨ne_of_class h rfl, ne_of_class h rfl⟩

/-- A class that holds neither the minus nor the space holds no spacer. -/
theorem of_isSpacer {p : Char → Bool} (h : isSpacer c = true) (hminus : p '-' = false)
    (hspace : p ' ' = false) : p c = false := by
  rw [isSpacer, Bool.or_eq_true, beq_iff_eq, beq_iff_eq] at h
  rcases h with rfl | rfl
  · exact hminus
  · exact hspace

theorem isNumberLead_of_isSpacer (h : isSpacer c = true) : isNumberLead c = false :=
  of_isSpacer h rfl rfl

theorem isExponentMark_of_isSpacer (h : isSpacer c = true) : isExponentMark c = false :=
  of_isSpacer h rfl rfl

theorem isFractionBar_of_isSpacer (h : isSpacer c = true) : isFractionBar c = false :=
  of_isSpacer h rfl rfl

theorem isFootMark_of_isSpacer (h : isSpacer c = true) : isFootMark c = false :=
  of_isSpacer h rfl rfl

end Numbers

end LengthFormula
