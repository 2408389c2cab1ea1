import LengthFormula.Length.Scan
import LengthFormula.Proofs.Decimal.PlainText
import LengthFormula.Proofs.Text.CharClass

/-!
# The parts of decimals

Digits, and digits with points, are cut off a text as far as they go.  A power of ten is a text of
its own (`PowerText`), and it is cut off in front of whatever does not continue it
(`PowerText.powerPart_append`, `decimalPart_append_exact`).
-/

namespace LengthFormula

/-! ## Taking characters of a class -/

section Classes

variable {p : Char → Bool} {a rest : List Char}

theorem takeWhile_eq_nil_of_startsWith {cs : List Char}
    (h : startsWith p cs = false) : cs.takeWhile p = [] := by
  cases cs with
  | nil => rfl
  | cons c cs =>
    rw [startsWith_cons] at h
    rw [List.takeWhile_cons, if_neg (Bool.eq_false_iff.1 h)]

theorem takeWhile_ne_nil_of_startsWith {cs : List Char} (h : startsWith p cs = true) :
    cs.takeWhile p ≠ [] := by
  cases cs with
  | nil => cases h
  | cons c cs =>
    rw [startsWith_cons] at h
    simp [h]

theorem takeWhile_append_exact (ha : ∀ c ∈ a, p c = true) (hrest : startsWith p rest = false) :
    (a ++ rest).takeWhile p = a := by
  rw [List.takeWhile_append_of_pos ha, takeWhile_eq_nil_of_startsWith hrest, List.append_nil]

theorem dropWhile_append_exact (ha : ∀ c ∈ a, p c = true) (hrest : startsWith p rest = false) :
    (a ++ rest).dropWhile p = rest := by
  rw [List.dropWhile_append_of_pos ha]
  cases rest with
  | nil => rfl
  | cons d rest =>
    rw [startsWith_cons] at hrest
    rw [List.dropWhile_cons, if_neg (Bool.eq_false_iff.1 hrest)]

end Classes

/-! ## Powers of ten -/

/-- A power of ten: nothing, or its mark, an optional sign and digits. -/
inductive PowerText : List Char → Prop
  | none : PowerText []
  | unsigned {mark : Char} {ds : List Char} :
      isExponentMark mark = true → IsDigits ds → PowerText (mark :: ds)
  | signed {mark sign : Char} {ds : List Char} :
      isExponentMark mark = true → isSign sign = true → IsDigits ds →
      PowerText (mark :: sign :: ds)

theorem isDigits_of_takeWhile {cs : List Char} (h : cs.takeWhile isDigit ≠ []) :
    IsDigits (cs.takeWhile isDigit) :=
  ⟨h, fun c hc => List.all_eq_true.1 List.all_takeWhile c hc⟩

theorem readNatural?_of_isDigits {cs : List Char} (h : IsDigits cs) :
    readNatural? cs = some (Nat.ofDigitChars 10 cs 0) := by
  rw [readNatural?, if_pos]
  rw [Bool.and_eq_true, List.all_eq_true]
  exact ⟨by simp [h.1], h.2⟩

/-- What is cut off as a power of ten is one. -/
theorem powerText_powerPart (cs : List Char) : PowerText (powerPart cs) := by
  unfold powerPart
  split
  · exact .none
  · split
    · next hmark =>
      split
      · exact .none
      · next c ds =>
        split
        · next hdigit =>
          exact .unsigned hmark (isDigits_of_takeWhile (takeWhile_ne_nil_of_startsWith hdigit))
        · split
          · next hsigned =>
            rw [Bool.and_eq_true] at hsigned
            exact .signed hmark hsigned.1
              (isDigits_of_takeWhile (takeWhile_ne_nil_of_startsWith hsigned.2))
          · exact .none
    · exact .none

section Parts

variable {rest : List Char}

theorem startsWith_isDigit_of_isNumberLead (h : startsWith isNumberLead rest = false) :
    startsWith isDigit rest = false := by
  cases rest with
  | nil => rfl
  | cons c rest => exact isDigit_of_isNumberLead_eq_false h

theorem startsWith_isDot_of_isNumberLead (h : startsWith isNumberLead rest = false) :
    startsWith isDot rest = false := by
  cases rest with
  | nil => rfl
  | cons c rest =>
    rw [startsWith_cons, isNumberLead, Bool.or_eq_false_iff] at h
    exact h.2

/-- Without a point there are no digits behind one. -/
theorem fractionDigits_of_startsWith (h : startsWith isDot rest = false) :
    fractionDigits rest = ([], rest) := by
  unfold fractionDigits
  split
  · cases h
  · rfl

theorem fractionDigits_dot {part : List Char} (hpart : ∀ c ∈ part, isDigit c = true)
    (hrest : startsWith isDigit rest = false) :
    fractionDigits ('.' :: (part ++ rest)) = (part, rest) := by
  rw [fractionDigits, takeWhile_append_exact hpart hrest, dropWhile_append_exact hpart hrest]

/-- A power of ten is cut off in front of anything but a digit. -/
theorem PowerText.powerPart_append {power : List Char} (h : PowerText power)
    (hdigit : startsWith isDigit rest = false) (hmark : startsWith isExponentMark rest = false) :
    powerPart (power ++ rest) = power := by
  cases h with
  | none =>
    cases rest with
    | nil => rfl
    | cons c rest =>
      rw [startsWith_cons] at hmark
      simp [powerPart, hmark]
  | @unsigned mark ds hexp hds =>
    obtain ⟨hne, hdigits⟩ := hds
    cases ds with
    | nil => exact absurd rfl hne
    | cons d ds =>
      have htake := takeWhile_append_exact hdigits hdigit
      rw [List.cons_append, List.cons_append, powerPart, if_pos hexp]
      simp only [if_pos (hdigits d List.mem_cons_self)]
      rw [← List.cons_append, htake]
  | @signed mark sign ds hexp hsign hds =>
    obtain ⟨hne, hdigits⟩ := hds
    have hsigndigit : isDigit sign = false := by
      rw [isSign, Bool.or_eq_true, beq_iff_eq, beq_iff_eq] at hsign
      rcases hsign with rfl | rfl <;> rfl
    have hstart : startsWith isDigit (ds ++ rest) = true := by
      cases ds with
      | nil => exact absurd rfl hne
      | cons d ds => exact hdigits d List.mem_cons_self
    rw [List.cons_append, List.cons_append, powerPart, if_pos hexp]
    simp only [hsigndigit, Bool.false_eq_true, if_false, hsign, hstart, Bool.and_self, if_true,
      takeWhile_append_exact hdigits hdigit]

/-- A power of ten does not go on with a digit or a point in front of what does not. -/
theorem PowerText.startsWith_append {power : List Char} (h : PowerText power)
    (hrest : startsWith isNumberLead rest = false) :
    startsWith isNumberLead (power ++ rest) = false := by
  cases h with
  | none => exact hrest
  | unsigned hexp | signed hexp =>
    rw [List.cons_append, startsWith_cons]
    rw [isExponentMark, Bool.or_eq_true, beq_iff_eq, beq_iff_eq] at hexp
    rcases hexp with rfl | rfl <;> rfl

/-- Digits and points with a power of ten are cut off in front of anything that continues
neither. -/
theorem decimalPart_append_exact {lead power : List Char}
    (hlead : ∀ c ∈ lead, isNumberLead c = true) (hpower : PowerText power)
    (hrest : startsWith isNumberLead rest = false)
    (hmark : startsWith isExponentMark rest = false) :
    decimalPart (lead ++ power ++ rest) = lead ++ power := by
  have hstart := hpower.startsWith_append hrest
  rw [decimalPart, List.append_assoc, takeWhile_append_exact hlead hstart,
    dropWhile_append_exact hlead hstart,
    hpower.powerPart_append (startsWith_isDigit_of_isNumberLead hrest) hmark]

end Parts

end LengthFormula
