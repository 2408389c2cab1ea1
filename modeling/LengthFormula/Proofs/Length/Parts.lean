import LengthFormula.Proofs.Length.Scanning
import LengthFormula.Proofs.Token.Standing

/-!
# The parts of literals

What the scanner of literals cuts off as a power of ten, as feet and as a fraction part is a text of
its own (`PowerText`, `FeetText`, `PartText`).  Each of them is cut off in front of exactly the
texts that do not continue it (`PowerText.powerPart_append_iff`, `decimalPart_append_iff`,
`feetPart_append_iff`, `fractionPart_append_iff`).
-/

namespace LengthFormula

section Classes

variable {p : Char → Bool} {a x : List Char}

theorem takeWhile_append_iff (ha : ∀ c ∈ a, p c = true) :
    (a ++ x).takeWhile p = a ↔ startsWith p x = false :=
  ⟨fun h => (of_takeWhile_append_eq h).2, takeWhile_append_exact ha⟩

theorem startsWith_append_of_ne_nil (ha : a ≠ []) : startsWith p (a ++ x) = startsWith p a := by
  cases a with
  | nil => exact absurd rfl ha
  | cons c a => rfl

theorem IsDigits.startsWith_append (h : IsDigits a) : startsWith isDigit (a ++ x) = true := by
  obtain ⟨c, a, rfl⟩ := List.exists_cons_of_ne_nil h.1
  exact h.2 c List.mem_cons_self

end Classes

/-! ## Powers of ten and decimals -/

section Decimals

variable {a x : List Char}

/-- A power of ten opens here: its mark, and a digit or a sign in front of one. -/
def opensPower (cs : List Char) : Bool :=
  startsWith isExponentMark cs && (startsWith isDigit cs.tail || digitAfter isSign cs.tail)

theorem powerPart_eq_nil_iff : powerPart x = [] ↔ opensPower x = false := by
  match x with
  | [] => simp [powerPart, opensPower]
  | [mark] => simp [powerPart, opensPower, digitAfter]
  | mark :: c :: ds =>
    simp only [powerPart, opensPower, digitAfter, startsWith_cons, List.tail_cons]
    cases isExponentMark mark <;> cases hdigit : isDigit c <;> cases isSign c <;>
      cases startsWith isDigit ds <;> simp

/-- A power of ten ends in front of anything but a digit. -/
theorem PowerText.powerPart_append_iff (h : PowerText a) (hne : a ≠ []) :
    powerPart (a ++ x) = a ↔ startsWith isDigit x = false := by
  cases h with
  | none => exact absurd rfl hne
  | @unsigned mark ds hmark hds =>
    obtain ⟨d, ds, rfl⟩ := List.exists_cons_of_ne_nil hds.1
    have hd := hds.2 d List.mem_cons_self
    have hpower : powerPart (mark :: (d :: ds ++ x))
        = mark :: (d :: ds ++ x).takeWhile isDigit := by
      simp [powerPart, hmark, hd]
    rw [List.cons_append, hpower, List.cons_inj_right, takeWhile_append_iff hds.2]
  | @signed mark sign ds hmark hsign hds =>
    have hdigit : isDigit sign = false := by
      rw [Bool.eq_false_iff]
      intro hdigit
      rw [isSign_of_isNumberLead (isNumberLead_of_isDigit hdigit)] at hsign
      cases hsign
    have hpower : powerPart (mark :: sign :: (ds ++ x))
        = mark :: sign :: (ds ++ x).takeWhile isDigit := by
      simp [powerPart, hmark, hsign, hdigit, hds.startsWith_append]
    rw [List.cons_append, List.cons_append, hpower, List.cons_inj_right, List.cons_inj_right,
      takeWhile_append_iff hds.2]

/-- A decimal is cut off where neither its digits and points nor its power of ten go on. -/
theorem decimalPart_append_iff :
    decimalPart (a ++ x) = a ↔ ∃ lead power, a = lead ++ power ∧
      (∀ c ∈ lead, isNumberLead c = true) ∧ startsWith isNumberLead (power ++ x) = false ∧
        powerPart (power ++ x) = power := by
  constructor
  · intro h
    obtain ⟨lead, hlead⟩ : ∃ lead, (a ++ x).takeWhile isNumberLead = lead := ⟨_, rfl⟩
    obtain ⟨power, hpower⟩ : ∃ power, powerPart ((a ++ x).dropWhile isNumberLead) = power :=
      ⟨_, rfl⟩
    rw [decimalPart, hlead, hpower] at h
    subst h
    rw [List.append_assoc] at hlead hpower
    obtain ⟨hall, hstop⟩ := of_takeWhile_append_eq hlead
    rw [dropWhile_append_exact hall hstop] at hpower
    exact ⟨lead, power, rfl, hall, hstop, hpower⟩
  · rintro ⟨lead, power, rfl, hall, hstop, hpower⟩
    rw [List.append_assoc, decimalPart, takeWhile_append_exact hall hstop,
      dropWhile_append_exact hall hstop, hpower]

/-- A decimal is cut off in front of anything else that continues neither of them. -/
theorem decimalPart_append_of_stop {y : List Char} (h : decimalPart (a ++ x) = a)
    (hlead : startsWith isNumberLead y = false) (hmark : startsWith isExponentMark y = false) :
    decimalPart (a ++ y) = a := by
  obtain ⟨lead, power, rfl, hall, -, hpower⟩ := decimalPart_append_iff.1 h
  exact decimalPart_append_exact hall (hpower ▸ powerText_powerPart _) hlead hmark

/-- No digit stands behind a decimal. -/
theorem startsWith_isDigit_of_decimalPart (h : decimalPart (a ++ x) = a) :
    startsWith isDigit x = false := by
  obtain ⟨lead, power, rfl, -, hstop, hpower⟩ := decimalPart_append_iff.1 h
  by_cases hne : power = []
  · rw [hne] at hstop
    exact startsWith_isDigit_of_isNumberLead hstop
  · have htext : PowerText power := hpower ▸ powerText_powerPart _
    exact (htext.powerPart_append_iff hne).1 hpower

end Decimals

/-! ## Feet -/

/-- A foot mark, and perhaps digits and points behind it; a spacer stands between them only in front
of a digit. -/
inductive FeetText : List Char → Prop
  | none : FeetText []
  | bare : FeetText ['\x27']
  | inches {gap lead : List Char} :
      IsGap gap → lead ≠ [] → (∀ c ∈ lead, isNumberLead c = true) →
      (gap = [] ∨ startsWith isDigit lead = true) → FeetText ('\x27' :: (gap ++ lead))

/-- Where the feet end. -/
def FeetEnd (feet x : List Char) : Prop :=
  match feet with
  | [] => startsWith isFootMark x = false
  | [_] => startsWith isNumberLead x = false ∧ digitAfter isSpacer x = false
  | _ :: _ :: _ => startsWith isNumberLead x = false

section Feet

variable {p : Char → Bool} {cs feet gap lead x : List Char}

theorem feetEnd_inches (hne : lead ≠ []) :
    FeetEnd ('\x27' :: (gap ++ lead)) x ↔ startsWith isNumberLead x = false := by
  obtain ⟨d, ds, hcons⟩ := List.exists_cons_of_ne_nil (List.append_ne_nil_of_right_ne_nil gap hne)
  rw [hcons]
  exact Iff.rfl

/-- What is taken as long as a class lasts, and the text behind it. -/
theorem exists_takeWhile (p : Char → Bool) (cs : List Char) :
    ∃ a rest, cs = a ++ rest ∧ (∀ c ∈ a, p c = true) ∧ startsWith p rest = false ∧
      (startsWith p cs = true → a ≠ []) := by
  have hsplit := List.takeWhile_append_dropWhile (p := p) (l := cs)
  obtain ⟨hall, hstop⟩ := of_takeWhile_append_eq (p := p) (a := cs.takeWhile p)
    (b := cs.dropWhile p) (by rw [hsplit])
  exact ⟨_, _, hsplit.symm, hall, hstop, takeWhile_ne_nil_of_startsWith⟩

/-- A digit stands behind the first character of the text, and that one is in the class. -/
theorem exists_of_digitAfter (h : digitAfter p cs = true) :
    ∃ c ds, cs = c :: ds ∧ p c = true ∧ startsWith isDigit ds = true := by
  rw [digitAfter, Bool.and_eq_true] at h
  cases cs with
  | nil => cases h.1
  | cons c cs => exact ⟨c, cs, rfl, h⟩

theorem startsWith_isNumberLead_of_isDigit (h : startsWith isDigit cs = true) :
    startsWith isNumberLead cs = true := by
  cases cs with
  | nil => cases h
  | cons c cs => exact isNumberLead_of_isDigit h

/-- Every text starts with feet, perhaps none. -/
theorem exists_feet (cs : List Char) :
    ∃ feet x, cs = feet ++ x ∧ FeetText feet ∧ FeetEnd feet x := by
  by_cases hfoot : startsWith isFootMark cs = true
  · obtain ⟨cs, rfl⟩ : ∃ ds, cs = '\x27' :: ds := by
      cases cs with
      | nil => cases hfoot
      | cons c ds =>
        rw [startsWith_cons, isFootMark, beq_iff_eq] at hfoot
        exact ⟨ds, by rw [hfoot]⟩
    by_cases hspacer : digitAfter isSpacer cs = true
    · obtain ⟨s, ds, rfl, hs, hdigit⟩ := exists_of_digitAfter hspacer
      obtain ⟨lead, x, rfl, hlead, hstop, hne⟩ := exists_takeWhile isNumberLead ds
      have hne := hne (startsWith_isNumberLead_of_isDigit hdigit)
      rw [startsWith_append_of_ne_nil hne] at hdigit
      exact ⟨'\x27' :: ([s] ++ lead), x, by simp,
        .inches (.inr ⟨s, hs, rfl⟩) hne hlead (.inr hdigit), (feetEnd_inches hne).2 hstop⟩
    · obtain ⟨lead, x, rfl, hlead, hstop, -⟩ := exists_takeWhile isNumberLead cs
      by_cases hne : lead = []
      · subst hne
        exact ⟨['\x27'], x, rfl, .bare, hstop, Bool.eq_false_iff.2 hspacer⟩
      · exact ⟨'\x27' :: ([] ++ lead), x, rfl, .inches (.inl rfl) hne hlead (.inl rfl),
          (feetEnd_inches hne).2 hstop⟩
  · exact ⟨[], cs, rfl, .none, Bool.eq_false_iff.2 hfoot⟩

theorem FeetText.feetPart_append (h : FeetText feet) (hend : FeetEnd feet x) :
    feetPart (feet ++ x) = feet := by
  cases h with
  | none => exact feetPart_eq_nil hend
  | bare =>
    rw [List.singleton_append, feetPart, if_pos (show isFootMark '\x27' = true from rfl),
      if_neg (Bool.eq_false_iff.1 hend.2), takeWhile_eq_nil_of_startsWith hend.1]
  | inches hgap hne hlead hdigit =>
    rw [List.cons_append, List.append_assoc]
    exact LengthFormula.feetPart_append hgap hne hlead hdigit ((feetEnd_inches hne).1 hend)

/-- Feet open with their mark. -/
theorem FeetText.startsWith_isFootMark (h : FeetText feet) (hne : feet ≠ []) :
    startsWith isFootMark (feet ++ x) = true := by
  cases h with
  | none => exact absurd rfl hne
  | bare | inches => rfl

/-- Feet are cut off where they end. -/
theorem feetPart_append_iff : feetPart (feet ++ x) = feet ↔ FeetText feet ∧ FeetEnd feet x := by
  refine ⟨fun h => ?_, fun h => h.1.feetPart_append h.2⟩
  obtain ⟨feet', x', heq, htext, hend⟩ := exists_feet (feet ++ x)
  rw [heq, htext.feetPart_append hend] at h
  subst h
  rw [List.append_cancel_left heq]
  exact ⟨htext, hend⟩

/-- No digit stands behind feet. -/
theorem FeetEnd.startsWith_isDigit (h : FeetEnd feet x) (hne : feet ≠ []) :
    startsWith isDigit x = false := by
  match feet, h with
  | [_], h => exact startsWith_isDigit_of_isNumberLead h.1
  | _ :: _ :: _, h => exact startsWith_isDigit_of_isNumberLead h

end Feet

/-! ## Fraction parts -/

/-- A separator and digits, and perhaps a bar and digits behind a spacer; with it, whether there is
a bar. -/
inductive PartText : List Char → Bool → Prop
  | none : PartText [] false
  | bar {b : List Char} : IsDigits b → PartText ('/' :: b) true
  | spacer {c : Char} {a : List Char} : isSpacer c = true → IsDigits a → PartText (c :: a) false
  | mixed {c : Char} {a b : List Char} :
      isSpacer c = true → IsDigits a → IsDigits b → PartText (c :: (a ++ '/' :: b)) true

/-- Where a fraction part ends. -/
def PartEnd (part : List Char) (bar : Bool) (x : List Char) : Prop :=
  match part with
  | [] => digitAfter isFractionBar x = false ∧ digitAfter isSpacer x = false
  | _ :: _ => startsWith isDigit x = false ∧ (bar = true ∨ digitAfter isFractionBar x = false)

section Fractions

variable {p : Char → Bool} {cs part a x : List Char} {c : Char} {bar : Bool}

theorem exists_digits_of_digitAfter (h : digitAfter p cs = true) :
    ∃ c b x, cs = c :: (b ++ x) ∧ p c = true ∧ IsDigits b ∧ startsWith isDigit x = false := by
  obtain ⟨c, ds, rfl, hc, hdigit⟩ := exists_of_digitAfter h
  obtain ⟨b, x, rfl, hb, hstop, hne⟩ := exists_takeWhile isDigit ds
  exact ⟨c, b, x, rfl, hc, ⟨hne hdigit, hb⟩, hstop⟩

/-- Every text starts with a fraction part, perhaps with none. -/
theorem exists_part (cs : List Char) :
    ∃ part bar x, cs = part ++ x ∧ PartText part bar ∧ PartEnd part bar x := by
  by_cases hbar : digitAfter isFractionBar cs = true
  · obtain ⟨c, b, x, rfl, hc, hb, hstop⟩ := exists_digits_of_digitAfter hbar
    rw [isFractionBar, beq_iff_eq] at hc
    subst hc
    exact ⟨'/' :: b, true, x, rfl, .bar hb, hstop, .inl rfl⟩
  · by_cases hspacer : digitAfter isSpacer cs = true
    · obtain ⟨c, a, x, rfl, hc, ha, hstop⟩ := exists_digits_of_digitAfter hspacer
      by_cases hmore : digitAfter isFractionBar x = true
      · obtain ⟨d, b, x, rfl, hd, hb, hend⟩ := exists_digits_of_digitAfter hmore
        rw [isFractionBar, beq_iff_eq] at hd
        subst hd
        exact ⟨c :: (a ++ '/' :: b), true, x, by simp, .mixed hc ha hb, hend, .inl rfl⟩
      · exact ⟨c :: a, false, x, rfl, .spacer hc ha, hstop, .inr (Bool.eq_false_iff.2 hmore)⟩
    · exact ⟨[], false, cs, rfl, .none, Bool.eq_false_iff.2 hbar, Bool.eq_false_iff.2 hspacer⟩

/-- A spacer and digits are a fraction part where no bar with a digit behind it follows; otherwise
the bar and the digits belong to it. -/
theorem fractionPart_spacer_digits (hc : isSpacer c = true) (ha : IsDigits a)
    (hx : startsWith isDigit x = false) : fractionPart (c :: (a ++ x)) =
      if digitAfter isFractionBar x then (c :: (a ++ separated x), true) else (c :: a, false) := by
  have hbar : digitAfter isFractionBar (c :: (a ++ x)) = false :=
    digitAfter_of_startsWith (isFractionBar_of_isSpacer hc)
  rw [fractionPart, if_neg (Bool.eq_false_iff.1 hbar), if_pos (digitAfter_cons hc ha x),
    separated_append ha hx]
  simp only [List.length_cons, List.drop_succ_cons, List.drop_left, List.cons_append]

theorem PartText.fractionPart_append (h : PartText part bar) (hend : PartEnd part bar x) :
    fractionPart (part ++ x) = (part, bar) := by
  cases h with
  | none => exact fractionPart_eq_nil hend.1 hend.2
  | bar hb => exact fractionPart_bar hb hend.1
  | spacer hc ha =>
    rw [List.cons_append, fractionPart_spacer_digits hc ha hend.1,
      hend.2.resolve_left Bool.false_ne_true]
    rfl
  | mixed hc ha hb =>
    rw [List.cons_append, List.append_assoc, fractionPart_spacer_digits hc ha rfl,
      List.cons_append, if_pos (digitAfter_cons rfl hb x), separated_append hb hend.1]

/-- A fraction part is cut off where it ends. -/
theorem fractionPart_append_iff :
    fractionPart (part ++ x) = (part, bar) ↔ PartText part bar ∧ PartEnd part bar x := by
  refine ⟨fun h => ?_, fun h => h.1.fractionPart_append h.2⟩
  obtain ⟨part', bar', x', heq, htext, hend⟩ := exists_part (part ++ x)
  rw [heq, htext.fractionPart_append hend] at h
  cases h
  rw [List.append_cancel_left heq]
  exact ⟨htext, hend⟩

end Fractions

end LengthFormula
