import LengthFormula.Length.Literal
import LengthFormula.Proofs.Decimal.Parts

/-!
# How far a number literal reaches

Two facts about the scanner of number literals.  What it takes is cut from the front of the text
(`Literal.whole_scan_isPrefix`, `Literal.text_read_isPrefix`), and it does not see past a character
that no literal holds (`Literal.scan_append_stop`).
-/

namespace LengthFormula

/-! ## Cutting from the front -/

/-- What is cut from the front and the rest make up the text. -/
theorem append_drop_of_isPrefix {a cs : List Char} (h : a <+: cs) : a ++ cs.drop a.length = cs :=
  (List.prefix_iff_eq_append).1 h

theorem append_isPrefix {a b cs : List Char} (ha : a <+: cs) (hb : b <+: cs.drop a.length) :
    a ++ b <+: cs := by
  obtain ⟨t, ht⟩ := hb
  exact ⟨t, by rw [List.append_assoc, ht, append_drop_of_isPrefix ha]⟩

theorem separated_isPrefix (cs : List Char) : separated cs <+: cs := by
  cases cs with
  | nil => exact List.nil_prefix
  | cons c cs => exact List.cons_prefix_cons.2 ⟨rfl, List.takeWhile_prefix _⟩

theorem feetPart_isPrefix (cs : List Char) : feetPart cs <+: cs := by
  cases cs with
  | nil => exact List.nil_prefix
  | cons c cs =>
    rw [feetPart]
    split
    · split
      · exact List.cons_prefix_cons.2 ⟨rfl, append_isPrefix (List.take_prefix 1 cs) (by
          cases cs with
          | nil => exact List.nil_prefix
          | cons d ds => exact List.takeWhile_prefix _)⟩
      · exact List.cons_prefix_cons.2 ⟨rfl, List.takeWhile_prefix _⟩
    · exact List.nil_prefix

theorem fractionPart_isPrefix (cs : List Char) : (fractionPart cs).1 <+: cs := by
  unfold fractionPart
  split
  · exact separated_isPrefix cs
  · split
    · simp only
      split
      · exact append_isPrefix (separated_isPrefix cs) (separated_isPrefix _)
      · exact separated_isPrefix cs
    · exact List.nil_prefix

theorem markPart_isPrefix (footAllowed : Bool) (cs : List Char) :
    markPart footAllowed cs <+: cs := by
  unfold markPart
  split
  · exact List.take_prefix 1 cs
  · exact List.nil_prefix

namespace Literal

theorem lead_feet_isPrefix (cs : List Char) : (scan cs).lead ++ (scan cs).feet <+: cs :=
  append_isPrefix (decimalPart_isPrefix cs) (feetPart_isPrefix _)

/-- The longest literal is cut from the front. -/
theorem whole_scan_isPrefix (cs : List Char) : (scan cs).whole <+: cs := by
  have hpart : (scan cs).lead ++ (scan cs).feet ++ (scan cs).part <+: cs := by
    refine append_isPrefix (lead_feet_isPrefix cs) ?_
    rw [List.length_append, ← List.drop_drop]
    exact fractionPart_isPrefix _
  refine append_isPrefix hpart ?_
  rw [List.length_append, List.length_append, ← List.drop_drop, ← List.drop_drop]
  exact markPart_isPrefix _ _

/-- The text that is tried when the whole one is refused is cut from the front as well. -/
theorem shorter_scan_isPrefix (cs : List Char) : (scan cs).shorter <+: cs := by
  unfold shorter
  split
  · exact decimalPart_isPrefix cs
  · exact lead_feet_isPrefix cs

/-- So what a literal takes is cut from the front. -/
theorem text_read_isPrefix (convert : Converter) (cs : List Char) :
    ((scan cs).read convert).1 <+: cs := by
  unfold read
  split
  · exact whole_scan_isPrefix cs
  · split
    · exact whole_scan_isPrefix cs
    · exact shorter_scan_isPrefix cs

/-- The text that a literal takes starts with its leading decimal. -/
theorem lead_isPrefix_text_read (convert : Converter) (l : Literal) :
    l.lead <+: (l.read convert).1 := by
  have hwhole : l.lead <+: l.whole := by
    simp only [whole, List.append_assoc]
    exact List.prefix_append _ _
  unfold read
  split
  · exact hwhole
  · split
    · exact hwhole
    · unfold shorter
      split
      · exact List.prefix_rfl
      · exact List.prefix_append _ _

/-- The text that a literal takes is cut from the front of its longest text. -/
theorem text_read_isPrefix_whole (convert : Converter) (l : Literal) :
    (l.read convert).1 <+: l.whole := by
  have hshorter : l.shorter <+: l.whole := by
    simp only [whole, List.append_assoc]
    unfold shorter
    split
    · exact List.prefix_append _ _
    · rw [← List.append_assoc]
      exact List.prefix_append _ _
  unfold read
  split
  · exact List.prefix_rfl
  · split
    · exact List.prefix_rfl
    · exact hshorter

/-- A literal that takes no foot mark has the value of the text that it takes. -/
theorem convert_of_read {convert : Converter} {l : Literal} {body : List Char} {x : Float}
    (h : l.read convert = (body, some x)) (hfoot : ∀ c ∈ body, isFootMark c = false) :
    convert body = some x := by
  unfold read at h
  split at h
  · next y hy =>
    cases h
    unfold wholeValue? at hy
    split at hy
    · next hfeet =>
      rw [isFractionOfFeet] at hfeet
      cases hmark : l.mark with
      | nil =>
        rw [hmark] at hfeet
        cases hfeet
      | cons c mark =>
        rw [hmark, startsWith_cons] at hfeet
        have hc : c ∈ l.whole := by
          rw [whole, hmark]
          exact List.mem_append_right _ List.mem_cons_self
        rw [hfoot c hc] at hfeet
        cases hfeet
    · exact hy
  · split at h
    · cases h
    · obtain ⟨hbody, hvalue⟩ := Prod.mk.inj h
      rw [← hbody]
      exact hvalue

end Literal

/-! ## Characters at which a literal ends -/

/-- A character that no literal holds behind its leading decimal. -/
def endsLiteral (c : Char) : Bool :=
  !(isNumberLead c || isSign c || isSpacer c || isFractionBar c || isFootMark c || isInchMark c)

theorem endsLiteral_iff {c : Char} : endsLiteral c = true ↔
    isNumberLead c = false ∧ isSign c = false ∧ isSpacer c = false ∧ isFractionBar c = false ∧
      isFootMark c = false ∧ isInchMark c = false := by
  simp [endsLiteral, and_assoc]

section Stop

variable {p : Char → Bool} {a x : List Char} {c : Char}

theorem startsWith_append_stop (h : p c = false) :
    startsWith p (a ++ c :: x) = startsWith p a := by
  cases a <;> simp [h]

theorem takeWhile_append_stop (h : p c = false) :
    (a ++ c :: x).takeWhile p = a.takeWhile p := by
  induction a with
  | nil => simp [h]
  | cons d a ih => simp only [List.cons_append, List.takeWhile_cons, ih]

theorem dropWhile_append_stop (h : p c = false) :
    (a ++ c :: x).dropWhile p = a.dropWhile p ++ c :: x := by
  induction a with
  | nil => simp [h]
  | cons d a ih =>
    simp only [List.cons_append, List.dropWhile_cons, ih]
    split <;> rfl

theorem digitAfter_append_stop (h : p c = false) (hd : isDigit c = false) :
    digitAfter p (a ++ c :: x) = digitAfter p a := by
  cases a with
  | nil => simp [digitAfter, h]
  | cons b a => simp [digitAfter, startsWith_append_stop hd]

theorem separated_append_stop (ha : a ≠ []) (hd : isDigit c = false) :
    separated (a ++ c :: x) = separated a := by
  cases a with
  | nil => exact absurd rfl ha
  | cons b a => simp [separated, takeWhile_append_stop hd]

/-- Only a text that is not empty has a digit behind its first character. -/
theorem ne_nil_of_digitAfter (h : digitAfter p a = true) : a ≠ [] := by
  rintro rfl
  simp [digitAfter] at h

theorem markPart_append_stop {foot : Bool} (h : endsLiteral c = true) :
    markPart foot (a ++ c :: x) = markPart foot a := by
  obtain ⟨-, -, -, -, hfoot, hinch⟩ := endsLiteral_iff.1 h
  rw [markPart, startsWith_append_stop hinch, startsWith_append_stop hfoot, markPart]
  cases a <;> simp

theorem feetPart_append_stop (h : endsLiteral c = true) :
    feetPart (a ++ c :: x) = feetPart a := by
  obtain ⟨hlead, -, hspacer, -, hfoot, -⟩ := endsLiteral_iff.1 h
  have hdigit := isDigit_of_isNumberLead_eq_false hlead
  cases a with
  | nil => simp [feetPart, hfoot]
  | cons d a =>
    simp only [List.cons_append, feetPart, digitAfter_append_stop hspacer hdigit,
      takeWhile_append_stop hlead]
    split
    · split
      · next hd =>
        cases a with
        | nil => simp [digitAfter] at hd
        | cons b a => simp [takeWhile_append_stop hlead]
      · rfl
    · rfl

theorem fractionPart_append_stop (h : endsLiteral c = true) :
    fractionPart (a ++ c :: x) = fractionPart a := by
  obtain ⟨hlead, -, hspacer, hbar, -, -⟩ := endsLiteral_iff.1 h
  have hdigit := isDigit_of_isNumberLead_eq_false hlead
  rw [fractionPart, digitAfter_append_stop hbar hdigit, digitAfter_append_stop hspacer hdigit,
    fractionPart]
  split
  · next hb => rw [separated_append_stop (ne_nil_of_digitAfter hb) hdigit]
  · split
    · next hs =>
      rw [separated_append_stop (ne_nil_of_digitAfter hs) hdigit]
      simp only
      rw [List.drop_append_of_le_length (separated_isPrefix a).length_le,
        digitAfter_append_stop hbar hdigit]
      split
      · next hb => rw [separated_append_stop (ne_nil_of_digitAfter hb) hdigit]
      · rfl
    · rfl

theorem powerPart_append_stop (hd : isDigit c = false) (hs : isSign c = false)
    (he : a ≠ [] ∨ isExponentMark c = false) : powerPart (a ++ c :: x) = powerPart a := by
  match a, he with
  | [], .inr he => simp [powerPart, he]
  | [m], _ => simp [powerPart, hd, hs]
  | m :: b :: a, _ =>
    have htake : (b :: (a ++ c :: x)).takeWhile isDigit = (b :: a).takeWhile isDigit :=
      takeWhile_append_stop (a := b :: a) hd
    simp only [List.cons_append, powerPart, startsWith_append_stop hd, takeWhile_append_stop hd,
      htake]

theorem decimalPart_append_stop (h : endsLiteral c = true)
    (he : a.dropWhile isNumberLead ≠ [] ∨ isExponentMark c = false) :
    decimalPart (a ++ c :: x) = decimalPart a := by
  obtain ⟨hlead, hsign, -⟩ := endsLiteral_iff.1 h
  have hdigit := isDigit_of_isNumberLead_eq_false hlead
  rw [decimalPart, takeWhile_append_stop hlead, dropWhile_append_stop hlead,
    powerPart_append_stop hdigit hsign he, decimalPart]

/-- A literal does not see past a character that no literal holds.  An exponent mark counts as one
unless it stands directly behind the digits in front. -/
theorem Literal.scan_append_stop (h : endsLiteral c = true)
    (he : a.dropWhile isNumberLead ≠ [] ∨ isExponentMark c = false) :
    Literal.scan (a ++ c :: x) = Literal.scan a := by
  have hlead := decimalPart_append_stop (x := x) h he
  have hfeet : (a ++ c :: x).drop (decimalPart a).length
      = a.drop (decimalPart a).length ++ c :: x :=
    List.drop_append_of_le_length (decimalPart_isPrefix a).length_le
  simp only [Literal.scan, hlead, hfeet, feetPart_append_stop h]
  rw [List.drop_append_of_le_length (feetPart_isPrefix _).length_le, fractionPart_append_stop h,
    List.drop_append_of_le_length (fractionPart_isPrefix _).length_le, markPart_append_stop h]

end Stop

end LengthFormula
