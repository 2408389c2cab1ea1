import LengthFormula.Length.Literal
import LengthFormula.Proofs.Text.LetterCase

/-!
# Numbers in either letter case

The only letter in a number is the mark of its power of ten, which counts in both cases.  So the
scanners of literals cut texts that differ at most in the case of letters at the same places, and
the converter reads one length in them (`readLength?_map`).
-/

namespace LengthFormula

variable {p : Char → Bool}

theorem LetterBlind.startsWith_map (h : LetterBlind p) (cs : List Char) :
    startsWith p (cs.map Char.toLower) = startsWith p cs := by
  cases cs with
  | nil => rfl
  | cons c cs => rw [List.map_cons, startsWith_cons, startsWith_cons, h c]

theorem LetterBlind.digitAfter_map (h : LetterBlind p) (cs : List Char) :
    digitAfter p (cs.map Char.toLower) = digitAfter p cs := by
  rw [digitAfter, digitAfter, h.startsWith_map, ← List.map_tail, letterBlind_isDigit.startsWith_map]

/-! ## The parts of a literal -/

theorem powerPart_map (cs : List Char) :
    powerPart (cs.map Char.toLower) = (powerPart cs).map Char.toLower := by
  cases cs with
  | nil => rfl
  | cons mark cs =>
    cases cs with
    | nil => simp [powerPart]
    | cons c ds =>
      simp only [powerPart, List.map_cons, letterBlind_isExponentMark mark, letterBlind_isDigit c,
        letterBlind_isSign c, letterBlind_isDigit.startsWith_map]
      split
      · split
        · rw [← List.map_cons, letterBlind_isDigit.takeWhile_map, List.map_cons]
        · split
          · rw [letterBlind_isDigit.takeWhile_map, List.map_cons, List.map_cons]
          · rfl
      · rfl

theorem decimalPart_map (cs : List Char) :
    decimalPart (cs.map Char.toLower) = (decimalPart cs).map Char.toLower := by
  rw [decimalPart, decimalPart, letterBlind_isNumberLead.takeWhile_map,
    letterBlind_isNumberLead.dropWhile_map, powerPart_map, List.map_append]

theorem feetPart_map (cs : List Char) :
    feetPart (cs.map Char.toLower) = (feetPart cs).map Char.toLower := by
  cases cs with
  | nil => rfl
  | cons c cs =>
    simp only [feetPart, List.map_cons, letterBlind_isFootMark c,
      letterBlind_isSpacer.digitAfter_map, letterBlind_isNumberLead.takeWhile_map,
      ← List.map_tail, ← List.map_take]
    split
    · split
      · simp
      · rfl
    · rfl

theorem separated_map (cs : List Char) :
    separated (cs.map Char.toLower) = (separated cs).map Char.toLower := by
  simp only [separated, ← List.map_tail, letterBlind_isDigit.takeWhile_map, ← List.map_take,
    List.map_append]

theorem fractionPart_map (cs : List Char) :
    fractionPart (cs.map Char.toLower)
      = ((fractionPart cs).1.map Char.toLower, (fractionPart cs).2) := by
  simp only [fractionPart, letterBlind_isFractionBar.digitAfter_map,
    letterBlind_isSpacer.digitAfter_map, separated_map, List.length_map, ← List.map_drop]
  split
  · rfl
  · split
    · split
      · simp
      · rfl
    · rfl

theorem markPart_map (footAllowed : Bool) (cs : List Char) :
    markPart footAllowed (cs.map Char.toLower) = (markPart footAllowed cs).map Char.toLower := by
  simp only [markPart, letterBlind_isInchMark.startsWith_map,
    letterBlind_isFootMark.startsWith_map, ← List.map_take]
  split <;> rfl

/-! ## Literals -/

/-- The converter does not tell the case of letters of ASCII. -/
def Converter.IgnoresCase (convert : Converter) : Prop :=
  ∀ cs, convert (cs.map Char.toLower) = convert cs

namespace Literal

/-- The literal in small letters. -/
def toLower (l : Literal) : Literal :=
  ⟨l.lead.map Char.toLower, l.feet.map Char.toLower, l.part.map Char.toLower,
    l.mark.map Char.toLower⟩

theorem scan_map (cs : List Char) : scan (cs.map Char.toLower) = (scan cs).toLower := by
  simp only [scan, toLower, decimalPart_map, List.length_map, ← List.map_drop, feetPart_map,
    fractionPart_map, List.isEmpty_map, markPart_map]

theorem whole_toLower (l : Literal) : l.toLower.whole = l.whole.map Char.toLower := by
  simp [whole, toLower]

theorem isPlain_toLower (l : Literal) : l.toLower.isPlain = l.isPlain := by
  simp [isPlain, toLower]

theorem shorter_toLower (l : Literal) : l.toLower.shorter = l.shorter.map Char.toLower := by
  simp only [shorter, toLower, List.isEmpty_map]
  split <;> simp

section Converter

variable {convert : Converter} (h : convert.IgnoresCase)

include h

theorem wholeValue?_toLower (l : Literal) :
    l.toLower.wholeValue? convert = l.wholeValue? convert := by
  have hinches : l.toLower.lead ++ l.toLower.feet ++ l.toLower.part ++ ['\x22']
      = (l.lead ++ l.feet ++ l.part ++ ['\x22']).map Char.toLower := by
    simp [toLower]
  have hfoot : l.toLower.isFractionOfFeet = l.isFractionOfFeet :=
    letterBlind_isFootMark.startsWith_map l.mark
  rw [wholeValue?, wholeValue?, hinches, h, hfoot, whole_toLower, h]

/-- A literal takes the same text and has the same value. -/
theorem read_toLower (l : Literal) :
    l.toLower.read convert = ((l.read convert).1.map Char.toLower, (l.read convert).2) := by
  simp only [read, wholeValue?_toLower h, whole_toLower, isPlain_toLower, shorter_toLower, h _]
  split
  · rfl
  · split <;> rfl

end Converter

end Literal

/-! ## Decimals -/

theorem readNatural?_map (cs : List Char) :
    readNatural? (cs.map Char.toLower) = readNatural? cs := by
  simp only [readNatural?, List.isEmpty_map, letterBlind_isDigit.all_map]
  split
  · next h =>
    rw [Bool.and_eq_true] at h
    rw [map_toLower_of_digits (List.all_eq_true.1 h.2)]
  · rfl

theorem readInteger?_map (cs : List Char) :
    readInteger? (cs.map Char.toLower) = readInteger? cs := by
  rw [readInteger?.eq_def cs]
  split
  · rw [List.map_cons, show '-'.toLower = '-' by decide, readInteger?, readNatural?_map]
  · rw [List.map_cons, show '+'.toLower = '+' by decide, readInteger?, readNatural?_map]
  · next hminus hplus =>
    rw [readInteger?, readNatural?_map]
    · intro ds hds
      obtain ⟨rest, rfl⟩ := exists_of_map_toLower_eq_cons (by decide) hds
      exact hminus rest rfl
    · intro ds hds
      obtain ⟨rest, rfl⟩ := exists_of_map_toLower_eq_cons (by decide) hds
      exact hplus rest rfl

theorem readExponent?_map (cs : List Char) :
    readExponent? (cs.map Char.toLower) = readExponent? cs := by
  cases cs with
  | nil => rfl
  | cons c cs =>
    simp only [readExponent?, List.map_cons, letterBlind_isExponentMark c, readInteger?_map]

theorem fractionDigits_map (cs : List Char) :
    fractionDigits (cs.map Char.toLower)
      = ((fractionDigits cs).1, (fractionDigits cs).2.map Char.toLower) := by
  rw [fractionDigits.eq_def cs]
  split
  · rw [List.map_cons, show '.'.toLower = '.' by decide, fractionDigits, takeWhile_isDigit_map,
      letterBlind_isDigit.dropWhile_map]
  · next hdot =>
    rw [fractionDigits]
    intro ds hds
    obtain ⟨rest, rfl⟩ := exists_of_map_toLower_eq_cons (by decide) hds
    exact hdot rest rfl

theorem Decimal.read?_map (cs : List Char) : read? (cs.map Char.toLower) = read? cs := by
  simp only [read?, takeWhile_isDigit_map, letterBlind_isDigit.dropWhile_map, fractionDigits_map,
    readExponent?_map]

/-! ## Lengths -/

/-- The value that a reader found, with the text behind it in small letters. -/
def lowerRest (found : Float × List Char) : Float × List Char := (found.1, found.2.map Char.toLower)

theorem takeFraction?_map (cs : List Char) :
    takeFraction? (cs.map Char.toLower) = (takeFraction? cs).map lowerRest := by
  simp only [takeFraction?, takeWhile_isDigit_map, letterBlind_isDigit.dropWhile_map]
  cases cs.dropWhile isDigit with
  | nil => rfl
  | cons bar ds =>
    simp only [List.map_cons, letterBlind_isFractionBar bar, takeWhile_isDigit_map,
      letterBlind_isDigit.dropWhile_map]
    split <;> rfl

theorem takeDecimal?_map (cs : List Char) :
    takeDecimal? (cs.map Char.toLower) = (takeDecimal? cs).map lowerRest := by
  simp only [takeDecimal?, scanDecimal, decimalPart_map, Decimal.read?_map, List.length_map,
    ← List.map_drop, Option.map_map]
  rfl

theorem takeInches?_map (cs : List Char) :
    takeInches? (cs.map Char.toLower) = (takeInches? cs).map lowerRest := by
  simp only [takeInches?, takeFraction?_map, takeDecimal?_map]
  cases takeFraction? cs with
  | some found => rfl
  | none =>
    cases takeDecimal? cs with
    | none => rfl
    | some found =>
      obtain ⟨whole, rest⟩ := found
      cases rest with
      | nil => rfl
      | cons c ds =>
        simp only [Option.map_none, Option.map_some, lowerRest, List.map_cons,
          letterBlind_isSpacer c, takeFraction?_map]
        split
        · cases takeFraction? ds <;> rfl
        · rfl

theorem closesInches_map (cs : List Char) :
    closesInches (cs.map Char.toLower) = closesInches cs := by
  match cs with
  | [] => rfl
  | [c] => exact letterBlind_isInchMark c
  | _ :: _ :: _ => rfl

theorem isOneInchMark_map (cs : List Char) :
    isOneInchMark (cs.map Char.toLower) = isOneInchMark cs := by
  match cs with
  | [] => rfl
  | [c] => exact letterBlind_isInchMark c
  | _ :: _ :: _ => rfl

theorem readAfterFeet?_map (feet : Float) (cs : List Char) :
    readAfterFeet? feet (cs.map Char.toLower) = readAfterFeet? feet cs := by
  cases cs with
  | nil => rfl
  | cons c cs =>
    have hinches : (if isSpacer c.toLower then cs.map Char.toLower
          else c.toLower :: cs.map Char.toLower)
        = (if isSpacer c then cs else c :: cs).map Char.toLower := by
      rw [letterBlind_isSpacer c]
      split <;> rfl
    simp only [readAfterFeet?, List.map_cons, hinches, takeInches?_map]
    cases takeInches? (if isSpacer c then cs else c :: cs) with
    | none => rfl
    | some found => simp only [Option.map_some, lowerRest, closesInches_map]

theorem readAfterLead?_map (lead : Float) (cs : List Char) :
    readAfterLead? lead (cs.map Char.toLower) = readAfterLead? lead cs := by
  cases cs with
  | nil => rfl
  | cons c cs =>
    simp only [readAfterLead?, List.map_cons, letterBlind_isFootMark c, letterBlind_isInchMark c,
      letterBlind_isSpacer c, readAfterFeet?_map, List.isEmpty_map, takeFraction?_map]
    cases takeFraction? cs with
    | none => rfl
    | some found => simp only [Option.map_some, lowerRest, isOneInchMark_map]

theorem readUnsignedLength?_map (cs : List Char) :
    readUnsignedLength? (cs.map Char.toLower) = readUnsignedLength? cs := by
  simp only [readUnsignedLength?, takeFraction?_map, takeDecimal?_map]
  cases takeFraction? cs with
  | some found => simp only [Option.map_some, lowerRest, isOneInchMark_map]
  | none =>
    cases takeDecimal? cs with
    | some found => simp only [Option.map_none, Option.map_some, lowerRest, readAfterLead?_map]
    | none => rfl

/-- The converter reads the same length in capital and in small letters. -/
theorem readLength?_map : Converter.IgnoresCase readLength? := by
  intro cs
  cases cs with
  | nil => rfl
  | cons c cs =>
    simp only [readLength?, List.map_cons, letterBlind_isMinus c, readUnsignedLength?_map]
    rw [← List.map_cons, readUnsignedLength?_map]

end LengthFormula
