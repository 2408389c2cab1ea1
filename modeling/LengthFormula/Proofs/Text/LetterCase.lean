import LengthFormula.Proofs.Text.CharClass
import LengthFormula.Text.LowerCase

/-!
# The letter case of ASCII

`Char.toLower` changes the capital letters of ASCII and nothing else, so two texts differ at most in
the case of such letters if it makes them equal.  Most character classes do not tell the two cases
apart (`LetterBlind`), and neither does the full mapping to lower case (`lowerCase_toLower`).
-/

namespace LengthFormula

/-! ## Characters -/

section Chars

variable {α : Type} {f : Char → α} {c d : Char}

/-- The function takes both cases of a letter of ASCII to one value. -/
def LetterBlind (f : Char → α) : Prop := ∀ c : Char, f c.toLower = f c

/-- A character that is no capital letter of ASCII stays. -/
theorem toLower_eq_self_or_capital (c : Char) :
    c.toLower = c ∨ ∃ n < 26, c = Char.ofNat (0x41 + n) := by
  by_cases h : c.val ≥ 'A'.val ∧ c.val ≤ 'Z'.val
  · have hlo : 0x41 ≤ c.toNat := UInt32.le_iff_toNat_le.1 h.1
    have hhi : c.toNat ≤ 0x5A := UInt32.le_iff_toNat_le.1 h.2
    refine .inr ⟨c.toNat - 0x41, by omega, ?_⟩
    rw [Nat.add_sub_cancel' hlo, Char.ofNat_toNat]
  · exact .inl (dif_neg h)

/-- The capital letters decide. -/
theorem letterBlind_of_capitals
    (h : ∀ n < 26, f (Char.ofNat (0x41 + n)).toLower = f (Char.ofNat (0x41 + n))) :
    LetterBlind f := by
  intro c
  rcases toLower_eq_self_or_capital c with hsame | ⟨n, hn, rfl⟩
  · rw [hsame]
  · exact h n hn

/-- A character that is no letter of ASCII is the lower case of itself alone. -/
theorem toLower_eq_iff (h : d.isAlpha = false) : c.toLower = d ↔ c = d := by
  have hcapitals : ∀ n < 26, (Char.ofNat (0x41 + n)).toLower.isAlpha = true ∧
      (Char.ofNat (0x41 + n)).isAlpha = true := by decide
  rcases toLower_eq_self_or_capital c with hsame | ⟨n, hn, rfl⟩
  · rw [hsame]
  · obtain ⟨hsmall, hcapital⟩ := hcapitals n hn
    refine iff_of_false ?_ ?_
    · exact fun heq => Bool.false_ne_true (h.symm.trans (heq ▸ hsmall))
    · exact fun heq => Bool.false_ne_true (h.symm.trans (heq ▸ hcapital))

/-- What stands in no name has no letter case. -/
theorem toLower_of_isWord_eq_false (h : isWord c = false) : c.toLower = c := by
  have hcapitals : ∀ n < 26, isWord (Char.ofNat (0x41 + n)) = true := by decide
  rcases toLower_eq_self_or_capital c with hsame | ⟨n, hn, rfl⟩
  · exact hsame
  · exact absurd (hcapitals n hn) (Bool.eq_false_iff.1 h)

end Chars

/-! ## Classes -/

/-- No class of the formula language tells the two cases of a letter apart. -/
theorem CharClass.letterBlind_holds (k : CharClass) : LetterBlind k.holds := by
  cases k <;> exact letterBlind_of_capitals (by decide)

theorem letterBlind_isSign : LetterBlind isSign := CharClass.letterBlind_holds .sign

theorem letterBlind_isMinus : LetterBlind isMinus := CharClass.letterBlind_holds .minus

theorem letterBlind_isFractionBar : LetterBlind isFractionBar :=
  CharClass.letterBlind_holds .fractionBar

theorem letterBlind_isSpacer : LetterBlind isSpacer := CharClass.letterBlind_holds .spacer

theorem letterBlind_isExponentMark : LetterBlind isExponentMark :=
  CharClass.letterBlind_holds .exponentMark

theorem letterBlind_isDot : LetterBlind isDot := CharClass.letterBlind_holds .dot

theorem letterBlind_isNumberLead : LetterBlind isNumberLead :=
  CharClass.letterBlind_holds .numberLead

theorem letterBlind_isDigit : LetterBlind isDigit := CharClass.letterBlind_holds .digit

theorem letterBlind_isBlank : LetterBlind isBlank := CharClass.letterBlind_holds .blank

theorem letterBlind_isWord : LetterBlind isWord := CharClass.letterBlind_holds .word

theorem letterBlind_isFootMark : LetterBlind isFootMark := CharClass.letterBlind_holds .footMark

theorem letterBlind_isInchMark : LetterBlind isInchMark := CharClass.letterBlind_holds .inchMark

theorem letterBlind_toLower : LetterBlind Char.toLower := letterBlind_of_capitals (by decide)

theorem letterBlind_utf8Size : LetterBlind Char.utf8Size := letterBlind_of_capitals (by decide)

theorem letterBlind_lowerChar : LetterBlind lowerChar := letterBlind_of_capitals (by decide)

theorem letterBlind_cased : LetterBlind casedRanges.has := letterBlind_of_capitals (by decide)

/-- The letters of ASCII. -/
def asciiLetters : CodeRanges := [(0x41, 0x5A), (0x61, 0x7A)]

/-- No letter of ASCII is case-ignorable. -/
theorem letterBlind_caseIgnorable : LetterBlind caseIgnorableRanges.has := by
  have hapart : asciiLetters.apart caseIgnorableRanges = true := by decide +kernel
  have hcapitals : ∀ n < 26, asciiLetters.has (Char.ofNat (0x41 + n)).toLower = true ∧
      asciiLetters.has (Char.ofNat (0x41 + n)) = true := by decide
  intro c
  rcases toLower_eq_self_or_capital c with hsame | ⟨n, hn, rfl⟩
  · rw [hsame]
  · obtain ⟨hsmall, hcapital⟩ := hcapitals n hn
    rw [CodeRanges.has_of_apart hapart hsmall, CodeRanges.has_of_apart hapart hcapital]

/-! ## Lists of characters -/

section Lists

variable {p : Char → Bool} (h : LetterBlind p) (cs : List Char)

include h

theorem LetterBlind.takeWhile_map :
    (cs.map Char.toLower).takeWhile p = (cs.takeWhile p).map Char.toLower := by
  rw [List.takeWhile_map, show p ∘ Char.toLower = p from funext h]

theorem LetterBlind.dropWhile_map :
    (cs.map Char.toLower).dropWhile p = (cs.dropWhile p).map Char.toLower := by
  rw [List.dropWhile_map, show p ∘ Char.toLower = p from funext h]

theorem LetterBlind.all_map : (cs.map Char.toLower).all p = cs.all p := by
  rw [List.all_map, show p ∘ Char.toLower = p from funext h]

end Lists

/-- Digits have no letter case. -/
theorem map_toLower_of_digits {ds : List Char} (h : ∀ c ∈ ds, isDigit c = true) :
    ds.map Char.toLower = ds :=
  (List.map_congr_left fun c hc => toLower_of_isDigit (h c hc)).trans (List.map_id ds)

theorem takeWhile_isDigit_map (cs : List Char) :
    (cs.map Char.toLower).takeWhile isDigit = cs.takeWhile isDigit := by
  rw [letterBlind_isDigit.takeWhile_map]
  exact map_toLower_of_digits fun c hc => List.all_eq_true.1 List.all_takeWhile c hc

/-- A character that is no letter opens both texts or neither. -/
theorem exists_of_map_toLower_eq_cons {cs ds : List Char} {d : Char} (hd : d.isAlpha = false)
    (h : cs.map Char.toLower = d :: ds) : ∃ rest, cs = d :: rest := by
  obtain ⟨c, rest, rfl, hc, -⟩ := List.map_eq_cons_iff.1 h
  exact ⟨rest, by rw [(toLower_eq_iff hd).1 hc]⟩

/-! ## The full mapping to lower case -/

theorem meetsCased_map (cs : List Char) : meetsCased (cs.map Char.toLower) = meetsCased cs := by
  rw [meetsCased, meetsCased, letterBlind_caseIgnorable.dropWhile_map]
  cases cs.dropWhile caseIgnorableRanges.has with
  | nil => rfl
  | cons c rest => exact letterBlind_cased c

theorem lowerIn_map (before : List Char) (c : Char) (after : List Char) :
    lowerIn (before.map Char.toLower) c.toLower (after.map Char.toLower)
      = lowerIn before c after := by
  have hsigma : '\u03A3'.isAlpha = false := by decide
  have hdotted : '\u0130'.isAlpha = false := by decide
  simp only [lowerIn, toLower_eq_iff hsigma, toLower_eq_iff hdotted, meetsCased_map,
    letterBlind_lowerChar c]

theorem lowerFrom_map (before cs : List Char) :
    lowerFrom (before.map Char.toLower) (cs.map Char.toLower) = lowerFrom before cs := by
  induction cs generalizing before with
  | nil => rfl
  | cons c cs ih =>
    rw [List.map_cons, lowerFrom, lowerIn_map, ← List.map_cons, ih, lowerFrom]

theorem lowerChars_map (cs : List Char) : lowerChars (cs.map Char.toLower) = lowerChars cs :=
  lowerFrom_map [] cs

/-! ## Texts -/

theorem map_toLower_map_toLower (cs : List Char) :
    (cs.map Char.toLower).map Char.toLower = cs.map Char.toLower := by
  rw [List.map_map]
  exact List.map_congr_left fun c _ => letterBlind_toLower c

theorem toList_toLower (s : String) : s.toLower.toList = s.toList.map Char.toLower :=
  String.toList_map

theorem toLower_eq_toLower_iff {s t : String} :
    s.toLower = t.toLower ↔ s.toList.map Char.toLower = t.toList.map Char.toLower := by
  rw [← String.toList_inj, toList_toLower, toList_toLower]

theorem ofList_map_toLower (cs : List Char) :
    String.ofList (cs.map Char.toLower) = (String.ofList cs).toLower := by
  rw [← String.toList_inj, toList_toLower, String.toList_ofList, String.toList_ofList]

theorem toLower_toLower (s : String) : s.toLower.toLower = s.toLower := by
  rw [← String.toList_inj, toList_toLower, toList_toLower, map_toLower_map_toLower]

/-- Texts that differ at most in the case of letters of ASCII have one lower case. -/
theorem lowerCase_toLower (s : String) : lowerCase s.toLower = lowerCase s := by
  rw [lowerCase, lowerCase, toList_toLower, lowerChars_map]

end LengthFormula
