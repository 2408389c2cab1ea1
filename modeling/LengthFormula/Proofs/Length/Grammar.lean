import LengthFormula.Proofs.Decimal.Parts
import LengthFormula.Proofs.Length.LiteralText

/-!
# The grammar of lengths

The texts of lengths, piece by piece, each with the number that it writes: a decimal, a fraction,
the inches behind a foot mark, and a length.  Nothing here mentions a cursor.  What is read as a
length is one of these texts (`lengthText_of_readUnsignedLength?`), or a minus in front of one
(`lengthText_of_readLength?`).
-/

namespace LengthFormula

/-- Digits and points and a power of ten that read as a decimal, and the double nearest to it. -/
inductive DecimalText : List Char → Float → Prop
  | intro {lead power : List Char} {d : Decimal} :
      (∀ c ∈ lead, isNumberLead c = true) → PowerText power →
      Decimal.read? (lead ++ power) = some d → DecimalText (lead ++ power) (d.toDouble false)

/-- Digits, a bar and digits that are not all zero, and their quotient. -/
inductive FractionText : List Char → Float → Prop
  | intro {a b : List Char} :
      IsDigits a → IsDigits b → Nat.ofDigitChars 10 b 0 ≠ 0 →
      FractionText (a ++ '/' :: b) (digitsDouble a / digitsDouble b)

/-- The inches behind a foot mark. -/
inductive InchesText : List Char → Float → Prop
  | fraction {cs : List Char} {x : Float} : FractionText cs x → InchesText cs x
  | decimal {cs : List Char} {x : Float} : DecimalText cs x → InchesText cs x
  | mixed {a b : List Char} {c : Char} {x y : Float} :
      DecimalText a x → isSpacer c = true → FractionText b y → InchesText (a ++ c :: b) (x + y)

/-- What may stand between the foot mark and the inches. -/
def IsGap (gap : List Char) : Prop := gap = [] ∨ ∃ c, isSpacer c = true ∧ gap = [c]

/-- What may stand behind the inches of a length with feet. -/
def IsInchMarks (mark : List Char) : Prop := mark = [] ∨ mark = ['\x22']

/-- A length without a sign, in inches. -/
inductive LengthText : List Char → Float → Prop
  | fraction {cs : List Char} {x : Float} : FractionText cs x → LengthText (cs ++ ['\x22']) x
  | decimal {cs : List Char} {x : Float} : DecimalText cs x → LengthText cs x
  | marked {cs : List Char} {x : Float} : DecimalText cs x → LengthText (cs ++ ['\x22']) x
  | feet {cs : List Char} {x : Float} :
      DecimalText cs x → LengthText (cs ++ ['\x27']) (LengthUnit.foot.toInches x)
  | feetInches {a gap b mark : List Char} {x y : Float} :
      DecimalText a x → IsGap gap → InchesText b y → IsInchMarks mark →
      LengthText (a ++ '\x27' :: (gap ++ (b ++ mark))) (LengthUnit.foot.toInches x + y)
  | mixed {a b : List Char} {c : Char} {x y : Float} :
      DecimalText a x → isSpacer c = true → FractionText b y →
      LengthText (a ++ c :: (b ++ ['\x22'])) (x + y)

/-! ## What is read is in the grammar -/

/-- What is taken off as a decimal is one. -/
theorem decimalText_of_takeDecimal? {cs rest : List Char} {x : Float}
    (h : takeDecimal? cs = some (x, rest)) : ∃ a, cs = a ++ rest ∧ DecimalText a x := by
  rw [takeDecimal?] at h
  obtain ⟨d, hd, heq⟩ := Option.map_eq_some_iff.1 h
  obtain ⟨rfl, rfl⟩ := Prod.mk.inj heq
  refine ⟨decimalPart cs, (scanDecimal_append cs).symm, ?_⟩
  rw [decimalPart] at hd ⊢
  exact .intro (fun c hc => List.all_eq_true.1 List.all_takeWhile c hc) (powerText_powerPart _) hd

/-- What is taken off as a fraction is one. -/
theorem fractionText_of_takeFraction? {cs rest : List Char} {x : Float}
    (h : takeFraction? cs = some (x, rest)) : ∃ a, cs = a ++ rest ∧ FractionText a x := by
  unfold takeFraction? at h
  split at h
  · cases h
  · next bar ds hds =>
    simp only at h
    split at h
    · next hparts =>
      obtain ⟨rfl, rfl⟩ := Prod.mk.inj (Option.some.inj h)
      simp only [Bool.and_eq_true, Bool.not_eq_true', List.isEmpty_eq_false_iff, bne_iff_ne,
        isFractionBar, beq_iff_eq] at hparts
      obtain ⟨⟨rfl, hnumerator⟩, hvalue⟩ := hparts
      have hdenominator : ds.takeWhile isDigit ≠ [] := by
        intro hnil
        rw [hnil] at hvalue
        exact hvalue rfl
      refine ⟨cs.takeWhile isDigit ++ '/' :: ds.takeWhile isDigit, ?_,
        .intro (isDigits_of_takeWhile hnumerator) (isDigits_of_takeWhile hdenominator) hvalue⟩
      rw [List.append_assoc, List.cons_append, List.takeWhile_append_dropWhile, ← hds,
        List.takeWhile_append_dropWhile]
    · cases h

/-- What is taken off as inches is a text of inches. -/
theorem inchesText_of_takeInches? {cs rest : List Char} {x : Float}
    (h : takeInches? cs = some (x, rest)) : ∃ a, cs = a ++ rest ∧ InchesText a x := by
  unfold takeInches? at h
  split at h
  · next found hfraction =>
    cases h
    obtain ⟨a, rfl, ha⟩ := fractionText_of_takeFraction? hfraction
    exact ⟨a, rfl, .fraction ha⟩
  · split at h
    · cases h
    · next whole behind hdecimal =>
      obtain ⟨a, rfl, ha⟩ := decimalText_of_takeDecimal? hdecimal
      split at h
      · cases h
        exact ⟨a, rfl, .decimal ha⟩
      · split at h
        · next hspacer =>
          split at h
          · next part left hpart =>
            cases h
            obtain ⟨b, rfl, hb⟩ := fractionText_of_takeFraction? hpart
            exact ⟨a ++ _ :: b, by simp, .mixed ha hspacer hb⟩
          · cases h
            exact ⟨a, rfl, .decimal ha⟩
        · cases h
          exact ⟨a, rfl, .decimal ha⟩

theorem eq_inchMark {c : Char} (h : isInchMark c = true) : c = '\x22' := beq_iff_eq.1 h

theorem isInchMarks_of_closesInches {cs : List Char} (h : closesInches cs = true) :
    IsInchMarks cs := by
  unfold closesInches at h
  split at h
  · exact .inl rfl
  · rw [eq_inchMark h]
    exact .inr rfl
  · cases h

theorem eq_of_isOneInchMark {cs : List Char} (h : isOneInchMark cs = true) : cs = ['\x22'] := by
  unfold isOneInchMark at h
  split at h
  · rw [eq_inchMark h]
  · cases h

/-- What is read behind a foot mark is nothing, or inches. -/
theorem lengthText_of_readAfterFeet? {a cs : List Char} {x v : Float} (ha : DecimalText a x)
    (h : readAfterFeet? (LengthUnit.foot.toInches x) cs = some v) :
    LengthText (a ++ '\x27' :: cs) v := by
  unfold readAfterFeet? at h
  split at h
  · cases h
    exact .feet ha
  · next c ds =>
    split at h
    · next inches rest hinches =>
      split at h
      · next hcloses =>
        cases h
        have hmark := isInchMarks_of_closesInches hcloses
        obtain ⟨b, htext, hb⟩ := inchesText_of_takeInches? hinches
        split at htext
        · next hspacer =>
          subst htext
          exact .feetInches ha (.inr ⟨c, hspacer, rfl⟩) hb hmark
        · rw [htext]
          exact .feetInches ha (.inl rfl) hb hmark
      · cases h
    · cases h

/-- What is read behind a leading decimal completes a length. -/
theorem lengthText_of_readAfterLead? {a cs : List Char} {x v : Float} (ha : DecimalText a x)
    (h : readAfterLead? x cs = some v) : LengthText (a ++ cs) v := by
  unfold readAfterLead? at h
  split at h
  · cases h
    rw [List.append_nil]
    exact .decimal ha
  · next c ds =>
    split at h
    · next hfoot =>
      rw [isFootMark, beq_iff_eq] at hfoot
      subst hfoot
      exact lengthText_of_readAfterFeet? ha h
    · split at h
      · next hinch =>
        split at h
        · next hnil =>
          cases h
          rw [List.isEmpty_iff] at hnil
          rw [hnil, eq_inchMark hinch]
          exact .marked ha
        · cases h
      · split at h
        · next hspacer =>
          split at h
          · next part rest hpart =>
            split at h
            · next hclosed =>
              cases h
              obtain ⟨b, rfl, hb⟩ := fractionText_of_takeFraction? hpart
              rw [eq_of_isOneInchMark hclosed]
              exact .mixed ha hspacer hb
            · cases h
          · cases h
        · cases h

/-- What is read as a length without a sign is one. -/
theorem lengthText_of_readUnsignedLength? {cs : List Char} {v : Float}
    (h : readUnsignedLength? cs = some v) : LengthText cs v := by
  unfold readUnsignedLength? at h
  split at h
  · next value rest hfraction =>
    split at h
    · next hclosed =>
      cases h
      obtain ⟨a, rfl, ha⟩ := fractionText_of_takeFraction? hfraction
      rw [eq_of_isOneInchMark hclosed]
      exact .fraction ha
    · cases h
  · split at h
    · next lead rest hdecimal =>
      obtain ⟨a, rfl, ha⟩ := decimalText_of_takeDecimal? hdecimal
      exact lengthText_of_readAfterLead? ha h
    · cases h

/-- What is read as a length is one, or a minus in front of one. -/
theorem lengthText_of_readLength? {cs : List Char} {v : Float}
    (h : readLength? cs = some v) :
    LengthText cs v ∨ ∃ body u, cs = '-' :: body ∧ LengthText body u ∧ v = -u := by
  cases cs with
  | nil => cases h
  | cons c cs =>
    rw [readLength?] at h
    split at h
    · next hminus =>
      obtain ⟨u, hu, rfl⟩ := Option.map_eq_some_iff.1 h
      rw [isMinus, beq_iff_eq] at hminus
      exact .inr ⟨cs, u, by rw [hminus], lengthText_of_readUnsignedLength? hu, rfl⟩
    · exact .inl (lengthText_of_readUnsignedLength? h)

end LengthFormula
