import LengthFormula.Proofs.Length.Refusal

/-!
# The grammar of lengths is read

Whatever the grammar of lengths derives is read as a length, with the number that it writes
(`LengthText.readUnsignedLength?_eq`).  Each reader of a piece takes exactly its own piece off the
front of a text that does not continue it, so the ordered choices of the reader never cut a length
short.
-/

namespace LengthFormula

/-! ## Taking pieces off the front -/

section Pieces

variable {a b cs gap mark rest : List Char} {x y v : Float}

theorem DecimalText.takeFraction?_append (h : DecimalText a x)
    (hbar : startsWith isFractionBar rest = false) (hrest : startsWith isNumberLead rest = false) :
    takeFraction? (a ++ rest) = none := by
  cases h with
  | intro hlead hpower _ => exact takeFraction?_eq_none_of_power hlead hpower hbar hrest

/-- A fraction is taken off in front of anything but a digit. -/
theorem FractionText.takeFraction?_append (h : FractionText a x)
    (hrest : startsWith isDigit rest = false) : takeFraction? (a ++ rest) = some (x, rest) := by
  cases h with
  | intro hn hb hvalue =>
    rw [List.append_assoc, List.cons_append, LengthFormula.takeFraction?_append hn hb.2 hrest,
      if_neg hvalue]

/-- A spacer continues neither a decimal nor a fraction. -/
theorem stops_of_isSpacer {c : Char} (hc : isSpacer c = true) (cs : List Char) :
    startsWith isFractionBar (c :: cs) = false ∧ startsWith isNumberLead (c :: cs) = false ∧
      startsWith isExponentMark (c :: cs) = false :=
  ⟨isFractionBar_of_isSpacer hc, isNumberLead_of_isSpacer hc, isExponentMark_of_isSpacer hc⟩

/-- Inches open with a digit or a point. -/
theorem InchesText.startsWith_isNumberLead (h : InchesText b y) :
    startsWith isNumberLead b = true := by
  obtain ⟨lead, more, hparts⟩ := h.exists_parts
  obtain ⟨d, ds, hcons⟩ := List.exists_cons_of_ne_nil hparts.ne_nil
  rw [hparts.append_eq, hcons]
  exact hparts.isNumberLead d (hcons ▸ List.mem_cons_self)

/-- Inches are taken off in front of their mark. -/
theorem InchesText.takeInches?_append (h : InchesText b y) (hmark : IsInchMarks mark) :
    takeInches? (b ++ mark) = some (y, mark) := by
  cases h with
  | fraction hb => rw [takeInches?, hb.takeFraction?_append hmark.startsWith_isDigit]
  | decimal hb =>
    rcases hmark with rfl | rfl
    · rw [takeInches?, hb.takeFraction?_append rfl rfl, hb.takeDecimal?_append rfl rfl]
    · rw [takeInches?, hb.takeFraction?_append rfl rfl, hb.takeDecimal?_append rfl rfl]
      rfl
  | @mixed a f c _ _ ha hc hf =>
    obtain ⟨hbar, hlead, hexp⟩ := stops_of_isSpacer hc (f ++ mark)
    rw [List.append_assoc, List.cons_append, takeInches?, ha.takeFraction?_append hbar hlead,
      ha.takeDecimal?_append hlead hexp]
    simp only [hc, if_true, hf.takeFraction?_append hmark.startsWith_isDigit]

/-- Behind a leading decimal it is the rest of the text that decides. -/
theorem DecimalText.readUnsignedLength?_append (h : DecimalText a x)
    (hbar : startsWith isFractionBar rest = false) (hrest : startsWith isNumberLead rest = false)
    (hmark : startsWith isExponentMark rest = false) :
    readUnsignedLength? (a ++ rest) = readAfterLead? x rest := by
  rw [readUnsignedLength?, h.takeFraction?_append hbar hrest, h.takeDecimal?_append hrest hmark]

/-! ## Lengths of every form -/

/-- Every length is read, with the number that it writes. -/
theorem LengthText.readUnsignedLength?_eq (h : LengthText cs v) :
    readUnsignedLength? cs = some v := by
  cases h with
  | fraction hf =>
    rw [readUnsignedLength?, hf.takeFraction?_append rfl]
    rfl
  | decimal ha =>
    rw [← List.append_nil cs, ha.readUnsignedLength?_append rfl rfl rfl]
    rfl
  | marked ha | feet ha =>
    rw [ha.readUnsignedLength?_append rfl rfl rfl]
    rfl
  | @feetInches a gap b mark x y ha hgap hb hmark =>
    have hlead := hb.startsWith_isNumberLead
    have hne : b ++ mark ≠ [] := by
      rintro hnil
      rw [(List.append_eq_nil_iff.1 hnil).1] at hlead
      cases hlead
    have hspacer : startsWith isSpacer (b ++ mark) = false := by
      cases b with
      | nil => cases hlead
      | cons c b => exact isSpacer_of_isNumberLead hlead
    have hfeet : readAfterLead? x ('\x27' :: (gap ++ (b ++ mark)))
        = readAfterFeet? (LengthUnit.foot.toInches x) (gap ++ (b ++ mark)) := rfl
    rw [ha.readUnsignedLength?_append rfl rfl rfl, hfeet, readAfterFeet?_append _ hgap hne hspacer,
      hb.takeInches?_append hmark, Option.bind_some, hmark.closesInches_eq, if_pos rfl]
  | @mixed a b c x y ha hc hb =>
    have hfoot := isFootMark_of_isSpacer hc
    have hinch : isInchMark c = false := of_isSpacer hc rfl rfl
    obtain ⟨hbar, hlead, hexp⟩ := stops_of_isSpacer hc (b ++ ['\x22'])
    have hfraction : takeFraction? (b ++ ['\x22']) = some (y, ['\x22']) :=
      hb.takeFraction?_append rfl
    rw [ha.readUnsignedLength?_append hbar hlead hexp, readAfterLead?, hfoot, hinch, hc]
    simp only [Bool.false_eq_true, if_false, if_true, hfraction]
    rfl

end Pieces

end LengthFormula
