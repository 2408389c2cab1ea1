import LengthFormula.Proofs.Decimal.PlainText
import LengthFormula.Proofs.Token.Standing

/-!
# Plain decimals as lengths

A plain decimal reads as a length of so many inches, and it is a number literal of its own where
the scanner takes it alone.
-/

namespace LengthFormula

namespace PlainDecimal

variable {cs : List Char} {d : Decimal}

theorem decimalPart_eq (h : PlainDecimal cs d) : decimalPart cs = cs := by
  rw [decimalPart, takeWhile_of_forall h.isNumberLead, dropWhile_of_forall h.isNumberLead]
  exact List.append_nil cs

/-- There is no fraction bar behind the digits in front. -/
theorem takeFraction?_eq (h : PlainDecimal cs d) : takeFraction? cs = none := by
  have hlead := h.isNumberLead
  unfold takeFraction?
  split
  · rfl
  · next bar ds hds =>
    have hmem : bar ∈ cs := by
      have hbar : bar ∈ cs.dropWhile isDigit := hds ▸ List.mem_cons_self
      exact (List.dropWhile_suffix _).subset hbar
    have hbar : isFractionBar bar = false := by
      have := hlead bar hmem
      rw [isFractionBar, beq_eq_false_iff_ne]
      rintro rfl
      cases this
    simp [hbar]

/-- The text is read as so many inches. -/
theorem readLength?_eq (h : PlainDecimal cs d) : readLength? cs = some (d.toDouble false) := by
  have hdecimal : takeDecimal? cs = some (d.toDouble false, []) := by
    rw [takeDecimal?, scanDecimal, h.decimalPart_eq, List.drop_length]
    simp only [h.read?_eq, Option.map_some]
  obtain ⟨c, ds, rfl, hc⟩ := h.exists_cons
  have hminus : isMinus c = false := by
    rw [isMinus, beq_eq_false_iff_ne]
    rintro rfl
    cases hc
  rw [readLength?, if_neg (Bool.eq_false_iff.1 hminus), readUnsignedLength?, h.takeFraction?_eq,
    hdecimal]
  rfl

/-- Where a literal takes the text alone, it has the value of the text. -/
theorem kind_of_scanNumber (h : PlainDecimal cs d) {behind : List Char} {kind : TokenKind}
    (hscan : scanNumber readLength? (cs ++ behind) = .ok (kind, cs)) :
    kind = .number (d.toDouble false) := by
  obtain ⟨body, x, hread, hchars, hkind⟩ := scanNumber_eq_ok_iff.1 hscan
  have hsign : signPart (cs ++ behind) = [] := by
    obtain ⟨c, ds, rfl, hc⟩ := h.exists_cons
    exact signPart_of_isNumberLead (h.isNumberLead c List.mem_cons_self)
  rw [hsign, List.nil_append] at hchars
  subst hchars
  have hvalue : readLength? cs = some x := by
    refine Literal.convert_of_read hread ?_
    intro c hc
    have := h.isNumberLead c hc
    rw [isFootMark, beq_eq_false_iff_ne]
    rintro rfl
    cases this
  rw [h.readLength?_eq, Option.some.injEq] at hvalue
  rw [hkind, hsign, ← hvalue]
  rfl

/-- The text alone is taken as a whole, with its value. -/
theorem read_literal (h : PlainDecimal cs d) :
    Literal.read readLength? ⟨cs, [], [], []⟩ = (cs, some (d.toDouble false)) := by
  have hwhole : Literal.whole ⟨cs, [], [], []⟩ = cs := by simp [Literal.whole]
  have hvalue : Literal.wholeValue? readLength? ⟨cs, [], [], []⟩ = some (d.toDouble false) := by
    rw [Literal.wholeValue?, Literal.isFractionOfFeet, startsWith_nil, hwhole]
    exact h.readLength?_eq
  rw [Literal.read, hvalue, hwhole]

/-- The scanner finds a lone decimal in the text. -/
theorem scan_eq (h : PlainDecimal cs d) : Literal.scan cs = ⟨cs, [], [], []⟩ := by
  rw [Literal.scan, h.decimalPart_eq, List.drop_length]
  rfl

/-- The text is one literal. -/
theorem scanNumber_eq (h : PlainDecimal cs d) :
    scanNumber readLength? cs = .ok (.number (d.toDouble false), cs) := by
  have hsign : signPart cs = [] := by
    obtain ⟨c, ds, rfl, hc⟩ := h.exists_cons
    exact signPart_of_isNumberLead (h.isNumberLead c List.mem_cons_self)
  refine scanNumber_eq_ok_iff.2 ⟨cs, d.toDouble false, ?_, ?_, ?_⟩
  · rw [hsign, List.length_nil, List.drop_zero, h.scan_eq, h.read_literal]
  · rw [hsign, List.nil_append]
  · rw [hsign]
    rfl

/-- In front of a closing parenthesis a minus and the text are one literal. -/
theorem scanNumber_minus (h : PlainDecimal cs d) (behind : List Char) :
    scanNumber readLength? ('-' :: (cs ++ ')' :: behind))
      = .ok (.number (-d.toDouble false), '-' :: cs) := by
  have hsign : signPart ('-' :: (cs ++ ')' :: behind)) = ['-'] := by
    obtain ⟨c, ds, rfl, hc⟩ := h.exists_cons
    have hblank : isBlank c = false := isBlank_of_isWord (isWord_of_isDigit hc)
    rw [signPart_of_isSign rfl, List.cons_append, List.takeWhile_cons, hblank]
    rfl
  have hscan : Literal.scan (cs ++ ')' :: behind) = ⟨cs, [], [], []⟩ := by
    rw [Literal.scan_append_stop (by decide) (.inr (by decide)), h.scan_eq]
  refine scanNumber_eq_ok_iff.2 ⟨cs, d.toDouble false, ?_, ?_, ?_⟩
  · rw [hsign, List.length_singleton, List.drop_succ_cons, List.drop_zero, hscan, h.read_literal]
  · rw [hsign]
    rfl
  · rw [hsign]
    rfl

end PlainDecimal

end LengthFormula
