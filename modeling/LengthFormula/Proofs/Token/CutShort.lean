import LengthFormula.Proofs.Token.Closing
import LengthFormula.Proofs.Token.Front
import LengthFormula.Proofs.Token.Spacing

/-!
# Texts that end earlier

The tokens in front of a place in a text do not depend on what is behind it: where the text is cut
off behind a token, or in the white space there, its tokens are those that were read up to the place
(`tokenize_textOf`).  A number literal is the case that needs care, since the scanner may have
looked past the place and gone back from it; then it looks less far, and what it finds is refused as
well (`Literal.read_of_isPrefix`).
-/

namespace LengthFormula

/-! ## Literals -/

namespace Literal

variable {body x x' : List Char} {v : Float}

/-- A line break ends a literal. -/
theorem scan_append_lineBreak (a x : List Char) : scan (a ++ '\n' :: x) = scan a :=
  scan_append_stop (by decide) (.inr (by decide))

/-- What is taken as a number in front of a text that opens with no foot mark is taken with the same
value where that text ends earlier. -/
theorem read_of_isPrefix (hlead : startsWith isNumberLead (body ++ x) = true)
    (h : (scan (body ++ x)).read readLength? = (body, some v))
    (hfoot : startsWith isFootMark x = false) (hx : x' <+: x) :
    (scan (body ++ x')).read readLength? = (body, some v) := by
  -- a blank put in changes nothing, and a line break ends what is in front of it
  obtain ⟨back, rfl⟩ := hx
  have hspaced := read_spaced hlead h hfoot (.insert (by decide : isBlank '\n' = true) x' back)
  rwa [← List.append_assoc, scan_append_lineBreak] at hspaced

/-- What is taken as a number is taken with the same value where the text ends behind it. -/
theorem read_alone (hlead : startsWith isNumberLead (body ++ x) = true)
    (h : (scan (body ++ x)).read readLength? = (body, some v)) :
    (scan body).read readLength? = (body, some v) := by
  by_cases hfoot : startsWith isFootMark x = false
  · have hread := read_of_isPrefix hlead h hfoot List.nil_prefix
    rwa [List.append_nil] at hread
  obtain ⟨l, bar, y, htext, hcut⟩ := exists_cutOff (body ++ x)
  rw [htext, hcut.scan_eq] at h
  have hblank : isBlank '\n' = true := by decide
  cases hwhole : l.wholeValue? readLength? with
  | some u =>
    have hbody : l.whole = body := by
      rw [read, hwhole] at h
      exact (Prod.mk.inj h).1
    have hscan := (hcut.spaced (.here hblank)).scan_eq
    rw [scan_append_lineBreak, hbody] at hscan
    rwa [hscan]
  | none =>
    by_cases hpart : l.part = []
    · -- the feet are refused, so the decimal in front of them is all that is taken
      obtain ⟨rfl, -⟩ := read_of_no_part hwhole hpart h
      have hmarks : ∀ c ∈ l.lead, isFootMark c = false := fun c hc =>
        isFootMark_of_inNumber (inNumber_of_decimalPart hcut.decimalPart_eq c hc)
      have hvalue : readLength? (l.lead ++ []) = some v := by
        rw [List.append_nil]
        exact convert_of_read h hmarks
      have hdecimal := (Spaced.here hblank).decimalPart_append hcut.decimalPart_eq
      have hscan := scan_eq hdecimal rfl rfl
      rw [scan_append_lineBreak] at hscan
      have hread := read_of_feet hvalue
      rw [List.append_nil] at hread
      exact hscan ▸ hread
    · -- a fraction part opens with no foot mark
      rw [read_of_refused hwhole hpart] at h
      obtain ⟨rfl, -⟩ := Prod.mk.inj h
      rw [whole_append, List.append_assoc, List.append_cancel_left_eq,
        List.append_cancel_left_eq] at htext
      obtain ⟨c, cs, hcs⟩ := List.exists_cons_of_ne_nil hpart
      rw [htext, hcs, List.cons_append, startsWith_cons] at hfoot
      exact absurd (hcut.partText.unmarked c (by simp [hcs])).1 hfoot

end Literal

/-! ## Lexemes -/

theorem startsWith_eq_false_of_isPrefix {p : Char → Bool} {x x' : List Char} (hx : x' <+: x)
    (h : startsWith p x = false) : startsWith p x' = false := by
  obtain ⟨back, rfl⟩ := hx
  cases x' with
  | nil => rfl
  | cons c x' => exact h

/-- What opens no number behind white space opens none where the text ends earlier. -/
theorem opensNumber_dropWhile_of_isPrefix {x x' : List Char} (hx : x' <+: x)
    (h : opensNumber (x.dropWhile isBlank) = false) :
    opensNumber (x'.dropWhile isBlank) = false := by
  obtain ⟨back, rfl⟩ := hx
  rw [Bool.eq_false_iff] at h ⊢
  intro hopens
  have hne : (x'.dropWhile isBlank).isEmpty = false := by
    rw [List.isEmpty_eq_false_iff]
    exact ne_nil_of_opensNumber hopens
  rw [List.dropWhile_append, hne, if_neg Bool.false_ne_true] at h
  exact h (opensNumber_append_right hopens back)

/-- A lexeme stands where the text behind it ends earlier.  In front of a foot mark, it stands where
the text ends with it. -/
theorem Lexeme.Stands.of_isPrefix {previous : Option TokenKind} {l : Lexeme}
    {behind behind' : List Char} (h : l.Stands readLength? previous behind)
    (hx : behind' <+: behind) (hfoot : startsWith isFootMark behind = false ∨ behind' = []) :
    l.Stands readLength? previous behind' := by
  cases hkind : l.kind with
  | number x =>
    refine h.of_number hkind (SameSide.refl _) ?_
    rw [Stands] at h
    simp only [hkind] at h ⊢
    refine scanNumber_of_read h.1 h.2 fun body v hlead hread => ?_
    rcases hfoot with hfoot | rfl
    · exact Literal.read_of_isPrefix hlead hread hfoot hx
    · rw [List.append_nil]
      exact Literal.read_alone hlead hread
  | name name =>
    refine h.of_name hkind (startsWith_eq_false_of_isPrefix hx ?_)
    rw [Stands] at h
    simp only [hkind] at h
    exact h.2.2.2
  | _ =>
    refine h.of_mark (by rw [hkind]; rfl) (SameSide.refl _) ?_
    exact fun _ _ => opensNumber_dropWhile_of_isPrefix hx

/-! ## Rows -/

/-- The lexemes at the front of a text are all lexemes of the text that ends behind them. -/
theorem CutFront.cut {previous : Option TokenKind} {ls : List Lexeme} {gap rest : List Char}
    (h : CutFront readLength? previous ls (gap ++ rest)) (hgap : ∀ c ∈ gap, isBlank c = true) :
    Cut readLength? previous ls gap := by
  induction ls generalizing previous with
  | nil => exact hgap
  | cons l ls ih =>
    obtain ⟨hblanks, hfirst, hscan, hfront⟩ := h
    have hcut := ih hfront
    refine cut_cons_iff.2 ⟨hblanks, hfirst, ?_, hcut⟩
    rw [textOf_append_trail] at hscan
    refine (stands_of_scanToken hscan).of_isPrefix (List.prefix_append _ _) ?_
    -- no lexeme opens with a foot mark, and no blank is one
    by_cases hempty : textOf ls gap = []
    · exact .inr hempty
    · rw [startsWith_append_of_ne_nil hempty]
      exact .inl (startsWith_isFootMark_textOf hcut)

/-- A text that is cut off behind some of its tokens, or in the white space there, has just these
tokens. -/
theorem tokenize_textOf {ls : List Lexeme} {gap rest : List Char}
    (h : CutFront readLength? none ls (gap ++ rest)) (hgap : ∀ c ∈ gap, isBlank c = true) :
    tokenize readLength? (textOf ls gap) = .ok (tokensFrom 0 ls gap) :=
  tokenize_of_cut (h.cut hgap)

end LengthFormula
