import LengthFormula.Proofs.Formula.PutIn

/-!
# Tokens do not see past a closing mark

A comma and a closing parenthesis end every token in front of them, whatever is behind.  So a text
that has tokens of its own keeps them in parentheses and as an argument of a call
(`cut_append_closing`), as long as signs at its start are read alike.
-/

namespace LengthFormula

/-! ## Marks that end all tokens -/

/-- A character that no token holds unless it is one by itself, and that no token looks past. -/
structure IsClosing (c : Char) : Prop where
  endsLiteral : endsLiteral c = true
  isExponentMark : isExponentMark c = false
  isBlank : isBlank c = false
  isWord : isWord c = false

theorem isClosing_rightParen : IsClosing ')' where
  endsLiteral := by decide
  isExponentMark := by decide
  isBlank := by decide
  isWord := by decide

theorem isClosing_comma : IsClosing ',' where
  endsLiteral := by decide
  isExponentMark := by decide
  isBlank := by decide
  isWord := by decide

section Closing

variable {a x : List Char} {c : Char}

theorem IsClosing.isSign (h : IsClosing c) : isSign c = false :=
  (endsLiteral_iff.1 h.endsLiteral).2.1

theorem IsClosing.isNumberLead (h : IsClosing c) : isNumberLead c = false :=
  (endsLiteral_iff.1 h.endsLiteral).1

theorem IsClosing.isDigit (h : IsClosing c) : isDigit c = false :=
  isDigit_of_isNumberLead_eq_false h.isNumberLead

theorem IsClosing.isDot (h : IsClosing c) : isDot c = false := by
  have hlead := h.isNumberLead
  rw [LengthFormula.isNumberLead, Bool.or_eq_false_iff] at hlead
  exact hlead.2

theorem opensNumber_append_stop (h : IsClosing c) :
    opensNumber (a ++ c :: x) = opensNumber a := by
  rw [opensNumber, startsWith_append_stop h.isDigit, digitAfter_append_stop h.isDot h.isDigit,
    opensNumber]

theorem opensNumber_dropWhile_append_stop (h : IsClosing c) :
    opensNumber ((a ++ c :: x).dropWhile isBlank) = opensNumber (a.dropWhile isBlank) := by
  rw [dropWhile_append_stop h.isBlank, opensNumber_append_stop h]

/-- A number literal is scanned as if the text ended at the mark. -/
theorem scanNumber_append_stop (convert : Converter) (h : IsClosing c) :
    scanNumber convert (a ++ c :: x) = scanNumber convert a := by
  have hdrop : (a ++ c :: x).drop (signPart a).length = a.drop (signPart a).length ++ c :: x :=
    List.drop_append_of_le_length (signPart_isPrefix a).length_le
  unfold scanNumber
  simp only [signPart_append_stop h.isSign h.isBlank, hdrop,
    Literal.scan_append_stop h.endsLiteral (.inr h.isExponentMark)]

/-- A lexeme that stands at the end of a text stands in front of the mark. -/
theorem Lexeme.Stands.append_closing {convert : Converter} {previous previous' : Option TokenKind}
    {l : Lexeme} {behind : List Char} (h : l.Stands convert previous behind)
    (hside : SameSide previous previous') (hc : IsClosing c) (x : List Char) :
    l.Stands convert previous' (behind ++ c :: x) := by
  cases hkind : l.kind with
  | number value =>
    refine h.of_number hkind hside ?_
    have hscan := h
    rw [Stands] at hscan
    simp only [hkind] at hscan
    rw [hkind, ← List.append_assoc, scanNumber_append_stop convert hc]
    exact hscan.2
  | name name =>
    refine h.of_name hkind ?_
    have hword := h
    rw [Stands] at hword
    simp only [hkind] at hword
    rw [startsWith_append_stop hc.isWord]
    exact hword.2.2.2
  | _ =>
    refine h.of_mark (by rw [hkind]; rfl) hside ?_
    intro _ _ hopens
    rw [opensNumber_dropWhile_append_stop hc]
    exact hopens

end Closing

/-! ## Rows of lexemes around a part -/

section Rows

variable {convert : Converter} {previous previous' : Option TokenKind} {ls : List Lexeme}
  {trail : List Char}

/-- A single mark as a lexeme, with the white space in front of it. -/
def Lexeme.mark (gap : List Char) (kind : TokenKind) (c : Char) : Lexeme := ⟨gap, kind, c, []⟩

theorem textOf_append_trail (ls : List Lexeme) (trail x : List Char) :
    textOf ls (trail ++ x) = textOf ls trail ++ x := by
  induction ls with
  | nil => rfl
  | cons l ls ih =>
    rw [textOf, textOf, ih]
    simp

theorem textOf_mark (gap : List Char) (kind : TokenKind) (c : Char) :
    textOf (Lexeme.mark gap kind c :: ls) trail = gap ++ c :: textOf ls trail := rfl

/-- Behind a row stands a mark with the white space that ended the row. -/
theorem textOf_append_mark (a : List Lexeme) (gap : List Char) (kind : TokenKind) (c : Char) :
    textOf (a ++ Lexeme.mark gap kind c :: ls) trail = textOf a gap ++ c :: textOf ls trail := by
  rw [textOf_append, textOf_mark, textOf_append_trail]

theorem isLeaf_of_punctuation? {c : Char} {kind : TokenKind}
    (h : punctuation? previous c = some kind) : kind.isLeaf = false := by
  unfold punctuation? at h
  split at h <;> cases h <;> first | rfl | (split <;> rfl)

theorem isBlank_of_punctuation? {c : Char} {kind : TokenKind}
    (h : punctuation? previous c = some kind) : isBlank c = false := by
  unfold punctuation? at h
  split at h <;> first | decide | cases h

/-- A mark is cut off, unless it is a sign of the number behind it. -/
theorem cut_mark {c : Char} {kind : TokenKind} {gap : List Char}
    (hgap : ∀ d ∈ gap, isBlank d = true) (hkind : punctuation? previous c = some kind)
    (hsign : isSign c = true → admitsSign previous = true →
      opensNumber ((textOf ls trail).dropWhile isBlank) = false)
    (h : Cut convert (some kind) ls trail) :
    Cut convert previous (Lexeme.mark gap kind c :: ls) trail := by
  refine cut_cons_iff.2 ⟨hgap, isBlank_of_punctuation? hkind, ?_, h⟩
  exact (Lexeme.stands_iff_of_mark (isLeaf_of_punctuation? hkind)).2 ⟨rfl, hkind, hsign⟩

/-- The lexemes of a text stay the same in front of a closing mark, if signs at its start are read
alike. -/
theorem cut_append_closing {a : List Lexeme} {gap : List Char} {c : Char} {kind : TokenKind}
    (ha : Cut convert previous a gap) (hside : SameSide previous previous') (hc : IsClosing c)
    (hkind : ∀ last, punctuation? last c = some kind) (h : Cut convert (some kind) ls trail) :
    Cut convert previous' (a ++ Lexeme.mark gap kind c :: ls) trail := by
  induction a generalizing previous previous' with
  | nil =>
    refine cut_mark ha (hkind previous') ?_ h
    intro hsign
    rw [hc.isSign] at hsign
    cases hsign
  | cons l a ih =>
    obtain ⟨hgap, hfirst, hstands, hrest⟩ := cut_cons_iff.1 ha
    refine cut_cons_iff.2 ⟨hgap, hfirst, ?_, ih hrest (SameSide.refl _)⟩
    rw [List.append_eq, textOf_append_mark]
    exact hstands.append_closing hside hc _

end Rows

end LengthFormula
