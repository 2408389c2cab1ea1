import LengthFormula.Proofs.Text.CharClass
import LengthFormula.Token.Lexer

/-!
# Texts with a blank put in

`Spaced cs cs'` says that `cs'` is `cs` with one character of white space put in somewhere.  A blank
opens no number and no word, so what does not open with a character of some other class does not
open with one after a blank was put in.  Only the spacers need care: a space is one of them.
-/

namespace LengthFormula

/-- The second text is the first one with a blank put in. -/
inductive Spaced : List Char → List Char → Prop
  | here {w : Char} {cs : List Char} : isBlank w = true → Spaced cs (w :: cs)
  | behind {c : Char} {cs cs' : List Char} : Spaced cs cs' → Spaced (c :: cs) (c :: cs')

/-! ## Blanks are of no other class -/

theorem isDigit_of_isBlank {c : Char} (h : isBlank c = true) : isDigit c = false := by
  rw [Bool.eq_false_iff]
  intro hdigit
  rw [isBlank_of_isWord (isWord_of_isDigit hdigit)] at h
  cases h

theorem isNumberLead_of_isBlank {c : Char} (h : isBlank c = true) : isNumberLead c = false := by
  rw [Bool.eq_false_iff]
  intro hlead
  rw [isBlank_of_isNumberLead hlead] at h
  cases h

theorem isExponentMark_of_isBlank {c : Char} (h : isBlank c = true) : isExponentMark c = false := by
  rw [Bool.eq_false_iff]
  intro hmark
  rw [isBlank_of_isWord (isWord_of_isExponentMark hmark)] at h
  cases h

theorem isWord_of_isBlank {c : Char} (h : isBlank c = true) : isWord c = false := by
  rw [Bool.eq_false_iff]
  intro hword
  rw [isBlank_of_isWord hword] at h
  cases h

theorem isSign_of_isBlank {c : Char} (h : isBlank c = true) : isSign c = false := by
  rw [isSign, Bool.or_eq_false_iff, beq_eq_false_iff_ne, beq_eq_false_iff_ne]
  exact ⟨ne_of_class h (by decide), ne_of_class h (by decide)⟩

theorem isDot_of_isBlank {c : Char} (h : isBlank c = true) : isDot c = false :=
  beq_eq_false_iff_ne.2 (ne_of_class h (by decide))

theorem isFractionBar_of_isBlank {c : Char} (h : isBlank c = true) : isFractionBar c = false :=
  beq_eq_false_iff_ne.2 (ne_of_class h (by decide))

theorem isFootMark_of_isBlank {c : Char} (h : isBlank c = true) : isFootMark c = false :=
  beq_eq_false_iff_ne.2 (ne_of_class h (by decide))

theorem isInchMark_of_isBlank {c : Char} (h : isBlank c = true) : isInchMark c = false :=
  beq_eq_false_iff_ne.2 (ne_of_class h (by decide))

namespace Spaced

variable {p : Char → Bool} {x x' : List Char}

/-- A blank is put in at any place. -/
theorem insert {w : Char} (hw : isBlank w = true) (a b : List Char) :
    Spaced (a ++ b) (a ++ w :: b) := by
  induction a with
  | nil => exact .here hw
  | cons c a ih => exact .behind ih

theorem append_left (h : Spaced x x') (u : List Char) : Spaced (u ++ x) (u ++ x') := by
  induction u with
  | nil => exact h
  | cons c u ih => exact .behind ih

/-- In two texts one behind the other the blank is put inside the first one or into the second. -/
theorem append_cases {u y z : List Char} (h : Spaced (u ++ y) z) :
    (∃ front w back, u = front ++ back ∧ back ≠ [] ∧ isBlank w = true ∧
        z = front ++ w :: (back ++ y)) ∨
      ∃ y', Spaced y y' ∧ z = u ++ y' := by
  induction u generalizing z with
  | nil => exact .inr ⟨z, h, rfl⟩
  | cons c u ih =>
    cases h with
    | @here w _ hw => exact .inl ⟨[], w, c :: u, rfl, by simp, hw, rfl⟩
    | behind h =>
      rcases ih h with ⟨front, w, back, rfl, hback, hw, rfl⟩ | ⟨y', hy, rfl⟩
      · exact .inl ⟨c :: front, w, back, rfl, hback, hw, rfl⟩
      · exact .inr ⟨y', hy, rfl⟩

/-! ## What the text opens with -/

theorem startsWith_eq_false (h : Spaced x x') (hp : ∀ {c}, isBlank c = true → p c = false)
    (hx : startsWith p x = false) : startsWith p x' = false := by
  cases h with
  | here hw => exact hp hw
  | behind _ => exact hx

theorem digitAfter_eq_false (h : Spaced x x') (hp : ∀ {c}, isBlank c = true → p c = false)
    (hx : digitAfter p x = false) : digitAfter p x' = false := by
  cases h with
  | here hw => rw [digitAfter, startsWith_cons, hp hw, Bool.false_and]
  | @behind c cs cs' h =>
    simp only [digitAfter, startsWith_cons, List.tail_cons, Bool.and_eq_false_iff] at hx ⊢
    exact hx.imp_right fun hdigit => h.startsWith_eq_false isDigit_of_isBlank hdigit

/-- A space in front of a digit is a spacer there, so no digit may open the text. -/
theorem digitAfter_isSpacer_eq_false (h : Spaced x x') (hdigit : startsWith isDigit x = false)
    (hx : digitAfter isSpacer x = false) : digitAfter isSpacer x' = false := by
  cases h with
  | here hw => rw [digitAfter, List.tail_cons, hdigit, Bool.and_false]
  | @behind c cs cs' h =>
    simp only [digitAfter, startsWith_cons, List.tail_cons, Bool.and_eq_false_iff] at hx ⊢
    exact hx.imp_right fun hdigit => h.startsWith_eq_false isDigit_of_isBlank hdigit

theorem opensNumber_eq_false (h : Spaced x x') (hx : opensNumber x = false) :
    opensNumber x' = false := by
  rw [opensNumber, Bool.or_eq_false_iff] at hx ⊢
  exact ⟨h.startsWith_eq_false isDigit_of_isBlank hx.1,
    h.digitAfter_eq_false isDot_of_isBlank hx.2⟩

/-- Behind the white space in front the texts are the same, or the blank is put in there. -/
theorem dropWhile_isBlank (h : Spaced x x') :
    x'.dropWhile isBlank = x.dropWhile isBlank ∨
      Spaced (x.dropWhile isBlank) (x'.dropWhile isBlank) := by
  induction h with
  | here hw => exact .inl (List.dropWhile_cons_of_pos hw)
  | @behind c cs cs' h ih =>
    by_cases hc : isBlank c = true
    · rwa [List.dropWhile_cons_of_pos hc, List.dropWhile_cons_of_pos hc]
    · rw [List.dropWhile_cons_of_neg hc, List.dropWhile_cons_of_neg hc]
      exact .inr (.behind h)

theorem opensNumber_dropWhile_eq_false (h : Spaced x x')
    (hx : opensNumber (x.dropWhile isBlank) = false) :
    opensNumber (x'.dropWhile isBlank) = false := by
  rcases h.dropWhile_isBlank with heq | h
  · rwa [heq]
  · exact h.opensNumber_eq_false hx

end Spaced

end LengthFormula
