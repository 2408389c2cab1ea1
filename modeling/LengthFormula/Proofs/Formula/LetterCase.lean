import LengthFormula.Formula
import LengthFormula.Proofs.Token.LetterCase

/-!
# Formulas in either letter case

Tokens keep nothing of the letter case of a text, and edits fall on the same bytes.  So texts that
differ at most in the case of letters of ASCII have one term and translations that differ no more
than they do, or are refused for one cause at the same byte (`Formula.parse_toLower`).
-/

namespace LengthFormula

/-! ## Edits -/

theorem charsWithin_map (count bytes : Nat) (cs : List Char) :
    charsWithin count bytes (cs.map Char.toLower) = charsWithin count bytes cs := by
  induction cs generalizing count bytes with
  | nil => rfl
  | cons c cs ih =>
    cases bytes with
    | zero => rfl
    | succ bytes =>
      rw [List.map_cons, charsWithin, charsWithin, letterBlind_utf8Size c, ih]

theorem takeBytes_map (bytes : Nat) (cs : List Char) :
    takeBytes bytes (cs.map Char.toLower) = (takeBytes bytes cs).map Char.toLower := by
  rw [takeBytes, takeBytes, charsWithin_map, List.map_take]

theorem dropBytes_map (bytes : Nat) (cs : List Char) :
    dropBytes bytes (cs.map Char.toLower) = (dropBytes bytes cs).map Char.toLower := by
  rw [dropBytes, dropBytes, charsWithin_map, List.map_drop]

/-- Edits change the same bytes in capital and in small letters; what they put in keeps its case. -/
theorem applyEdits_map (position : Nat) (cs : List Char) (edits : List Edit) :
    (applyEdits position (cs.map Char.toLower) edits).map Char.toLower
      = (applyEdits position cs edits).map Char.toLower := by
  induction edits generalizing position cs with
  | nil => exact map_toLower_map_toLower cs
  | cons edit edits ih =>
    simp only [applyEdits, takeBytes_map, dropBytes_map, List.map_append, map_toLower_map_toLower,
      ih]

/-! ## Formulas -/

/-- In capital and in small letters a text is the same formula, apart from the case of the letters
in its translation, or is refused for the same cause at the same place. -/
theorem Formula.parse_toLower {convert : Converter} (h : convert.IgnoresCase) (scope : Scope)
    (text : String) :
    (∃ f g, parse scope convert text.toLower = .ok f ∧ parse scope convert text = .ok g ∧
        f.term = g.term ∧ f.translated.toLower = g.translated.toLower) ∨
      ∃ e d, parse scope convert text.toLower = .error e ∧ parse scope convert text = .error d ∧
        e.toLower = d.toLower := by
  rw [parse, parse, toList_toLower, tokenize_map h]
  cases tokenize convert text.toList with
  | error e => exact .inr ⟨e.toLower, e, rfl, rfl, e.toLower_toLower⟩
  | ok tokens =>
    simp only [mapError_ok]
    cases parseTokens scope tokens with
    | error e => exact .inr ⟨e, e, rfl, rfl, rfl⟩
    | ok phrase =>
      refine .inl ⟨_, _, rfl, rfl, rfl, ?_⟩
      rw [← ofList_map_toLower, applyEdits_map, ofList_map_toLower]

end LengthFormula
