import LengthFormula.Proofs.Formula.CursorSteps
import LengthFormula.Proofs.Formula.DepthGuard
import LengthFormula.Proofs.Token.CutShort
import LengthFormula.Proofs.Token.Tiling

/-!
# Where a text is refused

An error lies between two characters of the text (`IsBoundary`).  If the text has tokens, the error
lies where one of them starts.  If it has none, the text in front of the error has: just those that
were read before it (`Formula.error_positions`).
-/

namespace LengthFormula

/-- The byte lies between two characters of the text, or at one of its ends. -/
def IsBoundary (text : List Char) (position : Nat) : Prop :=
  ∃ before behind, text = before ++ behind ∧ position = utf8Length before

section Boundaries

variable {convert : Converter} {text : List Char} {position : Nat} {tokens : List Token}
  {token : Token} {e : ParseError}

theorem IsBoundary.le (h : IsBoundary text position) : position ≤ utf8Length text := by
  obtain ⟨before, behind, rfl, rfl⟩ := h
  rw [utf8Length_append]
  exact Nat.le_add_right _ _

theorem isBoundary_start (h : tokenize convert text = .ok tokens) (htoken : token ∈ tokens) :
    IsBoundary text token.span.start := by
  obtain ⟨ls, trail, rfl, hcut, rfl⟩ := tokenize_eq_ok_iff.1 h
  obtain ⟨before, inside, behind, hsplits, -⟩ := exists_spelled hcut htoken
  exact ⟨before, inside ++ behind, hsplits.text_eq, hsplits.start_eq⟩

/-- Where a text has no tokens, lexemes are cut off up to the error, and none is cut off there. -/
theorem exists_front_of_error (h : tokenize convert text = .error e) :
    ∃ ls gap rest, text = textOf ls gap ++ rest ∧ e.position = utf8Length (textOf ls gap) ∧
      CutFront convert none ls (gap ++ rest) ∧
      Stuck convert (lastKind none ls) gap e.fault (gap ++ rest) := by
  obtain ⟨ls, behind, rfl, hfront, -, hok | ⟨gap, fault, hstuck, herror⟩⟩ :=
    tokenize_stops convert text
  · rw [hok] at h
    cases h
  · rw [herror] at h
    obtain rfl := Except.error.inj h
    have hrest := hstuck
    obtain ⟨c, cs, rfl, -⟩ := hrest
    have hfronts : textOf ls gap = textOf ls [] ++ gap := textOf_append_trail ls [] gap
    refine ⟨ls, gap, c :: cs, textOf_append_trail ls gap (c :: cs), ?_, hfront, hstuck⟩
    rw [hfronts, utf8Length_append]

/-- The text in front of the error has the tokens that were read before it. -/
theorem tokenize_before_error {ls : List Lexeme} {gap rest : List Char} {fault : ParseFault}
    (h : CutFront readLength? none ls (gap ++ rest))
    (hstuck : Stuck readLength? (lastKind none ls) gap fault (gap ++ rest)) :
    tokenize readLength? (textOf ls gap) = .ok (placed 0 ls ++
      [⟨.finish, ⟨utf8Length (textOf ls gap), utf8Length (textOf ls gap)⟩⟩]) := by
  obtain ⟨c, cs, -, hgap, -⟩ := hstuck
  rw [tokenize_textOf h hgap, tokensFrom_eq_placed, Nat.zero_add]

end Boundaries

namespace Formula

/-- A text is refused by the tokenizer or by the parser of its tokens. -/
theorem exists_of_parse_error {scope : Scope} {convert : Converter} {text : String} {e : ParseError}
    (h : parse scope convert text = .error e) : tokenize convert text.toList = .error e ∨
      ∃ tokens, tokenize convert text.toList = .ok tokens ∧
        parseTokens scope tokens = .error e := by
  rw [parse] at h
  cases htokens : tokenize convert text.toList with
  | error d =>
    simp only [htokens] at h
    exact .inl (congrArg _ (Except.error.inj h))
  | ok tokens =>
    simp only [htokens] at h
    cases hphrase : parseTokens scope tokens with
    | error d =>
      simp only [hphrase] at h
      exact .inr ⟨tokens, rfl, hphrase.trans (congrArg _ (Except.error.inj h))⟩
    | ok phrase =>
      simp only [hphrase] at h
      cases h

/-- Errors point at the offending place.  For every scope and converter an error lies within the
text, between two of its characters, and where the text has tokens it lies at the start of one of
them.  Where the tokenizer refuses the text, the text in front of the error has the tokens that were
read before it, and no others. -/
theorem error_positions (scope : Scope) (convert : Converter) (text : String) :
    (∀ e, parse scope convert text = .error e →
        e.position ≤ utf8Length text.toList ∧ IsBoundary text.toList e.position ∧
          ∀ tokens, tokenize convert text.toList = .ok tokens →
            ∃ token ∈ tokens, e.position = token.span.start) ∧
      ∀ e, tokenize readLength? text.toList = .error e →
        ∃ ls gap rest, text.toList = textOf ls gap ++ rest ∧
          e.position = utf8Length (textOf ls gap) ∧
          CutFront readLength? none ls (gap ++ rest) ∧
          Stuck readLength? (lastKind none ls) gap e.fault (gap ++ rest) ∧
          tokenize readLength? (textOf ls gap)
            = .ok (placed 0 ls ++ [⟨.finish, ⟨e.position, e.position⟩⟩]) := by
  constructor
  · intro e he
    rcases exists_of_parse_error he with hrefused | ⟨tokens, htokens, hphrase⟩
    · obtain ⟨ls, gap, rest, htext, hposition, -, -⟩ := exists_front_of_error hrefused
      have hboundary : IsBoundary text.toList e.position := ⟨_, _, htext, hposition⟩
      refine ⟨hboundary.le, hboundary, fun tokens htokens => ?_⟩
      rw [hrefused] at htokens
      cases htokens
    · obtain ⟨-, token, htoken, hposition⟩ :=
        Run.fault_at_token (endsWithFinish_of_tokenize htokens) hphrase
      have hboundary : IsBoundary text.toList e.position :=
        hposition ▸ isBoundary_start htokens htoken
      refine ⟨hboundary.le, hboundary, fun tokens' htokens' => ?_⟩
      obtain rfl := Except.ok.inj (htokens.symm.trans htokens')
      exact ⟨token, htoken, hposition⟩
  · intro e he
    obtain ⟨ls, gap, rest, htext, hposition, hfront, hstuck⟩ := exists_front_of_error he
    refine ⟨ls, gap, rest, htext, hposition, hfront, hstuck, ?_⟩
    rw [hposition]
    exact tokenize_before_error hfront hstuck

/-- In `2*5-6/7..8` the scanner looks past the place of the error twice and goes back: `5-6/7` and
`6/7` are no lengths, and `7..8` is no number. -/
theorem error_positions_retreat :
    ∃ ls gap rest, "2*5-6/7..8".toList = textOf ls gap ++ rest ∧ 6 = utf8Length (textOf ls gap) ∧
      CutFront readLength? none ls (gap ++ rest) ∧
      Stuck readLength? (lastKind none ls) gap (.invalidNumber "7..8") (gap ++ rest) ∧
      tokenize readLength? (textOf ls gap) = .ok (placed 0 ls ++ [⟨.finish, ⟨6, 6⟩⟩]) :=
  (error_positions .empty readLength? "2*5-6/7..8").2 ⟨.invalidNumber "7..8", 6⟩
    (eq_error_of_match (by decide +kernel))

end Formula

end LengthFormula
