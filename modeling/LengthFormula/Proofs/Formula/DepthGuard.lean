import LengthFormula.Proofs.Formula.CursorParsing
import LengthFormula.Proofs.Formula.Nesting

/-!
# The depth guard is exact

Parsing refuses a text as nested too deeply exactly where the text breaks a limit.  On the one side
no tree that parsing gives is too high (`Formula.height_le_of_parse`), and the counter of open
levels keeps between zero and the limit (`Run.exists_places_of_tokenize`).  On the other side a text
whose tokens derive from the grammar is refused only if more levels are open at once than the limit
allows, or if its tree is too high (`Formula.parse_of_derivesFormula`).
-/

namespace LengthFormula

theorem endsWithFinish_tokensFrom (position : Nat) (ls : List Lexeme) (trail : List Char) :
    EndsWithFinish (tokensFrom position ls trail) := by
  induction ls generalizing position with
  | nil => exact ⟨[], _, rfl⟩
  | cons l ls ih =>
    obtain ⟨init, span, htokens⟩ := ih (position + utf8Length l.gap + utf8Length l.chars)
    exact ⟨_ :: init, span, by rw [tokensFrom, htokens, List.cons_append]⟩

/-- The tokens of a text end with the end of the text. -/
theorem endsWithFinish_of_tokenize {convert : Converter} {text : List Char} {tokens : List Token}
    (h : tokenize convert text = .ok tokens) : EndsWithFinish tokens := by
  obtain ⟨ls, trail, -, -, rfl⟩ := tokenize_eq_ok_iff.1 h
  exact endsWithFinish_tokensFrom 0 ls trail

/-- Over the tokens of a text a whole run parses, and on its way the counter keeps between zero and
the limit. -/
theorem Run.exists_places_of_tokenize {scope : Scope} {convert : Converter} {text : List Char}
    {tokens : List Token} (h : tokenize convert text = .ok tokens) {fuel : Nat}
    (hfuel : maxDepth + tokens.length < fuel) :
    ∃ places,
      (Run.whole scope tokens fuel .start).parsed = some (parseTokens scope tokens, places) ∧
        ∀ place ∈ places, 0 ≤ place.depth ∧ place.depth ≤ maxDepth := by
  obtain ⟨places, hparsed⟩ := Run.parsed_whole scope (endsWithFinish_of_tokenize h) hfuel
  exact ⟨places, hparsed, Run.depth_of_parsed hparsed⟩

namespace Formula

variable {scope : Scope} {convert : Converter} {text : String} {tokens : List Token} {t : Term}

/-- No tree that parsing gives is higher than the limit. -/
theorem height_le_of_parse {f : Formula} (h : parse scope convert text = .ok f) :
    f.term.height ≤ maxDepth := by
  obtain ⟨_, _, _, _, _, hheight, _⟩ := exists_of_parse h
  exact hheight

/-- The tokens of a formula keep the limit on open levels. -/
theorem nesting_le_of_parse {f : Formula} (h : parse scope convert text = .ok f)
    (htokens : tokenize convert text.toList = .ok tokens) :
    nesting (kindsOf tokens) ≤ maxDepth := by
  obtain ⟨ls, trail, htext, hcut, hderives, -, -⟩ := exists_of_parse h
  rw [htext, tokenize_of_cut hcut] at htokens
  cases htokens
  rw [kindsOf_tokensFrom]
  exact hderives.of_nesting.1

/-- Where the tokens of a text derive from the grammar, parsing gives their tree if the limits on
open levels and height are kept, and refuses the text as nested too deeply if they are not. -/
theorem parse_of_derivesFormula (htokens : tokenize convert text.toList = .ok tokens)
    (h : DerivesFormula scope (kindsOf tokens) t) :
    if nesting (kindsOf tokens) ≤ maxDepth ∧ t.height ≤ maxDepth then
      ∃ f, parse scope convert text = .ok f ∧ f.term = t
    else
      ∃ e, parse scope convert text = .error e ∧ e.message = "Expression nested too deeply" := by
  obtain ⟨levels, hderives⟩ := h
  obtain ⟨ls, trail, htext, hcut, hrow⟩ := tokenize_eq_ok_iff.1 htokens
  have hneeded := hderives.of_nesting.2
  rw [hrow, kindsOf_tokensFrom] at hneeded
  have hcases := parse_of_derives htext hcut hneeded
  rw [← kindsOf_tokensFrom 0, ← hrow] at hcases
  by_cases hlimits : nesting (kindsOf tokens) ≤ maxDepth ∧ t.height ≤ maxDepth
  · rw [if_pos hlimits]
    exact hcases.resolve_right fun hrefused => hrefused.1 hlimits
  · rw [if_neg hlimits]
    rcases hcases with ⟨f, hf, rfl⟩ | ⟨-, position, hrefused⟩
    · exact absurd ⟨nesting_le_of_parse hf htokens, height_le_of_parse hf⟩ hlimits
    · exact ⟨_, hrefused, rfl⟩

/-- The depth guard is exact.  The trees that parsing gives keep the limit on height.  Over the
tokens of a text the parser with its counter does what `parseTokens` does, and the counter keeps
between zero and the limit at every place that it comes through; every phrase and every call that is
parsed on the way, from wherever the counter keeps the limit, leaves the counter as it was and knows
the height of its tree.  And where the tokens derive from the grammar, the text is accepted with the
derived tree if at most `maxDepth` parentheses, calls and prefix signs are open at once and the tree
is at most `maxDepth` high, and refused as nested too deeply if not. -/
theorem depth_guard_exact (scope : Scope) (convert : Converter) (text : String) :
    (∀ f, parse scope convert text = .ok f → f.term.height ≤ maxDepth) ∧
      ∀ tokens, tokenize convert text.toList = .ok tokens →
        (∀ fuel, maxDepth + tokens.length < fuel →
          ∃ places,
            (Run.whole scope tokens fuel .start).parsed = some (parseTokens scope tokens, places) ∧
              ∀ place ∈ places, 0 ≤ place.depth ∧ place.depth ≤ maxDepth) ∧
        (∀ fuel : Nat,
          (∀ r, (Run.phrase scope tokens (Run.sum scope tokens fuel) fuel r).Guarded
            Node.Measured) ∧
          ∀ name, (Run.call tokens name (Run.sum scope tokens fuel)).Guarded Node.Measured) ∧
        ∀ t, DerivesFormula scope (kindsOf tokens) t →
          if nesting (kindsOf tokens) ≤ maxDepth ∧ t.height ≤ maxDepth then
            ∃ f, parse scope convert text = .ok f ∧ f.term = t
          else
            ∃ e, parse scope convert text = .error e ∧
              e.message = "Expression nested too deeply" := by
  refine ⟨fun f hf => height_le_of_parse hf, fun tokens htokens => ⟨?_, fun fuel => ?_, ?_⟩⟩
  · exact fun fuel hfuel => Run.exists_places_of_tokenize htokens hfuel
  · have hsum := Run.guarded_sum scope tokens fuel
    exact ⟨Run.guarded_phrase hsum fuel, Run.guarded_call hsum⟩
  · exact fun t ht => parse_of_derivesFormula htokens ht

end Formula

end LengthFormula
