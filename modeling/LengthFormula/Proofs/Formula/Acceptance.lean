import LengthFormula.Formula
import LengthFormula.Length.Reading
import LengthFormula.Proofs.Formula.Completeness
import LengthFormula.Proofs.Formula.Translation

/-!
# Which texts are formulas

A text that is cut into lexemes is a formula when their kinds derive from the grammar within the
limits (`Formula.exists_of_parse`, `Formula.parse_of_derives`).  So parsing accepts just the
sentences of the grammar, with their trees, apart from those that nest too deeply
(`Formula.parse_accepts_grammar`).
-/

namespace LengthFormula

/-- A result that can be taken out is no error. -/
theorem eq_ok_of_toOption {ε α : Type} {x : Except ε α} {a : α} (h : x.toOption = some a) :
    x = .ok a := by
  cases x with
  | error e => cases h
  | ok b =>
    cases h
    rfl

/-- An error that can be taken out is the result. -/
theorem eq_error_of_match {ε α : Type} {x : Except ε α} {e : ε}
    (h : (match x with | .ok _ => none | .error e => some e) = some e) : x = .error e := by
  cases x with
  | ok a => cases h
  | error d =>
    cases h
    rfl

namespace Formula

variable {scope : Scope} {convert : Converter} {text : String}

/-- Parsing a list of characters gives a tree and the edited list, or the first error. -/
theorem parse_ofList (scope : Scope) (convert : Converter) (cs : List Char) :
    parse scope convert (String.ofList cs)
      = ((tokenize convert cs).bind (parseTokens scope)).map fun phrase =>
          ⟨phrase.term, String.ofList (applyEdits 0 cs phrase.edits)⟩ := by
  rw [parse, String.toList_ofList]
  cases tokenize convert cs with
  | error e => rfl
  | ok tokens =>
    simp only [Except.bind]
    cases parseTokens scope tokens <;> rfl

/-- Behind a formula are the tokens of its text and the phrase that they make. -/
theorem exists_phrase_of_parse {f : Formula} (h : parse scope convert text = .ok f) :
    ∃ tokens phrase, tokenize convert text.toList = .ok tokens ∧
      parseTokens scope tokens = .ok phrase ∧
      f = ⟨phrase.term, String.ofList (applyEdits 0 text.toList phrase.edits)⟩ := by
  rw [parse] at h
  cases htokens : tokenize convert text.toList with
  | error e =>
    simp only [htokens] at h
    cases h
  | ok tokens =>
    simp only [htokens] at h
    cases hphrase : parseTokens scope tokens with
    | error e =>
      simp only [hphrase] at h
      cases h
    | ok phrase =>
      simp only [hphrase] at h
      exact ⟨tokens, phrase, rfl, hphrase, (Except.ok.inj h).symm⟩

/-- A formula's text is cut into lexemes that derive from the grammar, and its translation has the
replacements put in for them. -/
theorem exists_of_parse {f : Formula} (h : parse scope convert text = .ok f) :
    ∃ ls trail, text.toList = textOf ls trail ∧ Cut convert none ls trail ∧
      Derives scope maxDepth (.chain .sum) (ls.map Lexeme.kind ++ [.finish]) f.term [.finish] ∧
      f.term.height ≤ maxDepth ∧ f.translated = String.ofList (written scope ls trail) := by
  obtain ⟨tokens, phrase, htokens, hphrase, rfl⟩ := exists_phrase_of_parse h
  obtain ⟨ls, trail, htext, hcut, rfl⟩ := tokenize_eq_ok_iff.1 htokens
  have hkinds := kindsOf_tokensFrom 0 ls trail
  obtain ⟨hderives, hheight, hedits⟩ :=
    derives_of_parseTokens hkinds (kind_ne_finish_of_cut hcut) hphrase
  rw [hkinds] at hderives
  refine ⟨ls, trail, htext, hcut, hderives, hheight, ?_⟩
  rw [hedits, htext, applyEdits_editsOf]

/-- A text whose lexemes derive from the grammar is a formula with their tree, unless it nests too
deeply or its tree is too high. -/
theorem parse_of_derives {ls : List Lexeme} {trail : List Char} {needed : Nat} {t : Term}
    (htext : text.toList = textOf ls trail) (hcut : Cut convert none ls trail)
    (h : Derives scope needed (.chain .sum) (ls.map Lexeme.kind ++ [.finish]) t [.finish]) :
    (∃ f, parse scope convert text = .ok f ∧ f.term = t) ∨
      ¬ (needed ≤ maxDepth ∧ t.height ≤ maxDepth) ∧
        ∃ position, parse scope convert text = .error ⟨.nestedTooDeeply, position⟩ := by
  have htokens : tokenize convert text.toList = .ok (tokensFrom 0 ls trail) := by
    rw [htext]
    exact tokenize_of_cut hcut
  rw [← kindsOf_tokensFrom 0 ls trail] at h
  rw [parse, htokens]
  rcases parseTokens_of_derives h with ⟨phrase, hphrase, rfl⟩ | ⟨hlimits, position, herror⟩
  · simp only [hphrase]
    exact .inl ⟨_, rfl, rfl⟩
  · simp only [herror]
    exact .inr ⟨hlimits, position, rfl⟩

/-- Parsing accepts the grammar.  Where the text has tokens, the tree of a formula derives from all
of them, and where a tree does, parsing gives it or refuses the text as nested too deeply.  A
doubled sign is in no formula. -/
theorem parse_accepts_grammar (scope : Scope) (convert : Converter) (text : String)
    {tokens : List Token} (h : tokenize convert text.toList = .ok tokens) :
    (∀ f, parse scope convert text = .ok f → DerivesFormula scope (kindsOf tokens) f.term) ∧
      (∀ t, DerivesFormula scope (kindsOf tokens) t →
        (∃ f, parse scope convert text = .ok f ∧ f.term = t) ∨
          ∃ position, parse scope convert text = .error ⟨.nestedTooDeeply, position⟩) ∧
      (.doubledSign ∈ kindsOf tokens → ∀ f, parse scope convert text ≠ .ok f) := by
  obtain ⟨ls, trail, htext, hcut, rfl⟩ := tokenize_eq_ok_iff.1 h
  have hsound : ∀ f, parse scope convert text = .ok f →
      DerivesFormula scope (kindsOf (tokensFrom 0 ls trail)) f.term := by
    intro f hf
    obtain ⟨ls', trail', htext', hcut', hderives, -, -⟩ := exists_of_parse hf
    obtain ⟨rfl, rfl⟩ := cut_unique hcut hcut' (htext.symm.trans htext')
    rw [kindsOf_tokensFrom]
    exact ⟨maxDepth, hderives⟩
  refine ⟨hsound, ?_, ?_⟩
  · rintro t ⟨levels, hderives⟩
    rw [kindsOf_tokensFrom] at hderives
    rcases parse_of_derives htext hcut hderives with hok | ⟨-, herror⟩
    · exact .inl hok
    · exact .inr herror
  · intro hdoubled f hf
    obtain ⟨levels, hderives⟩ := hsound f hf
    exact hderives.doubledSign_notMem (by simp) hdoubled

/-- In `-a^b+c` the sign takes all that follows it. -/
theorem parse_accepts_grammar_sign :
    DerivesFormula Scope.empty
      [.minus, .name "a", .caret, .name "b", .plus, .name "c", .finish]
      (.negate (.binary .add (.binary .pow (.var "a") (.var "b")) (.var "c"))) := by
  have htokens : tokenize readLength? "-a^b+c".toList = .ok
      [⟨.minus, ⟨0, 1⟩⟩, ⟨.name "a", ⟨1, 2⟩⟩, ⟨.caret, ⟨2, 3⟩⟩, ⟨.name "b", ⟨3, 4⟩⟩,
        ⟨.plus, ⟨4, 5⟩⟩, ⟨.name "c", ⟨5, 6⟩⟩, ⟨.finish, ⟨6, 6⟩⟩] := rfl
  have hparse : parse Scope.empty readLength? "-a^b+c" = .ok
      ⟨.negate (.binary .add (.binary .pow (.var "a") (.var "b")) (.var "c")), "-a^b+c"⟩ :=
    eq_ok_of_toOption (by decide +kernel)
  exact (parse_accepts_grammar Scope.empty readLength? "-a^b+c" htokens).1 _ hparse

end Formula

end LengthFormula
