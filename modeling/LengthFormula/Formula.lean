import LengthFormula.Formula.Phrase
import LengthFormula.Token.Lexer

/-!
# Formulas

`Formula.parse` turns a text into a formula: its tree, and the text with the values of fixed
variables and the display names of the others put in.
-/

namespace LengthFormula

/-- The version of the formula language. -/
def version : String := "0.1.0"

/-- A parsed text. -/
structure Formula where
  term : Term
  /-- The text with fixed values and display names put in. -/
  translated : String
  deriving DecidableEq, Repr

namespace Formula

/-- Parses a text; `convert` reads its number literals. -/
def parse (scope : Scope) (convert : Converter) (text : String) : Except ParseError Formula :=
  match tokenize convert text.toList with
  | .error e => .error e
  | .ok tokens => match parseTokens scope tokens with
    | .error e => .error e
    | .ok phrase =>
      .ok ⟨phrase.term, String.ofList (applyEdits 0 text.toList phrase.edits)⟩

end Formula

end LengthFormula
