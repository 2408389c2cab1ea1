import LengthFormula.Decimal.Layout
import LengthFormula.Text.Quoted

/-!
# Tokens

A formula is a list of tokens that ends with one `finish`.  Every token knows the bytes of the text
that it spans.
-/

namespace LengthFormula

/-- What a token is. -/
inductive TokenKind where
  /-- A number literal with its value. -/
  | number (value : Float)
  /-- A name in lower case. -/
  | name (text : String)
  | plus
  | minus
  | percent
  | star
  | slash
  | caret
  | leftParen
  | comma
  | rightParen
  /-- A plus or minus directly after an arithmetic operator. -/
  | doubledSign
  /-- The end of the text. -/
  | finish
  deriving DecidableEq, Repr

namespace TokenKind

/-- The arithmetic operators, the doubled sign among them. -/
def isOperator : TokenKind → Bool
  | plus | minus | percent | star | slash | caret | doubledSign => true
  | _ => false

/-- The token as messages name it. -/
def describe : TokenKind → String
  | number value => "Number(" ++ Layout.message.text value ++ ")"
  | name text => "Name(" ++ quoted text ++ ")"
  | plus => "Plus"
  | minus => "Minus"
  | percent => "Percent"
  | star => "Star"
  | slash => "Slash"
  | caret => "Caret"
  | leftParen => "LParen"
  | comma => "Comma"
  | rightParen => "RParen"
  | doubledSign => "Blank"
  | finish => "End"

end TokenKind

/-- A range of bytes of a text in UTF-8, from `start` up to `stop`. -/
structure Span where
  start : Nat
  stop : Nat
  deriving DecidableEq, Repr

/-- A token with the bytes it spans. -/
structure Token where
  kind : TokenKind
  span : Span
  deriving DecidableEq, Repr

/-- The number of bytes of a text in UTF-8. -/
def utf8Length (cs : List Char) : Nat := cs.foldr (fun c n => c.utf8Size + n) 0

@[simp]
theorem utf8Length_nil : utf8Length [] = 0 := rfl

@[simp]
theorem utf8Length_cons (c : Char) (cs : List Char) :
    utf8Length (c :: cs) = c.utf8Size + utf8Length cs := rfl

@[simp]
theorem utf8Length_append (a b : List Char) :
    utf8Length (a ++ b) = utf8Length a + utf8Length b := by
  induction a with
  | nil => simp
  | cons c a ih => simp [ih, Nat.add_assoc]

end LengthFormula
