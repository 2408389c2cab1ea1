import LengthFormula.Token

/-!
# Why a text is no formula

`ParseFault` lists the causes, and `ParseError` adds the byte at which a cause was met.  Each cause
has its message.
-/

namespace LengthFormula

/-- The causes for which a text is refused. -/
inductive ParseFault where
  /-- A character that opens no token. -/
  | unexpectedChar (c : Char)
  /-- The text of a literal that the converter refuses. -/
  | invalidNumber (text : String)
  /-- A token stands where another one is required. -/
  | wrongToken (expected found : TokenKind)
  /-- A token stands where an operand is required. -/
  | unexpectedToken (found : TokenKind)
  /-- The text ends where an operand is required. -/
  | missingOperand
  /-- A complete formula is followed by more tokens. -/
  | leftover
  /-- The token list itself ran out, which a list that ends with `finish` never does. -/
  | pastFinish
  /-- More open parentheses, calls and prefix signs, or a higher tree, than allowed. -/
  | nestedTooDeeply
  /-- A call of a name that is no function. -/
  | unknownFunction (name : String)
  deriving DecidableEq, Repr

/-- The message of a cause. -/
def ParseFault.message : ParseFault → String
  | unexpectedChar c => "Unexpected character: '" ++ String.singleton c ++ "'"
  | invalidNumber text => "Invalid number: '" ++ text ++ "'"
  | wrongToken expected found =>
    "Wrong sequence: expected " ++ expected.describe ++ ", found " ++ found.describe
  | unexpectedToken found => "Unexpected token: " ++ found.describe
  | missingOperand | leftover | pastFinish => "Unexpected end of expression"
  | nestedTooDeeply => "Expression nested too deeply"
  | unknownFunction name => "Function not found: '" ++ name ++ "'"

/-- A cause and the byte of the text at which it was met. -/
structure ParseError where
  fault : ParseFault
  position : Nat
  deriving DecidableEq, Repr

namespace ParseError

/-- The message of the cause. -/
def message (e : ParseError) : String := e.fault.message

/-- The message with its position. -/
def describe (e : ParseError) : String :=
  "Parse error at position " ++ toString e.position ++ ": " ++ e.message

end ParseError

end LengthFormula
