import LengthFormula.Formula.ParseError
import LengthFormula.Length.Literal
import LengthFormula.Text.LowerCase

/-!
# Cutting a text into tokens

`tokenize` cuts a text into tokens, with white space between them.  The token before decides two
things: a sign belongs to a number literal only at the start of the text and after `(` or `,`, and a
sign directly after an operator is a doubled sign.
-/

namespace LengthFormula

/-- A number may open here: a digit, or a point with a digit behind it. -/
def opensNumber (cs : List Char) : Bool :=
  startsWith isDigit cs || digitAfter isDot cs

/-- After this token a sign may belong to a number literal. -/
def admitsSign : Option TokenKind → Bool
  | none | some .leftParen | some .comma => true
  | _ => false

/-- A number literal opens here, perhaps with a sign and white space in front. -/
def atNumber (previous : Option TokenKind) (cs : List Char) : Bool :=
  if startsWith isNumberLead cs then opensNumber cs
  else startsWith isSign cs && admitsSign previous && opensNumber (cs.tail.dropWhile isBlank)

/-- The sign in front of a number literal, with the white space behind it. -/
def signPart (cs : List Char) : List Char :=
  if startsWith isSign cs then cs.take 1 ++ cs.tail.takeWhile isBlank else []

/-- Reads the number literal at the front of a text: its text, and its value or the fault. -/
def scanNumber (convert : Converter) (cs : List Char) : Except ParseFault (TokenKind × List Char) :=
  let sign := signPart cs
  let (body, value) := (Literal.scan (cs.drop sign.length)).read convert
  match value with
  | some x => .ok (.number (if startsWith isMinus sign then -x else x), sign ++ body)
  | none => .error (.invalidNumber (String.ofList (sign ++ body)))

/-- The token that a single character makes after `previous`. -/
def punctuation? (previous : Option TokenKind) : Char → Option TokenKind
  | '+' => some (if previous.any TokenKind.isOperator then .doubledSign else .plus)
  | '-' => some (if previous.any TokenKind.isOperator then .doubledSign else .minus)
  | '%' => some .percent
  | '*' => some .star
  | '/' => some .slash
  | '^' => some .caret
  | '(' => some .leftParen
  | ',' => some .comma
  | ')' => some .rightParen
  | _ => none

/-- The token at the front of the text `c :: cs`, which is not white space, and the characters it
takes. -/
def scanToken (convert : Converter) (previous : Option TokenKind) (c : Char) (cs : List Char) :
    Except ParseFault (TokenKind × List Char) :=
  if atNumber previous (c :: cs) then scanNumber convert (c :: cs)
  else if isWord c then
    let word := c :: cs.takeWhile isWord
    .ok (.name (lowerCase (String.ofList word)), word)
  else match punctuation? previous c with
    | some kind => .ok (kind, [c])
    | none => .error (.unexpectedChar c)

/-- Cuts the rest of a text into tokens.  `position` is the byte at which the rest starts, `skip`
the number of its characters that the last token has taken already, and `found` are the tokens in
front, last one first. -/
def tokenizeFrom (convert : Converter) (previous : Option TokenKind) (position skip : Nat)
    (found : List Token) : List Char → Except ParseError (List Token)
  | [] => .ok (found.reverse ++ [⟨.finish, ⟨position, position⟩⟩])
  | c :: cs =>
    let next := position + c.utf8Size
    match skip with
    | k + 1 => tokenizeFrom convert previous next k found cs
    | 0 =>
      if isBlank c then tokenizeFrom convert previous next 0 found cs
      else match scanToken convert previous c cs with
        | .error fault => .error ⟨fault, position⟩
        | .ok (kind, taken) =>
          tokenizeFrom convert (some kind) next (taken.length - 1)
            (⟨kind, ⟨position, position + utf8Length taken⟩⟩ :: found) cs

/-- Cuts a text into tokens; the last one, and only that, is `finish`. -/
def tokenize (convert : Converter) (text : List Char) : Except ParseError (List Token) :=
  tokenizeFrom convert none 0 0 [] text

end LengthFormula
