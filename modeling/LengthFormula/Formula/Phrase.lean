import LengthFormula.Builtin
import LengthFormula.Formula.Edit
import LengthFormula.Formula.ParseError
import LengthFormula.Scope
import LengthFormula.Term

/-!
# Parsing phrases

The grammar of formulas, loosest operators first, with every chain of operators grouped from the
left:

* a sum is products joined by `+` and `-`;
* a product is powers joined by `*`, `/` and `%`;
* a power is atoms joined by `^`;
* an atom is a number, a name, a call, a sum in parentheses, or a sign with the sum behind it, which
  reaches as far as it can.

A name directly followed by `(` is always a call.  A parser takes a phrase off the front of a token
list.  The number of parentheses, calls and prefix signs that are open at once is limited, and so is
the height of the tree; the levels that are left bound the recursion.
-/

namespace LengthFormula

/-- The most parentheses, calls and prefix signs open at once, and the greatest height of a tree. -/
def maxDepth : Nat := 256

/-- A parsed part of a formula: its tree, the height of the tree, and the edits that put values and
display names into the text, in the order of the text. -/
structure Phrase where
  term : Term
  height : Nat
  edits : List Edit
  deriving DecidableEq, Repr

namespace Phrase

/-- A phrase whose tree has no parts. -/
def leaf (term : Term) : Phrase := ⟨term, 1, []⟩

/-- A phrase whose tree has no parts and whose text is replaced. -/
def replaced (term : Term) (span : Span) (text : String) : Phrase := ⟨term, 1, [⟨span, text⟩]⟩

/-- Two operands under their operator. -/
def join (op : BinaryOp) (left right : Phrase) : Phrase :=
  ⟨.binary op left.term right.term, max left.height right.height + 1, left.edits ++ right.edits⟩

/-- The operand of a minus. -/
def negated (operand : Phrase) : Phrase :=
  ⟨.negate operand.term, operand.height + 1, operand.edits⟩

/-- The argument of a call. -/
def called (function : String) (argument : Phrase) : Phrase :=
  ⟨.call function argument.term, argument.height + 1, argument.edits⟩

/-- The two arguments of a call. -/
def called2 (function : String) (first second : Phrase) : Phrase :=
  ⟨.call2 function first.term second.term, max first.height second.height + 1,
    first.edits ++ second.edits⟩

end Phrase

/-- A phrase and the tokens behind it, or why there is none. -/
abbrev Parsed := Except ParseError (Phrase × List Token)

/-- Takes a phrase off the front of a token list. -/
abbrev Parser := List Token → Parsed

/-- The byte at which the first token starts. -/
def positionOf : List Token → Nat
  | [] => 0
  | token :: _ => token.span.start

/-- A fault at the first of these tokens. -/
def faultAt (fault : ParseFault) (tokens : List Token) : ParseError := ⟨fault, positionOf tokens⟩

/-- Passes over a token of the given kind. -/
def expect (kind : TokenKind) : List Token → Except ParseError (List Token)
  | [] => .error (faultAt .pastFinish [])
  | token :: rest =>
    if token.kind = kind then .ok rest
    else .error (faultAt (.wrongToken kind token.kind) (token :: rest))

/-- Lets a phrase through whose tree is not too high; the fault lies at the tokens behind it. -/
def withinHeight (phrase : Phrase) (rest : List Token) : Parsed :=
  if maxDepth < phrase.height then .error (faultAt .nestedTooDeeply rest) else .ok (phrase, rest)

/-- Goes on with the phrase that a parser found and the tokens behind it. -/
def Parsed.andThen (p : Parsed) (next : Phrase → List Token → Parsed) : Parsed :=
  match p with
  | .ok (phrase, rest) => next phrase rest
  | .error e => .error e

/-- Goes on behind a token of the given kind. -/
def expectThen (kind : TokenKind) (tokens : List Token) (next : List Token → Parsed) : Parsed :=
  match expect kind tokens with
  | .ok rest => next rest
  | .error e => .error e

/-- Joins operands to the phrase on their left as long as an operator of the chain follows; `bound`
is at least the number of operators. -/
def chainFrom (operator? : TokenKind → Option BinaryOp) (operand : Parser) :
    (bound : Nat) → Phrase → List Token → Parsed
  | _, left, [] => .ok (left, [])
  | 0, left, tokens => .ok (left, tokens)
  | bound + 1, left, token :: rest =>
    match operator? token.kind with
    | none => .ok (left, token :: rest)
    | some op =>
      (operand rest).andThen fun right behind =>
        (withinHeight (left.join op right) behind).andThen fun joined behind =>
          chainFrom operator? operand bound joined behind

/-- Operands joined by operators, grouped from the left. -/
def chain (operator? : TokenKind → Option BinaryOp) (operand : Parser) : Parser := fun tokens =>
  (operand tokens).andThen fun first rest => chainFrom operator? operand rest.length first rest

/-- The operators of a sum. -/
def sumOperator? : TokenKind → Option BinaryOp
  | .plus => some .add
  | .minus => some .sub
  | _ => none

/-- The operators of a product. -/
def productOperator? : TokenKind → Option BinaryOp
  | .star => some .mul
  | .slash => some .div
  | .percent => some .mod
  | _ => none

/-- The operator of a power. -/
def powerOperator? : TokenKind → Option BinaryOp
  | .caret => some .pow
  | _ => none

/-- A sum of products of powers of atoms. -/
def sumOf (atom : Parser) : Parser :=
  chain sumOperator? (chain productOperator? (chain powerOperator? atom))

/-- The text that stands for a fixed value: a negative one, the negative zero included, is put in
parentheses, so that it can follow an operator. -/
def valueText (x : Float) : String :=
  if Double.isNegative x then "(" ++ Layout.formula.text x ++ ")" else Layout.formula.text x

/-- A name that is not called: a random draw, the value of a fixed variable, or a variable. -/
def reference (scope : Scope) (name : String) (span : Span) : Phrase :=
  if name = Builtin.randomName then .leaf .random
  else if scope.isFixed name then
    let value := (scope.value? name).getD 0.0
    .replaced (.number value) span (valueText value)
  else match scope.displayName? name with
    | some display =>
      if display = name then .leaf (.var name) else .replaced (.var name) span display
    | none => .leaf (.var name)

/-- The arguments of a call and the parenthesis that closes it. -/
def callOf (name : String) (argument : Parser) : Parser := fun tokens =>
  if name = Builtin.randomName then
    expectThen .rightParen tokens fun rest => .ok (.leaf .random, rest)
  else if (Builtin.unary? name).isSome then
    (argument tokens).andThen fun phrase rest =>
      expectThen .rightParen rest fun rest => withinHeight (phrase.called name) rest
  else if (Builtin.binary? name).isSome then
    (argument tokens).andThen fun first rest =>
      expectThen .comma rest fun rest =>
        (argument rest).andThen fun second rest =>
          expectThen .rightParen rest fun rest => withinHeight (first.called2 name second) rest
  else .error (faultAt (.unknownFunction name) tokens)

/-- Goes one level down, unless none is left. -/
def descend (inner : Option Parser) (next : Parser → Parser) : Parser := fun tokens =>
  match inner with
  | some parser => next parser tokens
  | none => .error (faultAt .nestedTooDeeply tokens)

/-- An atom; `inner` parses the sum one level down, if there is a level left. -/
def atomWith (scope : Scope) (inner : Option Parser) : Parser
  | [] => .error (faultAt .pastFinish [])
  | token :: rest =>
    match token.kind with
    | .number value => .ok (.leaf (.number value), rest)
    | .name name =>
      match rest with
      | ⟨.leftParen, _⟩ :: arguments => descend inner (callOf name) arguments
      | _ => .ok (reference scope name token.span, rest)
    | .minus =>
      (descend inner id rest).andThen fun operand behind => withinHeight operand.negated behind
    | .plus => descend inner id rest
    | .leftParen =>
      (descend inner id rest).andThen fun phrase behind =>
        expectThen .rightParen behind fun behind => .ok (phrase, behind)
    | .finish => .error (faultAt .missingOperand (token :: rest))
    | other => .error (faultAt (.unexpectedToken other) (token :: rest))

/-- A sum with so many levels left below it. -/
def sumAt (scope : Scope) : (levels : Nat) → Parser
  | 0 => sumOf (atomWith scope none)
  | levels + 1 => sumOf (atomWith scope (some (sumAt scope levels)))

/-- A whole token list as one sum. -/
def parseTokens (scope : Scope) (tokens : List Token) : Except ParseError Phrase :=
  match sumAt scope maxDepth tokens with
  | .error e => .error e
  | .ok (_, []) => .error (faultAt .pastFinish [])
  | .ok (phrase, token :: rest) =>
    if token.kind = .finish then .ok phrase else .error (faultAt .leftover (token :: rest))

end LengthFormula
