import LengthFormula.Decimal.Basic
import LengthFormula.Text.CharClass

/-!
# Reading decimals

A decimal is written with digits, at most one point among or around them, and an optional power of
ten: `12`, `1.5`, `.5`, `5.`, `2e3`, `1.5E-7`.  `readDouble?` reads in addition a sign and the words
`inf`, `infinity` and `nan` in any letter case.
-/

namespace LengthFormula

/-- A natural number: one or more digits and nothing else. -/
def readNatural? (cs : List Char) : Option Nat :=
  if !cs.isEmpty && cs.all isDigit then some (Nat.ofDigitChars 10 cs 0) else none

/-- An integer: an optional sign in front of a natural number. -/
def readInteger? : List Char → Option Int
  | '-' :: cs => (readNatural? cs).map fun n => -(n : Int)
  | '+' :: cs => (readNatural? cs).map fun n => (n : Int)
  | cs => (readNatural? cs).map fun n => (n : Int)

/-- The power of ten behind the digits of a decimal; without one the exponent is zero. -/
def readExponent? : List Char → Option Int
  | [] => some 0
  | c :: cs => if isExponentMark c then readInteger? cs else none

/-- The digits behind a decimal point, and what follows them; without a point there are none. -/
def fractionDigits : List Char → List Char × List Char
  | '.' :: cs => (cs.takeWhile isDigit, cs.dropWhile isDigit)
  | cs => ([], cs)

namespace Decimal

/-- Reads a decimal without a sign; there is a digit before the point or after it. -/
def read? (cs : List Char) : Option Decimal :=
  let whole := cs.takeWhile isDigit
  let (part, rest) := fractionDigits (cs.dropWhile isDigit)
  if whole.isEmpty && part.isEmpty then none
  else (readExponent? rest).map fun e => ⟨Nat.ofDigitChars 10 (whole ++ part) 0, e - part.length⟩

end Decimal

/-- The double that is no number. -/
def Double.nan : Float := ofMagnitude false (infinityMagnitude + 2 ^ 51)

/-- A number without a sign, under a sign already read. -/
def readMagnitude? (negative : Bool) (cs : List Char) : Option Float :=
  let word := cs.map Char.toLower
  if word = ['i', 'n', 'f'] || word = ['i', 'n', 'f', 'i', 'n', 'i', 't', 'y'] then
    some (Double.ofMagnitude negative Double.infinityMagnitude)
  else if word = ['n', 'a', 'n'] then some Double.nan
  else (Decimal.read? cs).map (·.toDouble negative)

/-- Reads a double: an optional sign, and a decimal, an infinity or `nan`. -/
def readDouble? : List Char → Option Float
  | '-' :: cs => readMagnitude? true cs
  | '+' :: cs => readMagnitude? false cs
  | cs => readMagnitude? false cs

end LengthFormula
