import LengthFormula.Decimal.Reading
import LengthFormula.Length.Scan
import LengthFormula.Length.Unit

/-!
# Reading lengths

`readLength?` reads a length in inches: a plain decimal, or feet, inches and a fraction of an inch
with their marks, such as `5'`, `5'-6 1/2"`, `6"`, `6-1/2"` and `1/2"`, with an optional minus in
front.  A fraction that follows no feet is closed by an inch mark.
-/

namespace LengthFormula

/-- A way to read the text of a number literal; `none` refuses the text. -/
abbrev Converter := List Char → Option Float

/-- The double nearest to the number that digits write. -/
def digitsDouble (digits : List Char) : Float :=
  Decimal.toDouble false ⟨Nat.ofDigitChars 10 digits 0, 0⟩

/-- Takes a fraction off the front: digits, a bar and digits that are not all zero. -/
def takeFraction? (cs : List Char) : Option (Float × List Char) :=
  let numerator := cs.takeWhile isDigit
  match cs.dropWhile isDigit with
  | [] => none
  | bar :: ds =>
    let denominator := ds.takeWhile isDigit
    if isFractionBar bar && !numerator.isEmpty && Nat.ofDigitChars 10 denominator 0 != 0 then
      some (digitsDouble numerator / digitsDouble denominator, ds.dropWhile isDigit)
    else none

/-- Takes a decimal off the front. -/
def takeDecimal? (cs : List Char) : Option (Float × List Char) :=
  let (decimal, rest) := scanDecimal cs
  (Decimal.read? decimal).map fun d => (d.toDouble false, rest)

/-- Takes the inches behind a foot mark off the front: a fraction, a decimal, or a decimal, a spacer
and a fraction. -/
def takeInches? (cs : List Char) : Option (Float × List Char) :=
  match takeFraction? cs with
  | some found => some found
  | none => match takeDecimal? cs with
    | none => none
    | some (whole, rest) => match rest with
      | [] => some (whole, [])
      | c :: ds =>
        if isSpacer c then
          match takeFraction? ds with
          | some (part, left) => some (whole + part, left)
          | none => some (whole, rest)
        else some (whole, rest)

/-- What follows the inches of a length with feet: nothing, or an inch mark. -/
def closesInches : List Char → Bool
  | [] => true
  | [c] => isInchMark c
  | _ => false

/-- The text behind the foot mark: nothing, or inches behind an optional spacer. -/
def readAfterFeet? (feet : Float) : List Char → Option Float
  | [] => some feet
  | c :: cs =>
    match takeInches? (if isSpacer c then cs else c :: cs) with
    | some (inches, rest) => if closesInches rest then some (feet + inches) else none
    | none => none

/-- The text is one inch mark. -/
def isOneInchMark : List Char → Bool
  | [c] => isInchMark c
  | _ => false

/-- The text behind the leading decimal of a length. -/
def readAfterLead? (lead : Float) : List Char → Option Float
  | [] => some lead
  | c :: cs =>
    if isFootMark c then readAfterFeet? (LengthUnit.foot.toInches lead) cs
    else if isInchMark c then (if cs.isEmpty then some lead else none)
    else if isSpacer c then
      match takeFraction? cs with
      | some (part, rest) => if isOneInchMark rest then some (lead + part) else none
      | none => none
    else none

/-- Reads a length without a sign, in inches. -/
def readUnsignedLength? (cs : List Char) : Option Float :=
  match takeFraction? cs with
  | some (value, rest) => if isOneInchMark rest then some value else none
  | none => match takeDecimal? cs with
    | some (lead, rest) => readAfterLead? lead rest
    | none => none

/-- Reads a length in inches. -/
def readLength? : Converter
  | [] => none
  | c :: cs =>
    if isMinus c then (readUnsignedLength? cs).map (-·) else readUnsignedLength? (c :: cs)

end LengthFormula
