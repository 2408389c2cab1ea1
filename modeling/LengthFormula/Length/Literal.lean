import LengthFormula.Length.Reading

/-!
# Number literals

The scanner of formulas takes the longest text that may be one length: a decimal, a feet part, a
fraction part and a closing mark.  The converter decides whether that text is a number; where it
refuses, a shorter text is tried once: up to the separator of the fraction part, or, where there is
none, the leading decimal alone.  So `6-1/2"` is one literal and `6-1/2` is a subtraction.
-/

namespace LengthFormula

/-- The parts of the longest text that may be one length. -/
structure Literal where
  /-- The leading decimal. -/
  lead : List Char
  /-- A foot mark, a spacer where a digit follows it, and digits and points. -/
  feet : List Char
  /-- A bar and digits, or a spacer, digits and perhaps a bar and digits. -/
  part : List Char
  /-- A closing inch mark, or the foot mark behind a fraction of feet. -/
  mark : List Char
  deriving DecidableEq, Repr

/-- The first character is in the class and a digit follows it. -/
def digitAfter (p : Char → Bool) (cs : List Char) : Bool :=
  startsWith p cs && startsWith isDigit cs.tail

/-- The foot mark at the front of a text, with the spacer, digits and points behind it. -/
def feetPart : List Char → List Char
  | [] => []
  | c :: cs =>
    if isFootMark c then
      if digitAfter isSpacer cs then c :: cs.take 1 ++ cs.tail.takeWhile isNumberLead
      else c :: cs.takeWhile isNumberLead
    else []

/-- A separator with the digits behind it. -/
def separated (cs : List Char) : List Char := cs.take 1 ++ cs.tail.takeWhile isDigit

/-- The fraction part at the front of a text, and whether it holds a bar. -/
def fractionPart (cs : List Char) : List Char × Bool :=
  if digitAfter isFractionBar cs then (separated cs, true)
  else if digitAfter isSpacer cs then
    let whole := separated cs
    let rest := cs.drop whole.length
    if digitAfter isFractionBar rest then (whole ++ separated rest, true) else (whole, false)
  else ([], false)

/-- The closing mark at the front of a text; a foot mark closes only a fraction without feet. -/
def markPart (footAllowed : Bool) (cs : List Char) : List Char :=
  if startsWith isInchMark cs || footAllowed && startsWith isFootMark cs then cs.take 1 else []

namespace Literal

/-- The longest text at the front that may be one length. -/
def scan (cs : List Char) : Literal :=
  let lead := decimalPart cs
  let afterLead := cs.drop lead.length
  let feet := feetPart afterLead
  let afterFeet := afterLead.drop feet.length
  let (part, hasBar) := fractionPart afterFeet
  let mark := markPart (hasBar && feet.isEmpty) (afterFeet.drop part.length)
  ⟨lead, feet, part, mark⟩

/-- The whole text of the literal. -/
def whole (l : Literal) : List Char := l.lead ++ l.feet ++ l.part ++ l.mark

/-- The literal is a decimal, with or without an inch mark. -/
def isPlain (l : Literal) : Bool := l.feet.isEmpty && l.part.isEmpty

/-- A fraction of feet: its foot mark stands behind the bar. -/
def isFractionOfFeet (l : Literal) : Bool := startsWith isFootMark l.mark

/-- The value of the whole text.  A fraction of feet is read as inches and scaled. -/
def wholeValue? (convert : Converter) (l : Literal) : Option Float :=
  if l.isFractionOfFeet then
    (convert (l.lead ++ l.feet ++ l.part ++ ['\x22'])).map LengthUnit.foot.toInches
  else convert l.whole

/-- The text that is tried when the whole text is refused. -/
def shorter (l : Literal) : List Char :=
  if l.part.isEmpty then l.lead else l.lead ++ l.feet

/-- The text that the literal takes, with its value; without one the text is no number. -/
def read (convert : Converter) (l : Literal) : List Char × Option Float :=
  match l.wholeValue? convert with
  | some x => (l.whole, some x)
  | none => if l.isPlain then (l.whole, none) else (l.shorter, convert l.shorter)

end Literal

end LengthFormula
