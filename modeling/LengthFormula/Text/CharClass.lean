import LengthFormula.Text.Alphanumeric
import LengthFormula.Text.Blank

/-!
# Character classes of the formula language

Which characters may open a number, separate its parts, mark feet and inches, or stand in a name.
The classes overlap: `-` is a sign, a minus and a spacer; `e` is an exponent mark and a word
character; a space is a spacer and a blank.
-/

namespace LengthFormula

/-- A character that may stand in front of a number. -/
def isSign (c : Char) : Bool := c == '+' || c == '-'

/-- The sign that negates. -/
def isMinus (c : Char) : Bool := c == '-'

/-- The bar between numerator and denominator. -/
def isFractionBar (c : Char) : Bool := c == '/'

/-- The separator between whole inches and a fraction, or after a foot mark. -/
def isSpacer (c : Char) : Bool := c == '-' || c == ' '

/-- The letter that opens a power of ten. -/
def isExponentMark (c : Char) : Bool := c == 'e' || c == 'E'

/-- The decimal point. -/
def isDot (c : Char) : Bool := c == '.'

/-- A digit of the ASCII range; digits of other scripts do not write numbers here. -/
def isDigit (c : Char) : Bool := c.isDigit

/-- A character of the whole or fractional digits of a decimal. -/
def isNumberLead (c : Char) : Bool := isDigit c || isDot c

/-- A character of a name: an underscore, or a letter or numeral of any script. -/
def isWord (c : Char) : Bool := c == '_' || isAlphanumeric c

/-- The mark that closes a number of feet. -/
def isFootMark (c : Char) : Bool := c == '\x27'

/-- The mark that closes a number of inches. -/
def isInchMark (c : Char) : Bool := c == '\x22'

/-- The character classes, in the order in which they are listed. -/
inductive CharClass where
  | sign
  | minus
  | fractionBar
  | spacer
  | exponentMark
  | dot
  | numberLead
  | digit
  | blank
  | word
  | footMark
  | inchMark
  deriving DecidableEq, Repr

namespace CharClass

/-- Every class once. -/
def all : List CharClass :=
  [sign, minus, fractionBar, spacer, exponentMark, dot, numberLead, digit, blank, word, footMark,
    inchMark]

/-- The characters of a class. -/
def holds : CharClass → Char → Bool
  | sign => isSign
  | minus => isMinus
  | fractionBar => isFractionBar
  | spacer => isSpacer
  | exponentMark => isExponentMark
  | dot => isDot
  | numberLead => isNumberLead
  | digit => isDigit
  | blank => isBlank
  | word => isWord
  | footMark => isFootMark
  | inchMark => isInchMark

/-- The classes that hold a character, in listing order. -/
def classesOf (c : Char) : List CharClass :=
  all.filter (·.holds c)

theorem mem_classesOf {k : CharClass} {c : Char} : k ∈ classesOf c ↔ k.holds c = true := by
  cases k <;> simp [classesOf, all]

end CharClass

/-- A digit may stand in a name. -/
theorem isWord_of_isDigit {c : Char} (h : isDigit c = true) : isWord c = true := by
  have : c.isAlphanum = true := by simp [Char.isAlphanum, show c.isDigit = true from h]
  simp [isWord, isAlphanumeric_of_isAlphanum this]

/-- An exponent mark may stand in a name. -/
theorem isWord_of_isExponentMark {c : Char} (h : isExponentMark c = true) : isWord c = true := by
  simp only [isExponentMark, Bool.or_eq_true, beq_iff_eq] at h
  rcases h with rfl | rfl <;> decide

end LengthFormula
