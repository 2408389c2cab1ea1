import LengthFormula.Formula.Phrase
import LengthFormula.Proofs.Double.Negation
import LengthFormula.Proofs.Length.PlainLength

/-!
# The text of a value

A finite value is put into a text as its digits, or as a minus and the digits in parentheses
(`toList_valueText`).  The digits write its absolute value (`exists_plainDecimal`), and
`Lexeme.ofValue` are the lexemes of the text.
-/

namespace LengthFormula

/-- The digits of a finite double, without its sign. -/
def digitsOf (x : Float) : List Char := Layout.formula.magnitudeText (Double.magnitude x)

section Value

variable {x : Float}

theorem toList_valueText (h : Double.isFinite x = true) :
    (valueText x).toList
      = if Double.isNegative x then '(' :: '-' :: (digitsOf x ++ [')']) else digitsOf x := by
  have htext : (Layout.formula.text x).toList
      = (if Double.isNegative x then ['-'] else []) ++ digitsOf x := by
    rw [Layout.text, String.toList_ofList, Layout.chars_of_isFinite Layout.formula h, digitsOf]
  unfold valueText
  split
  · next hnegative =>
    rw [String.toList_append, String.toList_append, htext, if_pos hnegative]
    rfl
  · next hnegative => rw [htext, if_neg hnegative, List.nil_append]

/-- The digits of a finite double write its absolute value. -/
theorem exists_plainDecimal (h : Double.isFinite x = true) :
    ∃ d, PlainDecimal (digitsOf x) d ∧
      (if Double.isNegative x then -d.toDouble false else d.toDouble false) = x := by
  have hfinite := Double.magnitude_lt h
  obtain ⟨d, hd, hmagnitude⟩ := Layout.formula_magnitudeText hfinite
  refine ⟨d, hd, ?_⟩
  rw [Decimal.toDouble, hmagnitude]
  have hx := Double.ofMagnitude_magnitude h
  split
  · next hnegative =>
    rw [Double.neg_ofMagnitude false hfinite, Bool.not_false]
    rwa [hnegative] at hx
  · next hnegative =>
    rw [Bool.not_eq_true] at hnegative
    rwa [hnegative] at hx

/-- The lexemes of the text of a value. -/
def Lexeme.ofValue (gap : List Char) (x : Float) : List Lexeme :=
  if Double.isNegative x then
    [⟨gap, .leftParen, '(', []⟩, ⟨[], .number x, '-', digitsOf x⟩, ⟨[], .rightParen, ')', []⟩]
  else [⟨gap, .number x, (digitsOf x).headD '0', (digitsOf x).tail⟩]

/-- The kinds of these lexemes. -/
def valueKinds (x : Float) : List TokenKind :=
  if Double.isNegative x then [.leftParen, .number x, .rightParen] else [.number x]

theorem Lexeme.map_kind_ofValue (gap : List Char) (x : Float) :
    (ofValue gap x).map kind = valueKinds x := by
  rw [ofValue, valueKinds]
  split <;> rfl

theorem digitsOf_eq_cons (h : Double.isFinite x = true) :
    (digitsOf x).headD '0' :: (digitsOf x).tail = digitsOf x := by
  obtain ⟨d, hd, -⟩ := exists_plainDecimal h
  obtain ⟨c, ds, hcons, -⟩ := hd.exists_cons
  rw [hcons]
  rfl

theorem Lexeme.textOf_ofValue (gap : List Char) (h : Double.isFinite x = true) (rest : List Char) :
    textOf (ofValue gap x) rest = gap ++ ((valueText x).toList ++ rest) := by
  rw [toList_valueText h, ofValue]
  split
  · simp [textOf]
  · rw [textOf, textOf]
    conv => rhs; rw [← digitsOf_eq_cons h]
    rfl

/-- The text of a value opens a number unless it is negative. -/
theorem opensNumber_valueText (h : Double.isFinite x = true) (rest : List Char) :
    opensNumber ((valueText x).toList ++ rest) = !Double.isNegative x := by
  rw [toList_valueText h]
  split
  · next hnegative =>
    rw [hnegative]
    rfl
  · next hnegative =>
    obtain ⟨d, hd, -⟩ := exists_plainDecimal h
    obtain ⟨c, ds, hcons, hc⟩ := hd.exists_cons
    rw [hcons, List.cons_append, opensNumber_of_isDigit hc]
    simpa using hnegative

end Value

end LengthFormula
