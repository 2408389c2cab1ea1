import LengthFormula.Decimal.Shortest

/-!
# Decimal text of doubles

A layout says how the digits of a double are written: between which exponents without a power of
ten, whether a whole number keeps a fractional zero, how a positive exponent is signed, and which
digits are taken in a tie.  The layouts of the formula language are values of `Layout`.
`significantText` writes a fixed number of significant digits.
-/

namespace LengthFormula

/-- Significant digits with the exponent of the first one. -/
structure Significant where
  digits : List Char
  exponent : Int

namespace Significant

/-- The digits of a decimal without the zeros at their end. -/
def ofDecimal (d : Decimal) : Significant :=
  let all := Nat.toDigits 10 d.coefficient
  let kept := (all.reverse.dropWhile (· == '0')).reverse
  ⟨if kept.isEmpty then ['0'] else kept, d.exponent + all.length - 1⟩

/-- Written without a power of ten; `keepsPoint` gives a whole number a fractional zero. -/
def plain (s : Significant) (keepsPoint : Bool) : List Char :=
  if 0 ≤ s.exponent then
    let whole := s.exponent.toNat + 1
    if s.digits.length ≤ whole then
      s.digits ++ List.replicate (whole - s.digits.length) '0'
        ++ (if keepsPoint then ['.', '0'] else [])
    else s.digits.take whole ++ ['.'] ++ s.digits.drop whole
  else ['0', '.'] ++ List.replicate (-s.exponent - 1).toNat '0' ++ s.digits

/-- Written with a power of ten; `plusSign` signs a positive exponent. -/
def scientific (s : Significant) (plusSign : Bool) : List Char :=
  let mantissa := match s.digits with
    | [] => []
    | [d] => [d]
    | d :: ds => d :: '.' :: ds
  let power := if s.exponent < 0 then '-' :: Nat.toDigits 10 s.exponent.natAbs
    else (if plusSign then ['+'] else []) ++ Nat.toDigits 10 s.exponent.natAbs
  mantissa ++ ['e'] ++ power

end Significant

/-- How a double is written. -/
structure Layout where
  /-- Which digits are taken in a tie. -/
  tie : Tie
  /-- The least exponent written without a power of ten, if there is one. -/
  plainFrom : Option Int
  /-- The least exponent above that which takes a power of ten again, if there is one. -/
  plainBelow : Option Int
  /-- A whole number keeps a fractional zero. -/
  keepsPoint : Bool
  /-- A positive exponent has a sign. -/
  plusSign : Bool

namespace Layout

/-- The text shown in messages: with a power of ten below `10 ^ (-4)` and from `10 ^ 16` on. -/
def message : Layout := ⟨.away, some (-4), some 16, true, false⟩

/-- The text written into formulas: never a power of ten, and no point in a whole number. -/
def formula : Layout := ⟨.away, none, none, false, false⟩

/-- The text of a JSON number: with a power of ten below `10 ^ (-5)` and from `10 ^ 16` on. -/
def json : Layout := ⟨.even, some (-5), some 16, true, true⟩

/-- Numbers with this exponent are written without a power of ten. -/
def isPlain (layout : Layout) (exponent : Int) : Bool :=
  layout.plainFrom.all (· ≤ exponent) && layout.plainBelow.all (exponent < ·)

/-- The digits of a finite magnitude, laid out. -/
def magnitudeText (layout : Layout) (k : Nat) : List Char :=
  let s := Significant.ofDecimal (Decimal.shortest layout.tie k)
  if layout.isPlain s.exponent then s.plain layout.keepsPoint else s.scientific layout.plusSign

/-- The text of a double; infinities and NaN have words of their own. -/
def chars (layout : Layout) (x : Float) : List Char :=
  if Double.isNaN x then ['N', 'a', 'N']
  else (if Double.isNegative x then ['-'] else [])
    ++ (if Double.isInfinite x then ['i', 'n', 'f'] else layout.magnitudeText (Double.magnitude x))

/-- The text of a double. -/
def text (layout : Layout) (x : Float) : String :=
  String.ofList (layout.chars x)

end Layout

namespace Significant

/-- The digits of a finite magnitude rounded to `count` of them, a tie to the even one. -/
def rounded (count k : Nat) : Significant :=
  if k = 0 then ⟨List.replicate count '0', 0⟩
  else
    let e := Decimal.leadingExponent k
    let p := (count : Int) - 1 - e
    let n := Double.roundHalfEven (Decimal.scaledNumerator k p) (Decimal.scaledDenominator p)
    if 10 ^ count ≤ n then ⟨Nat.toDigits 10 (n / 10), e + 1⟩ else ⟨Nat.toDigits 10 n, e⟩

end Significant

/-- A double written with `count` significant digits and a power of ten. -/
def significantText (count : Nat) (x : Float) : String :=
  if Double.isFinite x then
    String.ofList ((if Double.isNegative x then ['-'] else [])
      ++ (Significant.rounded count (Double.magnitude x)).scientific false)
  else Layout.message.text x

end LengthFormula
