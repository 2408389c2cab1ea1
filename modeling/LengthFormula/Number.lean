import LengthFormula.Json.Fields

/-!
# Reported numbers

A result is reported as an integer where it is one that fits 64 bits, and as a double otherwise.
-/

namespace LengthFormula

/-- A result as it is reported. -/
inductive Number where
  | integer (value : Int)
  | real (value : Float)
  deriving DecidableEq, Repr

namespace Number

/-- An integer where the double leaves no fractional part and is in the range of the 64-bit
integers. -/
def ofDouble (x : Float) : Number :=
  if Double.fract x == 0.0 && Double.inInt64Range x then integer (Double.toInt64 x) else real x

/-- The text of a number; a double takes no power of ten. -/
def text : Number → String
  | integer n => toString n
  | real x => Layout.formula.text x

/-- A number as JSON, under the name of its kind. -/
def toJson : Number → Json
  | integer n => .object [("Integer", .ofInt n)]
  | real x => .object [("Real", .ofDouble x)]

/-- The number that a JSON value holds. -/
def ofJson? : Json → Option Number
  | .object [("Integer", value)] => value.asInt64?.map integer
  | .object [("Real", value)] => value.asDouble?.map real
  | _ => none

end Number

end LengthFormula
