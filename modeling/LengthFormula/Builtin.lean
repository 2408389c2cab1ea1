import LengthFormula.Double.Integral

/-!
# Built-in functions

The functions that formulas can call.  Trigonometric functions take and give degrees; the hyperbolic
ones work on plain numbers.
-/

namespace LengthFormula.Builtin

/-- The name that always denotes a random draw. -/
def randomName : String := "random"

/-- One degree in radians. -/
def radiansPerDegree : Float := 3.141592653589793 / 180.0

/-- One radian in degrees. -/
def degreesPerRadian : Float := 180.0 / 3.141592653589793

/-- Degrees in radians. -/
def toRadians (x : Float) : Float := x * radiansPerDegree

/-- Radians in degrees. -/
def toDegrees (x : Float) : Float := x * degreesPerRadian

/-- One with the sign of `x`, and zero for zeros and for what is no number. -/
def sign (x : Float) : Float := if 0.0 < x then 1.0 else if x < 0.0 then -1.0 else 0.0

/-- The larger of two numbers; one that is no number gives way to the other. -/
def maximum (x y : Float) : Float :=
  if Double.isNaN x then y else if Double.isNaN y then x else if x < y then y else x

/-- The smaller of two numbers; one that is no number gives way to the other. -/
def minimum (x y : Float) : Float :=
  if Double.isNaN x then y else if Double.isNaN y then x else if y < x then y else x

/-- The functions of one argument. -/
def unaryTable : List (String × (Float → Float)) :=
  [("cos", fun x => (toRadians x).cos),
   ("sin", fun x => (toRadians x).sin),
   ("tan", fun x => (toRadians x).tan),
   ("acos", fun x => toDegrees x.acos),
   ("asin", fun x => toDegrees x.asin),
   ("atan", fun x => toDegrees x.atan),
   ("cosh", Float.cosh),
   ("sinh", Float.sinh),
   ("tanh", Float.tanh),
   ("acosh", fun x => (x + (x * x - 1.0).sqrt).log),
   ("asinh", fun x => (x + (x * x + 1.0).sqrt).log),
   ("atanh", fun x => 0.5 * ((1.0 + x) / (1.0 - x)).log),
   ("sqrt", Float.sqrt),
   ("sign", sign),
   ("round", Double.roundHalfUp),
   ("trunc", Double.trunc),
   ("floor", Double.floor),
   ("ceil", Double.ceil),
   ("r2d", toDegrees),
   ("d2r", toRadians),
   ("exp", Float.exp),
   ("exp10", fun x => Float.pow 10.0 x),
   ("ln", Float.log),
   ("log", Float.log10),
   ("abs", Float.abs)]

/-- The functions of two arguments. -/
def binaryTable : List (String × (Float → Float → Float)) :=
  [("pow", Float.pow), ("max", maximum), ("min", minimum)]

/-- The function of one argument with this name. -/
def unary? (name : String) : Option (Float → Float) := unaryTable.lookup name

/-- The function of two arguments with this name. -/
def binary? (name : String) : Option (Float → Float → Float) := binaryTable.lookup name

end LengthFormula.Builtin
