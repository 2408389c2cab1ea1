/-!
# Terms

The tree of a formula.  Terms can also be read from stored text, so the names of functions are kept
as text and need not be names that the formula language knows.
-/

namespace LengthFormula

/-- The operators between two operands. -/
inductive BinaryOp where
  | add
  | sub
  /-- The integer remainder of the rounded operands. -/
  | mod
  | mul
  | div
  | pow
  deriving DecidableEq, Repr

/-- The tree of a formula. -/
inductive Term where
  /-- A number, written as such or folded in for a fixed variable. -/
  | number (value : Float)
  /-- A variable, by its name in lower case. -/
  | var (name : String)
  /-- The negation of all that follows the sign. -/
  | negate (operand : Term)
  /-- A fresh random draw on each evaluation. -/
  | random
  | binary (op : BinaryOp) (left right : Term)
  /-- A call with one argument. -/
  | call (function : String) (argument : Term)
  /-- A call with two arguments. -/
  | call2 (function : String) (first second : Term)
  deriving DecidableEq, Repr

namespace Term

/-- The parts directly below a term, from left to right. -/
def children : Term → List Term
  | number _ | var _ | random => []
  | negate operand => [operand]
  | binary _ left right => [left, right]
  | call _ argument => [argument]
  | call2 _ first second => [first, second]

/-- The number of terms on the longest way down. -/
def height : Term → Nat
  | number _ | var _ | random => 1
  | negate operand => operand.height + 1
  | binary _ left right => max left.height right.height + 1
  | call _ argument => argument.height + 1
  | call2 _ first second => max first.height second.height + 1

end Term

end LengthFormula
