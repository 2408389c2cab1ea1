import LengthFormula.Scope
import LengthFormula.Term

/-!
# The variables of a term

Which variables a term reads, and whether its value depends on anything at all.
-/

namespace LengthFormula.Term

/-- The term reads no variable and takes no random draw. -/
def isConstant : Term → Bool
  | var _ | random => false
  | number _ => true
  | negate operand => operand.isConstant
  | binary _ left right => left.isConstant && right.isConstant
  | call _ argument => argument.isConstant
  | call2 _ first second => first.isConstant && second.isConstant

/-- Appends a name that is neither a built-in constant nor in the list already. -/
def addVariable (names : List String) (name : String) : List String :=
  if isBuiltinConstant name || names.contains name then names else names ++ [name]

/-- Appends the variables of a term, from left to right. -/
def collectVariables (names : List String) : Term → List String
  | number _ | random => names
  | var name => addVariable names name
  | negate operand => operand.collectVariables names
  | binary _ left right => right.collectVariables (left.collectVariables names)
  | call _ argument => argument.collectVariables names
  | call2 _ first second => second.collectVariables (first.collectVariables names)

end LengthFormula.Term
