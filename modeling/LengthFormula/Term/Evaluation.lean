import LengthFormula.Builtin
import LengthFormula.Draws
import LengthFormula.Scope
import LengthFormula.Term

/-!
# The value of a term

Evaluation reads variables from the scope as it is now, takes random draws from left to right and
stops at the first error.  It gives the draws that are left also when it fails.
-/

namespace LengthFormula

/-- Why a term has no value. -/
inductive EvalError where
  /-- There is no term. -/
  | noFormula
  | unknownFunction (name : String)
  | undefinedVariable (name : String)
  /-- The remainder of these integers does not exist, or its quotient does not fit. -/
  | invalidModulo (dividend divisor : Int)
  deriving DecidableEq, Repr

/-- The message of an error. -/
def EvalError.message : EvalError → String
  | noFormula => "No expression has been parsed"
  | unknownFunction name => "Unknown function: " ++ name
  | undefinedVariable name => "Undefined variable: " ++ name
  | invalidModulo dividend divisor =>
    "Invalid modulo: " ++ toString dividend ++ " % " ++ toString divisor

/-- A value or an error, with the draws that are left. -/
abbrev Outcome := Except EvalError Float × Draws

/-- Goes on with the value and the draws that are left; an error stands. -/
def Outcome.andThen (o : Outcome) (next : Float → Draws → Outcome) : Outcome :=
  match o with
  | (.ok x, draws) => next x draws
  | (.error e, draws) => (.error e, draws)

/-- The remainder of two 64-bit integers, with the sign of the dividend.  There is none where the
divisor is zero or the quotient is out of range. -/
def remainder? (dividend divisor : Int) : Option Int :=
  if divisor = 0 || (dividend = Double.minInt64 && divisor = -1) then none
  else some (dividend.tmod divisor)

/-- The integer remainder of the operands, each rounded to a 64-bit integer. -/
def modulo (x y : Float) : Except EvalError Float :=
  let dividend := Double.toInt64 (Double.roundHalfUp x)
  let divisor := Double.toInt64 (Double.roundHalfUp y)
  match remainder? dividend divisor with
  | some r => .ok (Double.ofInt r)
  | none => .error (.invalidModulo dividend divisor)

/-- The value of an operator. -/
def BinaryOp.apply : BinaryOp → Float → Float → Except EvalError Float
  | add, x, y => .ok (x + y)
  | sub, x, y => .ok (x - y)
  | mul, x, y => .ok (x * y)
  | div, x, y => .ok (x / y)
  | pow, x, y => .ok (Float.pow x y)
  | mod, x, y => modulo x y

/-- The value of a name: an undeclared one is an error in strict look-ups and zero otherwise. -/
def Scope.lookup (scope : Scope) (strict : Bool) (name : String) : Except EvalError Float :=
  match scope.value? name with
  | some x => .ok x
  | none => if strict then .error (.undefinedVariable name) else .ok 0.0

namespace Term

/-- The value of a term. -/
def eval (scope : Scope) (strict : Bool) : Term → Draws → Outcome
  | number x, draws => (.ok x, draws)
  | var name, draws => (scope.lookup strict name, draws)
  | negate operand, draws =>
    (eval scope strict operand draws).andThen fun x draws => (.ok (-x), draws)
  | random, draws => (.ok draws.head, draws.tail)
  | binary op left right, draws =>
    (eval scope strict left draws).andThen fun x draws =>
      (eval scope strict right draws).andThen fun y draws => (op.apply x y, draws)
  | call function argument, draws =>
    match Builtin.unary? function with
    | none => (.error (.unknownFunction function), draws)
    | some f => (eval scope strict argument draws).andThen fun x draws => (.ok (f x), draws)
  | call2 function first second, draws =>
    match Builtin.binary? function with
    | none => (.error (.unknownFunction function), draws)
    | some f =>
      (eval scope strict first draws).andThen fun x draws =>
        (eval scope strict second draws).andThen fun y draws => (.ok (f x y), draws)

end Term

end LengthFormula
