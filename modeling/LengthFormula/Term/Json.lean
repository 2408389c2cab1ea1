import LengthFormula.Json.Fields
import LengthFormula.Json.Reader
import LengthFormula.Term

/-!
# Terms as JSON

A term is stored as an object with one member, named for the kind of the term; a random draw is
stored as the bare name.  Reading allows a limited number of nested arrays and objects, which also
bounds its recursion.
-/

namespace LengthFormula

namespace BinaryOp

/-- The stored name of an operator. -/
def storedName : BinaryOp → String
  | add => "Add"
  | sub => "Sub"
  | mod => "Mod"
  | mul => "Mul"
  | div => "Div"
  | pow => "Pow"

/-- The operator of a stored name. -/
def ofStoredName? (name : String) : Option BinaryOp :=
  [add, sub, mod, mul, div, pow].find? (·.storedName == name)

/-- The operator that a JSON value holds: its name, or an object that gives the name nothing. -/
def ofJson? (levels : Nat) : Json → Option BinaryOp
  | .string name => ofStoredName? name
  | .object [(name, .null)] => if levels = 0 then none else ofStoredName? name
  | _ => none

end BinaryOp

namespace Term

/-- A term as JSON. -/
def toJson : Term → Json
  | number x => .object [("Number", .ofDouble x)]
  | var name => .object [("Variable", .string name)]
  | negate operand => .object [("UnaryMinus", operand.toJson)]
  | random => .string "Random"
  | binary op left right =>
    .object [("BinaryOp", .object
      [("op", .string op.storedName), ("left", left.toJson), ("right", right.toJson)])]
  | call function argument =>
    .object [("Function", .object [("name", .string function), ("arg", argument.toJson)])]
  | call2 function first second =>
    .object [("Function2", .object
      [("name", .string function), ("first", first.toJson), ("second", second.toJson)])]

/-- The term that a JSON value holds, if it nests at most `levels` arrays and objects. -/
def ofJson? : (levels : Nat) → Json → Option Term
  | _, .string "Random" => some random
  | levels + 1, .object [(kind, body)] =>
    match kind with
    | "Number" => body.asDouble?.map number
    | "Variable" => body.asString?.map var
    | "UnaryMinus" => (ofJson? levels body).map negate
    | "Random" => match body with
      | .null => some random
      | _ => none
    | "BinaryOp" => match levels, body.record? ["op", "left", "right"] with
      | below + 1, some [some op, some left, some right] =>
        match BinaryOp.ofJson? below op, ofJson? below left, ofJson? below right with
        | some op, some left, some right => some (binary op left right)
        | _, _, _ => none
      | _, _ => none
    | "Function" => match levels, body.record? ["name", "arg"] with
      | below + 1, some [some name, some argument] =>
        match name.asString?, ofJson? below argument with
        | some name, some argument => some (call name argument)
        | _, _ => none
      | _, _ => none
    | "Function2" => match levels, body.record? ["name", "first", "second"] with
      | below + 1, some [some name, some first, some second] =>
        match name.asString?, ofJson? below first, ofJson? below second with
        | some name, some first, some second => some (call2 name first second)
        | _, _, _ => none
      | _, _ => none
    | _ => none
  | _, _ => none

/-- Reads a stored term. -/
def read? (s : String) : Option Term :=
  (Json.read? s).bind (ofJson? Json.maxNesting)

end Term

end LengthFormula
