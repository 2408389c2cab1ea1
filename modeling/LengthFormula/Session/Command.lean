import LengthFormula.Json.Fields
import LengthFormula.Json.Reader

/-!
# Commands

A frame is one command to a session: a word, and behind the first colon its payload.  Payloads with
several parts are JSON records.
-/

namespace LengthFormula

/-- What a frame asks of a session. -/
inductive Command where
  | setName (name : String)
  | setText (text : String)
  | declare (name : String) (value : Float) (fixed : Bool)
  | rename (name display : String)
  | setStrict (strict : Bool)
  | evaluate
  | showVariables
  | showFormula
  deriving DecidableEq, Repr

/-- Why a frame is no command. -/
inductive CommandFault where
  | malformedDeclaration
  | malformedRename
  | malformedStrictness
  | unknownCommand (word : String)
  deriving DecidableEq, Repr

/-- The message of a fault. -/
def CommandFault.message : CommandFault → String
  | malformedDeclaration => "Malformed VARIABLE_DECLARE payload"
  | malformedRename => "Malformed VARIABLE_RENAME payload"
  | malformedStrictness => "STRICT expects 'on' or 'off'"
  | unknownCommand word => word

namespace Command

/-- The word and the payload of a frame; a frame without a colon has an empty payload. -/
def splitFrame (frame : String) : String × String :=
  let cs := frame.toList
  (String.ofList (cs.takeWhile (· != ':')), String.ofList ((cs.dropWhile (· != ':')).drop 1))

/-- The payload of a declaration: a name, a value, and whether it is fixed, which can be omitted. -/
def readDeclaration? (payload : String) : Option Command :=
  match (Json.read? payload).bind (Json.record? ["name", "value", "fixed"]) with
  | some [some name, some value, fixed] =>
    match name.asString?, value.asDouble?, (fixed.getD (.bool false)).asBool? with
    | some name, some value, some fixed => some (declare name value fixed)
    | _, _, _ => none
  | _ => none

/-- The payload of a rename: a name and its display name. -/
def readRename? (payload : String) : Option Command :=
  match (Json.read? payload).bind (Json.record? ["name", "display"]) with
  | some [some name, some display] =>
    match name.asString?, display.asString? with
    | some name, some display => some (rename name display)
    | _, _ => none
  | _ => none

/-- The payload of a change of strictness. -/
def readStrictness? (payload : String) : Option Command :=
  if payload = "on" then some (setStrict true)
  else if payload = "off" then some (setStrict false)
  else none

/-- The command of a frame. -/
def ofFrame (frame : String) : Except CommandFault Command :=
  let (word, payload) := splitFrame frame
  match word with
  | "EXPRESSION_NAME" => .ok (setName payload)
  | "EXPRESSION_SET" => .ok (setText payload)
  | "VARIABLE_DECLARE" => match readDeclaration? payload with
    | some command => .ok command
    | none => .error .malformedDeclaration
  | "VARIABLE_RENAME" => match readRename? payload with
    | some command => .ok command
    | none => .error .malformedRename
  | "STRICT" => match readStrictness? payload with
    | some command => .ok command
    | none => .error .malformedStrictness
  | "EVALUATE" => .ok evaluate
  | "VARIABLES" => .ok showVariables
  | "EXPRESSION" => .ok showFormula
  | word => .error (.unknownCommand word)

end Command

end LengthFormula
