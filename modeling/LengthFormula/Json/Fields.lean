import LengthFormula.Decimal.Reading
import LengthFormula.Double.Integral
import LengthFormula.Json
import LengthFormula.Table

/-!
# The parts of JSON values

Readings of a JSON value as what is asked for: a double, a 64-bit integer, a text, a table, or the
fields of a record.  A record may be written as an object, whose keys come in any order and of which
unknown ones are passed over, or as an array of its fields.
-/

namespace LengthFormula.Json

/-- How many arrays and objects may lie around a value that is used, itself included. -/
def maxNesting : Nat := 127

/-- A finite double; a number beyond the doubles is refused. -/
def asDouble? : Json → Option Float
  | number text => (readDouble? text).filter Double.isFinite
  | _ => none

/-- A 64-bit integer, written without point and power of ten; `-0` is none. -/
def asInt64? : Json → Option Int
  | number text =>
    if text = ['-', '0'] then none
    else (readInteger? text).filter fun n => Double.minInt64 ≤ n && n ≤ Double.maxInt64
  | _ => none

/-- A text. -/
def asString? : Json → Option String
  | string s => some s
  | _ => none

/-- A truth value. -/
def asBool? : Json → Option Bool
  | bool b => some b
  | _ => none

/-- A list whose items all have the asked kind. -/
def asList? {α : Type} (item? : Json → Option α) : Json → Option (List α)
  | array items => items.mapM item?
  | _ => none

/-- A table whose entries all have the asked kind; of two entries with one key the later stands. -/
def asTable? {α : Type} (member? : Json → Option α) : Json → Option (Table α)
  | object members =>
    (members.mapM fun m => (member? m.2).map (m.1, ·)).map Table.ofEntries
  | _ => none

/-- The values that the members of an object give to a key. -/
def valuesOf (key : String) (members : List (String × Json)) : List Json :=
  (members.filter (·.1 == key)).map (·.2)

/-- The value of a key, `none` within where there is no such key; a repeated key is refused. -/
def field? (members : List (String × Json)) (key : String) : Option (Option Json) :=
  match valuesOf key members with
  | [] => some none
  | [value] => some (some value)
  | _ => none

/-- The fields of a record, in the order of `names`; a missing one is `none`. -/
def record? (names : List String) : Json → Option (List (Option Json))
  | object members => names.mapM (field? members)
  | array items =>
    if items.length ≤ names.length then
      some (items.map some ++ List.replicate (names.length - items.length) none)
    else none
  | _ => none

end LengthFormula.Json
