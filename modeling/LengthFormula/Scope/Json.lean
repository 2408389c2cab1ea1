import LengthFormula.Json.Fields
import LengthFormula.Json.Reader
import LengthFormula.Scope

/-!
# Scopes as JSON

A scope is stored as an object of its four parts; tables are stored by ascending keys, and the fixed
names as an ascending list.
-/

namespace LengthFormula.Scope

/-- The names of the stored parts. -/
def partNames : List String := ["values", "order", "fixed", "renames"]

/-- A scope as JSON, with all keys in ascending order. -/
def toJson (scope : Scope) : Json :=
  .object
    [("fixed", .array (scope.fixed.keys.map .string)),
     ("order", .array (scope.order.map .string)),
     ("renames", .object (scope.renames.map fun e => (e.1, .string e.2))),
     ("values", .object (scope.values.map fun e => (e.1, .ofDouble e.2)))]

/-- The scope that a JSON value holds. -/
def ofJson? (j : Json) : Option Scope :=
  match j.record? partNames with
  | some [some values, some order, some fixed, some renames] =>
    match values.asTable? Json.asDouble?, order.asList? Json.asString?,
        fixed.asList? Json.asString?, renames.asTable? Json.asString? with
    | some values, some order, some fixed, some renames =>
      some ⟨values, order, NameSet.ofNames fixed, renames⟩
    | _, _, _, _ => none
  | _ => none

/-- Reads a stored scope. -/
def read? (s : String) : Option Scope := (Json.read? s).bind ofJson?

end LengthFormula.Scope
