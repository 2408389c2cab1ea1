import LengthFormula.Table
import LengthFormula.Text.LowerCase

/-!
# Scopes

A scope holds the values of variables, the order of their declaration, which of them are fixed and
under which names they are shown.  Names are looked up in lower case.  A fixed mark and a display
name can stand for a name that is not declared, and a fixed mark stays when the name is declared
again.
-/

namespace LengthFormula

/-- The constants that every scope declares. -/
def builtinConstants : List (String × Float) :=
  [("pi", 3.141592653589793), ("e", 2.718281828459045)]

/-- The name of a built-in constant, letter case included. -/
def isBuiltinConstant (name : String) : Bool := builtinConstants.any (·.1 == name)

/-- Variables with their values, marks and display names. -/
structure Scope where
  /-- The values of the declared names. -/
  values : Table Float
  /-- The declared names in the order of their first declaration. -/
  order : List String
  /-- The names whose values are folded into formulas. -/
  fixed : NameSet
  /-- The names under which names are shown. -/
  renames : Table String
  deriving DecidableEq, Repr

namespace Scope

/-- The scope without any name. -/
def empty : Scope := ⟨[], [], [], []⟩

/-- Declares a name or overwrites its value; its display name becomes the name itself. -/
def declare (scope : Scope) (name : String) (value : Float) : Scope :=
  let key := lowerCase name
  { scope with
    values := scope.values.insert key value
    order := if scope.values.has key then scope.order else scope.order ++ [key]
    renames := scope.renames.insert key key }

/-- Marks a name as fixed. -/
def markFixed (scope : Scope) (name : String) : Scope :=
  { scope with fixed := NameSet.add (lowerCase name) scope.fixed }

/-- Shows a name under another one. -/
def rename (scope : Scope) (name display : String) : Scope :=
  { scope with renames := scope.renames.insert (lowerCase name) display }

/-- The scope that holds only the built-in constants. -/
def initial : Scope :=
  builtinConstants.foldl (fun scope c => scope.declare c.1 c.2) empty

/-- The value of a declared name. -/
def value? (scope : Scope) (name : String) : Option Float := scope.values.get? (lowerCase name)

/-- The name is declared. -/
def contains (scope : Scope) (name : String) : Bool := scope.values.has (lowerCase name)

/-- The name is marked as fixed. -/
def isFixed (scope : Scope) (name : String) : Bool := scope.fixed.has (lowerCase name)

/-- The name under which a name is shown. -/
def displayName? (scope : Scope) (name : String) : Option String :=
  scope.renames.get? (lowerCase name)

/-- The declared names in the order of their first declaration. -/
def names (scope : Scope) : List String := scope.order

/-- The number of declared names. -/
def size (scope : Scope) : Nat := scope.order.length

/-- No name is declared. -/
def isEmpty (scope : Scope) : Bool := scope.order.isEmpty

/-- The scopes hold the same names with equal values: zeros of either sign are equal, and a value
that is no number equals nothing. -/
def sameAs (a b : Scope) : Bool :=
  a.values.keys == b.values.keys
    && (a.values.zip b.values).all (fun p => p.1.2 == p.2.2)
    && a.order == b.order && a.fixed == b.fixed && a.renames == b.renames

end Scope

end LengthFormula
