import LengthFormula.Formula
import LengthFormula.Number
import LengthFormula.Term.Evaluation
import LengthFormula.Term.Variables

/-!
# Sessions

A session holds one formula, its own name and the variables it reads.  Setting a text replaces the
formula; a text that is refused leaves none.  Variables are read when the formula is evaluated, but
fixed ones and display names when it is set.
-/

namespace LengthFormula

/-- Why a session refuses a change. -/
inductive SessionError where
  /-- The name is no identifier. -/
  | invalidName (name : String)
  /-- The name denotes a random draw. -/
  | reservedName (name : String)
  /-- A variable or the formula itself has the name already. -/
  | duplicateName (name : String)
  /-- The text is no formula. -/
  | invalidText (error : ParseError)
  deriving DecidableEq, Repr

/-- The message of an error. -/
def SessionError.message : SessionError → String
  | invalidName name => "Invalid name: '" ++ name ++ "'"
  | reservedName name => "Reserved name: '" ++ name ++ "'"
  | duplicateName name => "Duplicate key: '" ++ name ++ "'"
  | invalidText error => "Invalid input: " ++ error.describe

/-- One formula with its own name and its variables. -/
structure Session where
  /-- The formula's own name. -/
  name : Option String
  /-- The text last set. -/
  source : String
  /-- The text with fixed values and display names put in; empty where there is no formula. -/
  translated : String
  term : Option Term
  scope : Scope
  /-- Undeclared names are errors instead of zeros. -/
  strict : Bool
  deriving DecidableEq, Repr

/-- The characters of an identifier: word characters, the first one no digit. -/
def isIdentifier (name : String) : Bool :=
  match name.toList with
  | [] => false
  | c :: cs => !isDigit c && (c :: cs).all isWord

/-- Lets a name through that variables and formulas may have. -/
def checkIdentifier (name : String) : Except SessionError Unit :=
  if !isIdentifier name then .error (.invalidName name)
  else if lowerCase name = Builtin.randomName then .error (.reservedName name)
  else .ok ()

namespace Session

/-- The session without a formula. -/
def initial : Session := ⟨none, "", "", none, Scope.initial, false⟩

/-- The name is the formula's own, apart from letter case. -/
def isOwnName (s : Session) (name : String) : Bool :=
  s.name.any fun own => lowerCase own == lowerCase name

/-- Names the formula; no variable has the name. -/
def setName (s : Session) (name : String) : Except SessionError Session :=
  match checkIdentifier name with
  | .error e => .error e
  | .ok () =>
    if s.scope.contains name then .error (.duplicateName name)
    else .ok { s with name := some name }

/-- Declares a variable or overwrites its value. -/
def declare (s : Session) (name : String) (value : Float) : Except SessionError Session :=
  match checkIdentifier name with
  | .error e => .error e
  | .ok () =>
    if s.isOwnName name then .error (.duplicateName name)
    else .ok { s with scope := s.scope.declare name value }

/-- Declares a variable whose value is folded into formulas. -/
def declareFixed (s : Session) (name : String) (value : Float) : Except SessionError Session :=
  match s.declare name value with
  | .error e => .error e
  | .ok s => .ok { s with scope := s.scope.markFixed name }

/-- Shows a name under another one in formulas set from now on. -/
def rename (s : Session) (name display : String) : Session :=
  { s with scope := s.scope.rename name display }

/-- Makes undeclared names errors, or zeros again. -/
def setStrict (s : Session) (strict : Bool) : Session := { s with strict := strict }

/-- Sets the text.  The session that comes with an error has the text and no formula. -/
def setText (convert : Converter) (s : Session) (text : String) :
    Session × Except SessionError Unit :=
  match Formula.parse s.scope convert text with
  | .ok formula =>
    ({ s with source := text, term := some formula.term, translated := formula.translated }, .ok ())
  | .error e => ({ s with source := text, term := none, translated := "" }, .error (.invalidText e))

/-- The value of the formula. -/
def evaluate (s : Session) (draws : Draws) : Outcome :=
  match s.term with
  | some term => term.eval s.scope s.strict draws
  | none => (.error .noFormula, draws)

/-- The formula reads no variable and takes no draw; so does a session without one. -/
def isConstant (s : Session) : Bool := s.term.all (·.isConstant)

/-- Appends the variables of the formula to a list of names. -/
def collectVariables (s : Session) (names : List String) : List String :=
  match s.term with
  | some term => term.collectVariables names
  | none => names

end Session

end LengthFormula
