import LengthFormula.Session
import LengthFormula.Session.Command

/-!
# Replies

The reply to a frame: the state of the formula, the list of variables, a result, or an error.  Each
is written as a word, a colon and a JSON value.
-/

namespace LengthFormula

/-- The kinds of errors in replies. -/
inductive ReplyCode where
  | invalidName
  | invalidInput
  | badCommand
  | declarationFailed
  | evaluationFailed
  | unknownCommand
  deriving DecidableEq, Repr

/-- The word of an error kind. -/
def ReplyCode.word : ReplyCode → String
  | invalidName => "INVALID_NAME"
  | invalidInput => "INVALID_INPUT"
  | badCommand => "BAD_COMMAND"
  | declarationFailed => "DECLARATION_FAILED"
  | evaluationFailed => "EVALUATION_FAILED"
  | unknownCommand => "UNKNOWN_COMMAND"

/-- A variable as replies show it. -/
structure VariableEntry where
  name : String
  value : Option Float
  fixed : Bool
  display : Option String
  deriving DecidableEq, Repr

/-- The state of a formula as replies show it. -/
structure FormulaState where
  name : Option String
  source : String
  translated : String
  constant : Bool
  variableNames : List String
  deriving DecidableEq, Repr

/-- The reply to a frame. -/
inductive Reply where
  | formula (state : FormulaState)
  | variableEntries (entries : List VariableEntry)
  | result (value : Number)
  | failure (code : ReplyCode) (message : String)
  deriving DecidableEq, Repr

namespace VariableEntry

/-- The entry of a name of a scope. -/
def ofScope (scope : Scope) (name : String) : VariableEntry :=
  ⟨name, scope.value? name, scope.isFixed name, scope.displayName? name⟩

/-- An entry as JSON. -/
def toJson (e : VariableEntry) : Json :=
  .object
    [("display", .ofText? e.display), ("fixed", .bool e.fixed), ("name", .string e.name),
     ("value", match e.value with
       | some x => .ofDouble x
       | none => .null)]

end VariableEntry

namespace FormulaState

/-- The state of a session's formula. -/
def ofSession (s : Session) : FormulaState :=
  ⟨s.name, s.source, s.translated, s.isConstant, s.collectVariables []⟩

/-- A state as JSON. -/
def toJson (f : FormulaState) : Json :=
  .object
    [("constant", .bool f.constant), ("name", .ofText? f.name), ("source", .string f.source),
     ("translated", .string f.translated), ("variables", .array (f.variableNames.map .string))]

end FormulaState

/-- A result as JSON; infinities and what is no number are written as words. -/
def Number.resultJson : Number → Json
  | integer n => .ofInt n
  | real x =>
    if Double.isNaN x then .string "NaN"
    else if Double.isInfinite x then
      .string (if Double.isNegative x then "-Infinity" else "Infinity")
    else .ofDouble x

namespace Reply

/-- The word in front of a reply. -/
def word : Reply → String
  | formula _ => "EXPRESSION_UPDATE"
  | variableEntries _ => "VARIABLES_UPDATE"
  | result _ => "RESULT_UPDATE"
  | failure _ _ => "ERROR_UPDATE"

/-- The JSON value of a reply, with keys in ascending order. -/
def body : Reply → Json
  | formula state => state.toJson
  | variableEntries entries => .array (entries.map (·.toJson))
  | result value => .object [("value", value.resultJson)]
  | failure code message => .object [("code", .string code.word), ("message", .string message)]

/-- The text of a reply. -/
def render (r : Reply) : String := r.word ++ ":" ++ r.body.render

end Reply

/-- The kind of error that a faulty frame has. -/
def CommandFault.code : CommandFault → ReplyCode
  | malformedDeclaration | malformedRename | malformedStrictness => .badCommand
  | unknownCommand _ => .unknownCommand

namespace Session

/-- The reply that shows the formula. -/
def formulaReply (s : Session) : Reply := .formula (FormulaState.ofSession s)

/-- The reply that shows the variables in the order of their declaration. -/
def variablesReply (s : Session) : Reply :=
  .variableEntries (s.scope.names.map (VariableEntry.ofScope s.scope))

/-- A session after a command, with the reply and the draws that are left. -/
structure Answer where
  session : Session
  reply : Reply
  draws : Draws

/-- Carries out a command; number literals are lengths. -/
def perform (s : Session) (draws : Draws) : Command → Answer
  | .setName name => match s.setName name with
    | .ok s => ⟨s, s.formulaReply, draws⟩
    | .error e => ⟨s, .failure .invalidName e.message, draws⟩
  | .setText text => match s.setText readLength? text with
    | (s, .ok ()) => ⟨s, s.formulaReply, draws⟩
    | (s, .error e) => ⟨s, .failure .invalidInput e.message, draws⟩
  | .declare name value fixed =>
    match if fixed then s.declareFixed name value else s.declare name value with
    | .ok s => ⟨s, s.variablesReply, draws⟩
    | .error e => ⟨s, .failure .declarationFailed e.message, draws⟩
  | .rename name display =>
    let s := s.rename name display
    ⟨s, s.variablesReply, draws⟩
  | .setStrict strict =>
    let s := s.setStrict strict
    ⟨s, s.formulaReply, draws⟩
  | .evaluate => match s.evaluate draws with
    | (.ok x, draws) => ⟨s, .result (Number.ofDouble x), draws⟩
    | (.error e, draws) => ⟨s, .failure .evaluationFailed e.message, draws⟩
  | .showVariables => ⟨s, s.variablesReply, draws⟩
  | .showFormula => ⟨s, s.formulaReply, draws⟩

/-- Answers a frame. -/
def handle (s : Session) (draws : Draws) (frame : String) : Answer :=
  match Command.ofFrame frame with
  | .ok command => s.perform draws command
  | .error fault => ⟨s, .failure fault.code fault.message, draws⟩

end Session

end LengthFormula
