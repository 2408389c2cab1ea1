import LengthFormula.Proofs.Formula.Grammar

/-!
# The parser with its counter

`parseTokens` takes phrases off the front of a list and is given the levels that are left.  Here is
the same parser as it goes over a fixed token list: a cursor moves forward, one counter counts the
parentheses, calls and prefix signs that are open, and each node knows the height of its tree.  The
counter is an integer, so nothing keeps it from falling below zero but the parser itself.  A cursor
remembers all places it has come through, also where the parser fails.

Loops and recursion are bounded by `fuel`; a run that lacks fuel is `exhausted`, which no run with
enough fuel is.
-/

namespace LengthFormula

/-- A place in the token list, with the counter of what is open there. -/
structure Place where
  index : Nat
  depth : Int
  deriving DecidableEq, Repr

/-- The state of the parser. -/
structure Cursor where
  place : Place
  edits : List Edit
  /-- The places that the cursor has come through, last one first. -/
  passed : List Place
  deriving DecidableEq, Repr

/-- A tree with its height, as the parser keeps track of it. -/
structure Node where
  term : Term
  height : Nat
  deriving DecidableEq, Repr

/-- How a run ends, and where. -/
inductive Ending (α : Type) where
  | done (result : α) (cursor : Cursor)
  | failed (error : ParseError) (cursor : Cursor)
  /-- The fuel did not suffice. -/
  | exhausted

/-- A part of the parser: it moves the cursor, and gives a result or fails. -/
def Run (α : Type) : Type := Cursor → Ending α

/-- Goes on where a run is done. -/
def Ending.andThen {α β : Type} (ending : Ending α) (next : α → Run β) : Ending β :=
  match ending with
  | .done result cursor => next result cursor
  | .failed error cursor => .failed error cursor
  | .exhausted => .exhausted

instance : Monad Run where
  pure result := fun cursor => .done result cursor
  bind run next := fun cursor => (run cursor).andThen next

@[simp]
theorem Ending.andThen_done {α β : Type} (result : α) (cursor : Cursor) (next : α → Run β) :
    (Ending.done result cursor).andThen next = next result cursor := rfl

@[simp]
theorem Run.bind_apply {α β : Type} (run : Run α) (next : α → Run β) (cursor : Cursor) :
    (run >>= next) cursor = (run cursor).andThen next := rfl

@[simp]
theorem Run.pure_apply {α : Type} (result : α) (cursor : Cursor) :
    (pure result : Run α) cursor = .done result cursor := rfl

namespace Cursor

/-- The place at the start of a token list. -/
def start : Cursor := ⟨⟨0, 0⟩, [], [⟨0, 0⟩]⟩

/-- Moves to a place. -/
def goTo (place : Place) (cursor : Cursor) : Cursor :=
  ⟨place, cursor.edits, place :: cursor.passed⟩

/-- The token at the cursor; the last one where the cursor is past the end. -/
def current (tokens : List Token) (cursor : Cursor) : Token :=
  tokens.getD (min cursor.place.index (tokens.length - 1)) ⟨.finish, ⟨0, 0⟩⟩

end Cursor

namespace Run

section Steps

variable (tokens : List Token)

/-- The token at the cursor. -/
def current : Run Token := fun cursor => .done (cursor.current tokens) cursor

@[simp]
theorem current_apply (cursor : Cursor) :
    current tokens cursor = .done (cursor.current tokens) cursor := rfl

/-- A fault at the token at the cursor. -/
def fail {α : Type} (fault : ParseFault) : Run α := fun cursor =>
  .failed ⟨fault, (cursor.current tokens).span.start⟩ cursor

/-- Moves past the current token, unless it is the end of the text. -/
def advance : Run Unit := do
  if (← current tokens).kind = .finish then fail tokens .pastFinish
  else fun cursor => .done () (cursor.goTo ⟨cursor.place.index + 1, cursor.place.depth⟩)

/-- Moves past a token of the given kind. -/
def expect (kind : TokenKind) : Run Unit := do
  let found := (← current tokens).kind
  if found = kind then advance tokens else fail tokens (.wrongToken kind found)

/-- Counts one level more, unless the limit is reached. -/
def descend : Run Unit := fun cursor =>
  if (maxDepth : Int) ≤ cursor.place.depth then fail tokens .nestedTooDeeply cursor
  else .done () (cursor.goTo ⟨cursor.place.index, cursor.place.depth + 1⟩)

/-- Counts one level less. -/
def ascend : Run Unit := fun cursor =>
  .done () (cursor.goTo ⟨cursor.place.index, cursor.place.depth - 1⟩)

/-- A node, unless its tree is too high. -/
def node (term : Term) (height : Nat) : Run Node :=
  if maxDepth < height then fail tokens .nestedTooDeeply else pure ⟨term, height⟩

/-- Runs a part one level down. -/
def nested (body : Run Node) : Run Node := do
  descend tokens
  let result ← body
  ascend
  return result

variable {tokens} {body : Run Node} {cursor : Cursor}

/-- No part is run where no level is left. -/
theorem nested_of_le (h : (maxDepth : Int) ≤ cursor.place.depth) :
    nested tokens body cursor = fail tokens .nestedTooDeeply cursor := by
  simp only [nested, bind_apply, descend, if_pos h]
  rfl

theorem nested_of_lt (h : cursor.place.depth < maxDepth) :
    nested tokens body cursor
      = (body (cursor.goTo ⟨cursor.place.index, cursor.place.depth + 1⟩)).andThen fun result =>
          (do ascend; return result : Run Node) := by
  simp only [nested, bind_apply, descend, if_neg (Int.not_le.2 h), Ending.andThen_done]

end Steps

section Phrases

variable (scope : Scope) (tokens : List Token)

/-- A name that is not called, with the edit that it makes. -/
def reference (name : String) (span : Span) : Run Node := fun cursor =>
  let phrase := LengthFormula.reference scope name span
  .done ⟨phrase.term, phrase.height⟩ { cursor with edits := cursor.edits ++ phrase.edits }

/-- Joins operands to the node on their left as long as an operator of the chain follows. -/
def chainFrom (operator? : TokenKind → Option BinaryOp) (operand : Run Node) :
    (fuel : Nat) → Node → Run Node
  | 0, _ => fun _ => .exhausted
  | fuel + 1, left => do
    match operator? (← current tokens).kind with
    | none => return left
    | some op =>
      advance tokens
      let right ← operand
      let joined ← node tokens (.binary op left.term right.term) (max left.height right.height + 1)
      chainFrom operator? operand fuel joined

/-- Operands joined by operators, grouped from the left. -/
def chain (operator? : TokenKind → Option BinaryOp) (operand : Run Node) (fuel : Nat) :
    Run Node := do
  let first ← operand
  chainFrom tokens operator? operand fuel first

/-- The arguments of a call and the parenthesis that closes it. -/
def call (name : String) (argument : Run Node) : Run Node :=
  if name = Builtin.randomName then do
    expect tokens .rightParen
    return ⟨.random, 1⟩
  else if (Builtin.unary? name).isSome then do
    let inner ← argument
    expect tokens .rightParen
    node tokens (.call name inner.term) (inner.height + 1)
  else if (Builtin.binary? name).isSome then do
    let first ← argument
    expect tokens .comma
    let second ← argument
    expect tokens .rightParen
    node tokens (.call2 name first.term second.term) (max first.height second.height + 1)
  else fail tokens (.unknownFunction name)

/-- An atom; `sum` parses the sum one level down. -/
def atom (sum : Run Node) : Run Node := do
  let token ← current tokens
  match token.kind with
  | .number value =>
    advance tokens
    return ⟨.number value, 1⟩
  | .name name =>
    advance tokens
    if (← current tokens).kind = .leftParen then
      advance tokens
      nested tokens (call tokens name sum)
    else reference scope name token.span
  | .minus =>
    advance tokens
    let operand ← nested tokens sum
    node tokens (.negate operand.term) (operand.height + 1)
  | .plus =>
    advance tokens
    nested tokens sum
  | .leftParen =>
    advance tokens
    nested tokens do
      let inner ← sum
      expect tokens .rightParen
      return inner
  | .finish => fail tokens .missingOperand
  | other => fail tokens (.unexpectedToken other)

/-- The phrases of a rank over sums that are parsed by `sum`. -/
def phrase (sum : Run Node) (fuel : Nat) : Rank → Run Node
  | .chain .sum =>
    chain tokens sumOperator? (chain tokens productOperator?
      (chain tokens powerOperator? (atom scope tokens sum) fuel) fuel) fuel
  | .chain .product =>
    chain tokens productOperator? (chain tokens powerOperator? (atom scope tokens sum) fuel) fuel
  | .chain .power => chain tokens powerOperator? (atom scope tokens sum) fuel
  | .atom => atom scope tokens sum

/-- A sum. -/
def sum : (fuel : Nat) → Run Node
  | 0 => fun _ => .exhausted
  | fuel + 1 => phrase scope tokens (sum fuel) fuel (.chain .sum)

/-- The whole token list as one sum. -/
def whole (fuel : Nat) : Run Node := do
  let result ← sum scope tokens fuel
  if (← current tokens).kind = .finish then return result else fail tokens .leftover

end Phrases

end Run

/-- What a whole run gives, with the places that it has come through; `none` if it lacked fuel. -/
def Ending.parsed : Ending Node → Option (Except ParseError Phrase × List Place)
  | .done node c => some (.ok ⟨node.term, node.height, c.edits⟩, c.passed)
  | .failed error c => some (.error error, c.passed)
  | .exhausted => none

end LengthFormula
