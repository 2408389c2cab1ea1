import LengthFormula.Session

/-!
# What a session can go through

An action is one request to a session, carried out or refused.  `Session.run` is the session after a
row of actions on a new one.  Each change of a session is inverted once here: when it is carried
out, and what it changes then.
-/

namespace LengthFormula

namespace Session

/-- A request to a session that can change it. -/
inductive Action where
  | setName (name : String)
  | declare (name : String) (value : Float)
  | declareFixed (name : String) (value : Float)
  | rename (name display : String)
  | setStrict (strict : Bool)
  | setText (text : String)
  deriving DecidableEq, Repr

/-- The session after a change, or the old one where the change is refused. -/
def kept (s : Session) : Except SessionError Session → Session
  | .ok changed => changed
  | .error _ => s

/-- The session after an action. -/
def act (convert : Converter) (s : Session) : Action → Session
  | .setName name => s.kept (s.setName name)
  | .declare name value => s.kept (s.declare name value)
  | .declareFixed name value => s.kept (s.declareFixed name value)
  | .rename name display => s.rename name display
  | .setStrict strict => s.setStrict strict
  | .setText text => (s.setText convert text).1

/-- The session after a row of actions on a new one. -/
def run (convert : Converter) (actions : List Action) : Session :=
  actions.foldl (act convert) initial

@[simp]
theorem run_nil (convert : Converter) : run convert [] = initial := rfl

/-- The last action is carried out on the session that the others lead to. -/
@[simp]
theorem run_concat (convert : Converter) (actions : List Action) (a : Action) :
    run convert (actions ++ [a]) = (run convert actions).act convert a := by
  rw [run, List.foldl_append]
  rfl

/-! ## When changes are carried out -/

section Changes

variable {s changed : Session} {name : String} {value : Float}

theorem setName_eq_ok_iff : s.setName name = .ok changed ↔
    checkIdentifier name = .ok () ∧ s.scope.contains name = false ∧
      changed = { s with name := some name } := by
  rw [setName]
  cases checkIdentifier name with
  | error e => simp
  | ok u =>
    cases hcontains : s.scope.contains name with
    | true => simp
    | false => simp [eq_comm]

theorem declare_eq_ok_iff : s.declare name value = .ok changed ↔
    checkIdentifier name = .ok () ∧ s.isOwnName name = false ∧
      changed = { s with scope := s.scope.declare name value } := by
  rw [declare]
  cases checkIdentifier name with
  | error e => simp
  | ok u =>
    cases hown : s.isOwnName name with
    | true => simp
    | false => simp [eq_comm]

/-- A fixed variable is declared and then marked. -/
theorem declareFixed_eq_ok_iff : s.declareFixed name value = .ok changed ↔
    checkIdentifier name = .ok () ∧ s.isOwnName name = false ∧
      changed = { s with scope := (s.scope.declare name value).markFixed name } := by
  rw [declareFixed]
  cases hdeclare : s.declare name value with
  | error e =>
    simp only [reduceCtorEq, false_iff]
    rintro ⟨hcheck, hown, -⟩
    rw [declare_eq_ok_iff.2 ⟨hcheck, hown, rfl⟩] at hdeclare
    cases hdeclare
  | ok declared =>
    obtain ⟨hcheck, hown, rfl⟩ := declare_eq_ok_iff.1 hdeclare
    simp [hcheck, hown, eq_comm]

/-- What holds of a session and of what a change makes of it holds of what is kept. -/
theorem kept_of {p : Session → Prop} {result : Except SessionError Session} (h : p s)
    (hchanged : ∀ changed, result = .ok changed → p changed) : p (s.kept result) := by
  cases result with
  | ok changed => exact hchanged changed rfl
  | error e => exact h

end Changes

end Session

end LengthFormula
