import LengthFormula.Proofs.Scope.Shown
import LengthFormula.Proofs.Session.Consistency
import LengthFormula.Proofs.Session.Refusal

/-!
# Sessions that answer frames

`Session.serve` is the session that a row of frames leads to.  A frame carries out at most one
action (`Session.perform_session`), so the sessions of frames are consistent, and since no frame can
write an infinity, their values are finite (`Session.Showable.serve`).  Their variables stand in the
order in which the frames declare them (`Session.names_serve`).
-/

namespace LengthFormula

/-! ## What frames ask for -/

namespace Command

/-- The change that a command asks of a session, if it asks for one. -/
def action? : Command → Option Session.Action
  | setName name => some (.setName name)
  | setText text => some (.setText text)
  | declare name value fixed =>
    some (if fixed then .declareFixed name value else .declare name value)
  | rename name display => some (.rename name display)
  | setStrict strict => some (.setStrict strict)
  | evaluate | showVariables | showFormula => none

/-- The value of a declaration is finite. -/
def HoldsFinite : Command → Prop
  | declare _ value _ => Double.isFinite value = true
  | _ => True

/-- A number beyond the doubles is no value of a declaration. -/
theorem holdsFinite_of_readDeclaration? {payload : String} {command : Command}
    (h : readDeclaration? payload = some command) : command.HoldsFinite := by
  unfold readDeclaration? at h
  split at h
  · next value _ _ =>
    split at h <;> cases h
    next hvalue _ =>
    cases value with
    | number text =>
      rw [Json.asDouble?, Option.filter_eq_some_iff] at hvalue
      exact hvalue.2
    | _ => cases hvalue
  · cases h

theorem holdsFinite_of_ofFrame {frame : String} {command : Command}
    (h : ofFrame frame = .ok command) : command.HoldsFinite := by
  unfold ofFrame at h
  simp only at h
  split at h
  case h_3 =>
    split at h <;> cases h
    next hread => exact holdsFinite_of_readDeclaration? hread
  case h_4 =>
    split at h <;> cases h
    next hread =>
    obtain ⟨name, display, rfl⟩ := exists_of_readRename? hread
    trivial
  case h_5 =>
    split at h <;> cases h
    next hread =>
    obtain ⟨strict, rfl⟩ := exists_of_readStrictness? hread
    trivial
  case h_9 => cases h
  all_goals
    cases h
    trivial

end Command

/-! ## Names in the order of their declaration -/

namespace Session

/-- The name of a declaration, if the session takes it. -/
def declares (s : Session) (name : String) (value : Float) : List String :=
  match s.declare name value with
  | .ok _ => [lowerCase name]
  | .error _ => []

/-- The name that a frame declares, if it declares one. -/
def declaredBy (s : Session) (frame : String) : List String :=
  match Command.ofFrame frame with
  | .ok (.declare name value _) => s.declares name value
  | _ => []

/-- The session that a row of frames leads to, and the draws that are left. -/
def serve (s : Session) (draws : Draws) : List String → Session × Draws
  | [] => (s, draws)
  | frame :: frames => (s.handle draws frame).session.serve (s.handle draws frame).draws frames

/-- The names that a row of frames declares, one after the other. -/
def declaredIn (s : Session) (draws : Draws) : List String → List String
  | [] => []
  | frame :: frames =>
    s.declaredBy frame
      ++ (s.handle draws frame).session.declaredIn (s.handle draws frame).draws frames

/-- Replies about the session leave nothing out: its names keep apart, and its values are finite. -/
structure Showable (s : Session) : Prop where
  consistent : s.Consistent
  finite : s.scope.HoldsFinite

section Steps

variable {s : Session} {draws : Draws} {command : Command} {frame : String}

/-- A command carries out the action that it asks for, or changes nothing. -/
theorem perform_session (s : Session) (draws : Draws) (command : Command) :
    (s.perform draws command).session = (command.action?.map (s.act readLength?)).getD s := by
  cases command with
  | setName name => cases h : s.setName name <;> simp [perform, Command.action?, act, kept, h]
  | setText text =>
    cases h : Formula.parse s.scope readLength? text <;>
      simp [perform, Command.action?, act, setText, h]
  | declare name value fixed =>
    cases fixed with
    | false => cases h : s.declare name value <;> simp [perform, Command.action?, act, kept, h]
    | true => cases h : s.declareFixed name value <;> simp [perform, Command.action?, act, kept, h]
  | rename name display => rfl
  | setStrict strict => rfl
  | evaluate | showVariables | showFormula => exact perform_session_of_word (by simp [Command.word])

theorem handle_of_ok (h : Command.ofFrame frame = .ok command) :
    s.handle draws frame = s.perform draws command := by
  rw [handle, h]

theorem handle_session_of_error {fault : CommandFault} (h : Command.ofFrame frame = .error fault) :
    (s.handle draws frame).session = s := by
  rw [handle, h]

/-! ## One frame -/

theorem consistent_handle (h : s.Consistent) (draws : Draws) (frame : String) :
    (s.handle draws frame).session.Consistent := by
  cases hframe : Command.ofFrame frame with
  | error fault => rwa [handle_session_of_error hframe]
  | ok command =>
    rw [handle_of_ok hframe, perform_session]
    cases command.action? with
    | none => exact h
    | some a => exact h.act readLength? a

/-- A command with finite values leaves a session with finite values. -/
theorem holdsFinite_perform (h : s.scope.HoldsFinite) (hcommand : command.HoldsFinite)
    (draws : Draws) : (s.perform draws command).session.scope.HoldsFinite := by
  rw [perform_session]
  cases command with
  | setName name =>
    refine kept_of (p := fun s => s.scope.HoldsFinite) h fun changed hchanged => ?_
    obtain ⟨-, -, rfl⟩ := setName_eq_ok_iff.1 hchanged
    exact h
  | setText text =>
    show (s.setText readLength? text).1.scope.HoldsFinite
    rwa [setText_scope]
  | declare name value fixed =>
    cases fixed with
    | false =>
      refine kept_of (p := fun s => s.scope.HoldsFinite) h fun changed hchanged => ?_
      obtain ⟨-, -, rfl⟩ := declare_eq_ok_iff.1 hchanged
      exact h.declare name hcommand
    | true =>
      refine kept_of (p := fun s => s.scope.HoldsFinite) h fun changed hchanged => ?_
      obtain ⟨-, -, rfl⟩ := declareFixed_eq_ok_iff.1 hchanged
      exact (h.declare name hcommand).markFixed name
  | rename name display => exact h
  | setStrict strict => exact h
  | evaluate | showVariables | showFormula => exact h

theorem Showable.handle (h : s.Showable) (draws : Draws) (frame : String) :
    (s.handle draws frame).session.Showable := by
  refine ⟨consistent_handle h.consistent draws frame, ?_⟩
  cases hframe : Command.ofFrame frame with
  | error fault =>
    rw [handle_session_of_error hframe]
    exact h.finite
  | ok command =>
    rw [handle_of_ok hframe]
    exact holdsFinite_perform h.finite (Command.holdsFinite_of_ofFrame hframe) draws

theorem names_declare (h : s.Consistent) (name : String) (value : Float) :
    (s.kept (s.declare name value)).scope.names
      = (s.declares name value).foldl listed s.scope.names := by
  rw [declares]
  cases hdeclare : s.declare name value with
  | error e => rfl
  | ok changed =>
    obtain ⟨-, -, rfl⟩ := declare_eq_ok_iff.1 hdeclare
    exact h.scope.names_declare name value

theorem names_declareFixed (s : Session) (name : String) (value : Float) :
    (s.kept (s.declareFixed name value)).scope.names
      = (s.kept (s.declare name value)).scope.names := by
  rw [declareFixed]
  cases s.declare name value <;> rfl

/-- A frame puts the name that it declares behind the others. -/
theorem names_handle (h : s.Consistent) (draws : Draws) (frame : String) :
    (s.handle draws frame).session.scope.names
      = (s.declaredBy frame).foldl listed s.scope.names := by
  rw [declaredBy]
  cases hframe : Command.ofFrame frame with
  | error fault => rw [handle_session_of_error hframe, List.foldl_nil]
  | ok command =>
    rw [handle_of_ok hframe, perform_session]
    cases command with
    | setName name =>
      refine kept_of (p := fun t => t.scope.names = s.scope.names) rfl fun changed hchanged => ?_
      obtain ⟨-, -, rfl⟩ := setName_eq_ok_iff.1 hchanged
      rfl
    | setText text => exact congrArg Scope.names (setText_scope _ _ _)
    | declare name value fixed =>
      cases fixed with
      | false => exact names_declare h name value
      | true => exact (names_declareFixed s name value).trans (names_declare h name value)
    | rename name display => rfl
    | setStrict strict => rfl
    | evaluate | showVariables | showFormula => rfl

end Steps

/-! ## Rows of frames -/

section Rows

variable {s : Session}

theorem serve_concat (s : Session) (draws : Draws) (frames : List String) (frame : String) :
    (s.serve draws (frames ++ [frame])).1
      = ((s.serve draws frames).1.handle (s.serve draws frames).2 frame).session := by
  induction frames generalizing s draws with
  | nil => rfl
  | cons first frames ih => exact ih _ _

/-- After any frames, replies about the session leave nothing out. -/
theorem Showable.serve (h : s.Showable) (draws : Draws) (frames : List String) :
    (s.serve draws frames).1.Showable := by
  induction frames generalizing s draws with
  | nil => exact h
  | cons frame frames ih => exact ih (h.handle draws frame) _

/-- After any frames, the new variables stand behind the old ones in the order in which the frames
declare them, each at its first declaration. -/
theorem names_serve (h : s.Consistent) (draws : Draws) (frames : List String) :
    (s.serve draws frames).1.scope.names
      = (s.declaredIn draws frames).foldl listed s.scope.names := by
  induction frames generalizing s draws with
  | nil => rfl
  | cons frame frames ih =>
    rw [serve, ih (consistent_handle h draws frame), names_handle h, declaredIn, List.foldl_append]

theorem showable_initial : initial.Showable where
  consistent := consistent_initial
  finite := by
    have hinitial : Scope.initial.HoldsFinite :=
      (Scope.holdsFinite_empty.declare _ (by decide +kernel)).declare _ (by decide +kernel)
    exact hinitial

end Rows

end Session

end LengthFormula
