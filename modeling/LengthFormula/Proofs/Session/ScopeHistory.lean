import LengthFormula.Proofs.Scope.History
import LengthFormula.Proofs.Session.Frames

/-!
# The history of a session's scope

Of all that frames do, only declarations that are carried out and renames change the scope.
`Session.changesIn` lists these changes, so that the scope of a session is what its history made of
it (`Session.scope_serve`), and the term stays as long as no frame sets a text
(`Session.term_serve`).
-/

namespace LengthFormula

/-! ## More changes of a scope -/

namespace Scope

variable {history : List Change} {name : String}

/-- Some change of the history marks the name as fixed. -/
def MarksFixed (history : List Change) (name : String) : Prop :=
  ∃ marked, .markFixed marked ∈ history ∧ lowerCase marked = lowerCase name

theorem marksFixed_cons {c : Change} : MarksFixed (c :: history) name ↔
    (∃ marked, c = .markFixed marked ∧ lowerCase marked = lowerCase name) ∨
      MarksFixed history name := by
  simp only [MarksFixed, List.mem_cons, or_and_right, exists_or, eq_comm]

/-- Marks are only ever added. -/
theorem isFixed_foldl (scope : Scope) (history : List Change) (name : String) :
    (history.foldl apply scope).isFixed name = true ↔
      scope.isFixed name = true ∨ MarksFixed history name := by
  induction history generalizing scope with
  | nil => simp [MarksFixed]
  | cons c history ih =>
    rw [List.foldl_cons, ih, isFixed_apply, marksFixed_cons, ← or_assoc,
      or_comm (a := scope.isFixed name = true)]

/-- A value stays until its name is declared again. -/
theorem value?_foldl {scope : Scope} (h : lowerCase name ∉ declaredKeys history) :
    (history.foldl apply scope).value? name = scope.value? name := by
  induction history generalizing scope with
  | nil => rfl
  | cons c history ih =>
    have hlater : lowerCase name ∉ declaredKeys history := by
      intro hmem
      refine h ?_
      rw [declaredKeys] at hmem ⊢
      exact List.mem_filterMap.2 ((List.mem_filterMap.1 hmem).imp fun _ hc =>
        ⟨List.mem_cons_of_mem c hc.1, hc.2⟩)
    rw [List.foldl_cons, ih hlater, value?_apply]
    cases c with
    | declare declared value =>
      have hne : lowerCase declared ≠ lowerCase name := by
        intro heq
        exact h (heq ▸ List.mem_cons_self)
      rw [Change.valueOf?, if_neg hne, Option.none_or]
    | markFixed | rename => rfl

end Scope

namespace Session

/-! ## The changes that frames carry out -/

/-- The changes of the scope that a command makes. -/
def changesOf (s : Session) : Command → List Scope.Change
  | .declare name value fixed =>
    match s.declare name value with
    | .ok _ => .declare name value :: if fixed then [.markFixed name] else []
    | .error _ => []
  | .rename name display => [.rename name display]
  | _ => []

/-- The changes of the scope that a frame makes. -/
def changesBy (s : Session) (frame : String) : List Scope.Change :=
  match Command.ofFrame frame with
  | .ok command => s.changesOf command
  | .error _ => []

/-- The changes of the scope that a row of frames makes, one after the other. -/
def changesIn (s : Session) (draws : Draws) : List String → List Scope.Change
  | [] => []
  | frame :: frames =>
    s.changesBy frame
      ++ (s.handle draws frame).session.changesIn (s.handle draws frame).draws frames

section Steps

variable {s : Session} {draws : Draws} {frame : String}

theorem scope_perform (s : Session) (draws : Draws) (command : Command) :
    (s.perform draws command).session.scope = (s.changesOf command).foldl Scope.apply s.scope := by
  rw [perform_session]
  cases command with
  | setName name =>
    refine kept_of (p := fun t => t.scope = s.scope) rfl fun changed hchanged => ?_
    obtain ⟨-, -, rfl⟩ := setName_eq_ok_iff.1 hchanged
    rfl
  | setText text => exact setText_scope _ _ _
  | declare name value fixed =>
    rw [changesOf]
    cases hdeclare : s.declare name value with
    | error e => cases fixed <;> simp [Command.action?, act, kept, declareFixed, hdeclare]
    | ok changed =>
      obtain ⟨-, -, rfl⟩ := declare_eq_ok_iff.1 hdeclare
      cases fixed <;> simp [Command.action?, act, kept, declareFixed, hdeclare, Scope.apply]
  | rename name display => rfl
  | setStrict strict => rfl
  | evaluate | showVariables | showFormula => rfl

theorem scope_handle (s : Session) (draws : Draws) (frame : String) :
    (s.handle draws frame).session.scope = (s.changesBy frame).foldl Scope.apply s.scope := by
  rw [changesBy]
  cases hframe : Command.ofFrame frame with
  | error fault => rw [handle_session_of_error hframe, List.foldl_nil]
  | ok command => rw [handle_of_ok hframe, scope_perform]

/-- A frame that sets no text keeps the term. -/
theorem term_handle (h : ∀ text, Command.ofFrame frame ≠ .ok (.setText text)) (draws : Draws) :
    (s.handle draws frame).session.term = s.term := by
  have hact : ∀ a : Action, a.setsText = false → (s.act readLength? a).term = s.term :=
    fun a ha => (sameFormula_act ha).2.2
  cases hframe : Command.ofFrame frame with
  | error fault => rw [handle_session_of_error hframe]
  | ok command =>
    rw [handle_of_ok hframe, perform_session]
    cases command with
    | setName name => exact hact (.setName name) rfl
    | setText text => exact absurd hframe (h text)
    | declare name value fixed =>
      cases fixed with
      | false => exact hact (.declare name value) rfl
      | true => exact hact (.declareFixed name value) rfl
    | rename name display => exact hact (.rename name display) rfl
    | setStrict strict => exact hact (.setStrict strict) rfl
    | evaluate | showVariables | showFormula => rfl

end Steps

/-! ## Rows of frames -/

/-- The scope behind a row of frames is what their changes make of it. -/
theorem scope_serve (s : Session) (draws : Draws) (frames : List String) :
    (s.serve draws frames).1.scope = (s.changesIn draws frames).foldl Scope.apply s.scope := by
  induction frames generalizing s draws with
  | nil => rfl
  | cons frame frames ih => rw [serve, ih, scope_handle, changesIn, List.foldl_append]

/-- A row of frames that set no text keeps the term. -/
theorem term_serve {s : Session} {draws : Draws} {frames : List String}
    (h : ∀ frame ∈ frames, ∀ text, Command.ofFrame frame ≠ .ok (.setText text)) :
    (s.serve draws frames).1.term = s.term := by
  induction frames generalizing s draws with
  | nil => rfl
  | cons frame frames ih =>
    rw [serve, ih fun f hf => h f (List.mem_cons_of_mem _ hf),
      term_handle (h frame List.mem_cons_self)]

/-- A new session comes to have the scope that the changes make of a new one. -/
theorem scope_serve_initial (draws : Draws) (frames : List String) :
    (initial.serve draws frames).1.scope = Scope.after (initial.changesIn draws frames) :=
  scope_serve initial draws frames

end Session

end LengthFormula
