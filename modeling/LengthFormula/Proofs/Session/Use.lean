import LengthFormula.Proofs.Session.Consistency
import LengthFormula.Proofs.Term.Dependence

/-!
# Sessions in use

A session is used in steps: an action asks for a change, and an evaluation asks for the value of the
formula and may take draws.  `InUse.history` lists what each step of a row answers and the session
that it leaves.  As long as no text is set, a constant formula answers every evaluation alike and
takes no draw (`Session.history_of_isConstant`).
-/

namespace LengthFormula.Session

/-- A step in the use of a session. -/
inductive Step where
  | act (a : Action)
  | evaluate
  deriving DecidableEq, Repr

/-- What a step answers. -/
inductive Response where
  /-- The action is carried out, or refused. -/
  | acted (result : Except SessionError Unit)
  | evaluated (result : Except EvalError Float)

/-- Whether an action is carried out, and if it is not, why. -/
def verdict (convert : Converter) (s : Session) : Action → Except SessionError Unit
  | .setName name => (s.setName name).map fun _ => ()
  | .declare name value => (s.declare name value).map fun _ => ()
  | .declareFixed name value => (s.declareFixed name value).map fun _ => ()
  | .rename _ _ | .setStrict _ => .ok ()
  | .setText text => (s.setText convert text).2

/-- A session with the draws that are left for it. -/
structure InUse where
  session : Session
  draws : Draws

namespace InUse

/-- What a step answers, and the session behind it. -/
def step (convert : Converter) (u : InUse) : Step → Response × InUse
  | .act a =>
    (.acted (u.session.verdict convert a), { u with session := u.session.act convert a })
  | .evaluate =>
    let (result, draws) := u.session.evaluate u.draws
    (.evaluated result, { u with draws := draws })

theorem step_act (convert : Converter) (u : InUse) (a : Action) :
    u.step convert (.act a)
      = (.acted (u.session.verdict convert a), ⟨u.session.act convert a, u.draws⟩) := rfl

theorem step_evaluate (convert : Converter) (u : InUse) :
    u.step convert .evaluate
      = (.evaluated (u.session.evaluate u.draws).1, ⟨u.session, (u.session.evaluate u.draws).2⟩) :=
  rfl

/-- The answers to a row of steps, each with the session behind its step. -/
def history (convert : Converter) : InUse → List Step → List (Response × InUse)
  | _, [] => []
  | u, step :: steps => u.step convert step :: history convert (u.step convert step).2 steps

end InUse

/-! ## Constant formulas -/

section Constant

variable {convert : Converter} {term : Option Term} {result : Except EvalError Float}

/-- Whatever session holds the term, its evaluations give this result and take no draw. -/
def Answers (term : Option Term) (result : Except EvalError Float) : Prop :=
  ∀ (s : Session) (draws : Draws), s.term = term → s.evaluate draws = (result, draws)

/-- A constant formula has one answer to all evaluations.  Without a formula there is one, too. -/
theorem exists_answers_of_isConstant {s : Session} (h : s.isConstant = true) :
    ∃ result, Answers s.term result := by
  rw [isConstant] at h
  cases hterm : s.term with
  | none => exact ⟨.error .noFormula, fun other draws hother => by rw [evaluate, hother]⟩
  | some t =>
    rw [hterm] at h
    obtain ⟨result, hresult⟩ := Term.exists_result_of_isConstant h
    exact ⟨result, fun other draws hother => by rw [evaluate, hother, ← hresult]⟩

/-- A step that sets no text keeps the term, and takes a draw or answers an evaluation only as the
term does. -/
theorem step_of_answers (convert : Converter) (hanswers : Answers term result) {u : InUse}
    (hterm : u.session.term = term) (step : Step)
    (hstep : ∀ a, step = .act a → a.setsText = false) :
    (u.step convert step).2.session.term = term ∧ (u.step convert step).2.draws = u.draws ∧
      ∀ r, (u.step convert step).1 = .evaluated r → r = result := by
  cases step with
  | act a =>
    have hsame : (u.session.act convert a).SameFormula u.session := sameFormula_act (hstep a rfl)
    exact ⟨hsame.2.2.trans hterm, rfl, fun r hr => nomatch hr⟩
  | evaluate =>
    rw [InUse.step_evaluate, hanswers u.session u.draws hterm]
    exact ⟨hterm, rfl, fun r hr => (Response.evaluated.inj hr).symm⟩

theorem history_of_answers (hanswers : Answers term result) {u : InUse}
    (hterm : u.session.term = term) {steps : List Step}
    (hsteps : ∀ a, .act a ∈ steps → a.setsText = false) :
    ∀ entry ∈ u.history convert steps, entry.2.draws = u.draws ∧
      ∀ r, entry.1 = .evaluated r → r = result := by
  induction steps generalizing u with
  | nil => exact fun _ hentry => nomatch hentry
  | cons step steps ih =>
    obtain ⟨hkept, hdraws, hfirst⟩ := step_of_answers convert hanswers hterm step
      fun a ha => hsteps a (ha ▸ List.mem_cons_self)
    have hlater := ih hkept fun a ha => hsteps a (List.mem_cons_of_mem _ ha)
    rw [hdraws] at hlater
    exact List.forall_mem_cons.2 ⟨⟨hdraws, hfirst⟩, hlater⟩

/-- Once a formula is constant it stays so until a text is set: whatever is declared, fixed, renamed
or named in between, carried out or refused, and however look-ups go, every evaluation answers what
the first one would, whatever its draws were, and takes no draw.  A constant term has one value, or
one error, for all scopes, ways to look up and draws. -/
theorem history_of_isConstant :
    (∀ (convert : Converter) (s : Session), s.isConstant = true →
      ∀ (draws : Draws) (steps : List Step), (∀ a, .act a ∈ steps → a.setsText = false) →
        ∀ entry ∈ InUse.history convert ⟨s, draws⟩ steps, entry.2.draws = draws ∧
          ∀ result, entry.1 = .evaluated result →
            ∀ others, s.evaluate others = (result, others)) ∧
      ∀ t : Term, t.isConstant = true →
        ∃ result, ∀ scope strict draws, t.eval scope strict draws = (result, draws) := by
  refine ⟨?_, fun t => Term.exists_result_of_isConstant⟩
  intro convert s h draws steps hsteps entry hentry
  obtain ⟨result, hanswers⟩ := exists_answers_of_isConstant h
  obtain ⟨hdraws, hresult⟩ := history_of_answers hanswers rfl hsteps entry hentry
  refine ⟨hdraws, fun r hr others => ?_⟩
  rw [hresult r hr]
  exact hanswers s others rfl

/-- The remainder `7%0` is constant.  It does not exist, for other draws no more than behind a
declaration of `x` and a change to strict look-ups. -/
theorem history_of_isConstant_remainder :
    (run readLength? [.setText "7%0"]).evaluate (Draws.cycle [0.5])
      = (.error (.invalidModulo 7 0), Draws.cycle [0.5]) := by
  have hconstant : (run readLength? [.setText "7%0"]).isConstant = true := by decide +kernel
  have hsteps : ∀ a, .act a ∈ [Step.act (.declare "x" 1.0), .act (.setStrict true), .evaluate] →
      a.setsText = false := by simp [Action.setsText]
  have hvalue : (evaluate (((run readLength? [.setText "7%0"]).act readLength?
      (.declare "x" 1.0)).act readLength? (.setStrict true)) (Draws.cycle [])).1
        = .error (.invalidModulo 7 0) := by decide +kernel
  have hentry := history_of_isConstant.1 readLength? _ hconstant (Draws.cycle []) _ hsteps _
    (.tail _ (.tail _ (.head _)))
  rw [InUse.step_evaluate] at hentry
  exact hentry.2 _ (congrArg Response.evaluated hvalue) (Draws.cycle [0.5])

end Constant

end LengthFormula.Session
