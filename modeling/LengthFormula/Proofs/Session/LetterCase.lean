import LengthFormula.Proofs.Formula.LetterCase
import LengthFormula.Proofs.Session.Use

/-!
# Sessions in either letter case

Every function `toLower` here puts into small letters what came in as a formula or as a name: in an
action, in what a session keeps of it, and in what an error quotes of it.  Display names are not
touched.  A step in small letters does what the step itself does (`InUse.step_toLower`), so two
rows of steps that differ at most in the case of letters are told apart by nothing but the texts
they are shown (`Session.history_congr_letterCase`).
-/

namespace LengthFormula

/-! ## Names -/

theorem isIdentifier_toLower (name : String) : isIdentifier name.toLower = isIdentifier name := by
  rw [isIdentifier, isIdentifier, toList_toLower]
  cases name.toList with
  | nil => rfl
  | cons c cs =>
    have hall := letterBlind_isWord.all_map (c :: cs)
    rw [List.map_cons] at hall
    simp only [List.map_cons, letterBlind_isDigit c, hall]

namespace SessionError

/-- The error with what it quotes in small letters. -/
def toLower : SessionError → SessionError
  | invalidName name => invalidName name.toLower
  | reservedName name => reservedName name.toLower
  | duplicateName name => duplicateName name.toLower
  | invalidText error => invalidText error.toLower

theorem toLower_toLower (e : SessionError) : e.toLower.toLower = e.toLower := by
  cases e with
  | invalidName name => exact congrArg invalidName (LengthFormula.toLower_toLower name)
  | reservedName name => exact congrArg reservedName (LengthFormula.toLower_toLower name)
  | duplicateName name => exact congrArg duplicateName (LengthFormula.toLower_toLower name)
  | invalidText error => exact congrArg invalidText error.toLower_toLower

end SessionError

theorem checkIdentifier_toLower (name : String) :
    checkIdentifier name.toLower = (checkIdentifier name).mapError SessionError.toLower := by
  rw [checkIdentifier, checkIdentifier, isIdentifier_toLower, lowerCase_toLower]
  split
  · rfl
  · split <;> rfl

namespace Scope

variable (scope : Scope) (name : String)

theorem declare_toLower (value : Float) :
    scope.declare name.toLower value = scope.declare name value := by
  rw [declare, declare, lowerCase_toLower]

theorem markFixed_toLower : scope.markFixed name.toLower = scope.markFixed name := by
  rw [markFixed, markFixed, lowerCase_toLower]

theorem rename_toLower (display : String) :
    scope.rename name.toLower display = scope.rename name display := by
  rw [rename, rename, lowerCase_toLower]

theorem contains_toLower : scope.contains name.toLower = scope.contains name := by
  rw [contains, contains, lowerCase_toLower]

end Scope

namespace Session

/-! ## Sessions and steps in small letters -/

/-- The session with its texts and its own name in small letters. -/
def toLower (s : Session) : Session :=
  { s with
    name := s.name.map String.toLower
    source := s.source.toLower
    translated := s.translated.toLower }

/-- The action with its text or the name it is about in small letters; a display name stays. -/
def Action.toLower : Action → Action
  | setName name => setName name.toLower
  | declare name value => declare name.toLower value
  | declareFixed name value => declareFixed name.toLower value
  | rename name display => rename name.toLower display
  | setStrict strict => setStrict strict
  | setText text => setText text.toLower

def Step.toLower : Step → Step
  | act a => act a.toLower
  | evaluate => evaluate

/-- The answer with what an error quotes in small letters. -/
def Response.toLower : Response → Response
  | acted result => acted (result.mapError SessionError.toLower)
  | evaluated result => evaluated result

theorem toLower_toLower (s : Session) : s.toLower.toLower = s.toLower := by
  obtain ⟨name, source, translated, term, scope, strict⟩ := s
  cases name <;> simp [toLower, LengthFormula.toLower_toLower]

/-! ## Changes -/

section Changes

variable (s : Session) (name : String) (value : Float)

/-- The changed session, or the error, in small letters. -/
def lowerChange : Except SessionError Session → Except SessionError Session
  | .ok changed => .ok changed.toLower
  | .error e => .error e.toLower

theorem isOwnName_toLower : s.toLower.isOwnName name.toLower = s.isOwnName name := by
  rw [isOwnName, isOwnName, toLower, Option.any_map]
  simp only [lowerCase_toLower]

theorem setName_toLower : s.toLower.setName name.toLower = lowerChange (s.setName name) := by
  rw [setName, setName, checkIdentifier_toLower]
  cases checkIdentifier name with
  | error e => rfl
  | ok u =>
    simp only [mapError_ok, toLower, Scope.contains_toLower]
    split <;> rfl

theorem declare_toLower :
    s.toLower.declare name.toLower value = lowerChange (s.declare name value) := by
  rw [declare, declare, checkIdentifier_toLower, isOwnName_toLower]
  cases checkIdentifier name with
  | error e => rfl
  | ok u =>
    simp only [mapError_ok, toLower, Scope.declare_toLower]
    split <;> rfl

theorem declareFixed_toLower :
    s.toLower.declareFixed name.toLower value = lowerChange (s.declareFixed name value) := by
  rw [declareFixed, declareFixed, declare_toLower]
  cases s.declare name value with
  | error e => rfl
  | ok changed => simp only [lowerChange, toLower, Scope.markFixed_toLower]

theorem kept_toLower (result : Except SessionError Session) :
    s.toLower.kept (lowerChange result) = (s.kept result).toLower := by
  cases result <;> rfl

theorem verdict_lowerChange (result : Except SessionError Session) :
    ((lowerChange result).map fun _ => ()).mapError SessionError.toLower
      = (result.map fun _ => ()).mapError SessionError.toLower := by
  cases result with
  | ok changed => rfl
  | error e => exact congrArg Except.error e.toLower_toLower

theorem rename_toLower (display : String) :
    s.toLower.rename name.toLower display = (s.rename name display).toLower := by
  rw [rename, Scope.rename_toLower]
  rfl

end Changes

section Converter

variable {convert : Converter} (h : convert.IgnoresCase) (s : Session)

include h

/-- Setting a text in small letters leaves the same session, apart from letter case, and has the
same verdict. -/
theorem setText_toLower (text : String) :
    (s.toLower.setText convert text.toLower).1.toLower = (s.setText convert text).1.toLower ∧
      (s.toLower.setText convert text.toLower).2.mapError SessionError.toLower
        = (s.setText convert text).2.mapError SessionError.toLower := by
  have hname : (s.name.map String.toLower).map String.toLower = s.name.map String.toLower :=
    congrArg Session.name s.toLower_toLower
  have hscope : s.toLower.scope = s.scope := rfl
  rcases Formula.parse_toLower h s.scope text with
    ⟨f, g, hf, hg, hterm, htranslated⟩ | ⟨e, d, he, hd, hsame⟩
  · rw [setText, setText, hscope, hf, hg]
    refine ⟨?_, rfl⟩
    simp only [toLower, hname, LengthFormula.toLower_toLower, hterm, htranslated]
  · rw [setText, setText, hscope, he, hd]
    refine ⟨?_, congrArg (Except.error ∘ SessionError.invalidText) hsame⟩
    simp only [toLower, hname, LengthFormula.toLower_toLower]

/-- An action in small letters leaves the same session, apart from letter case. -/
theorem act_toLower (a : Action) :
    (s.toLower.act convert a.toLower).toLower = (s.act convert a).toLower := by
  cases a with
  | setName name => rw [Action.toLower, act, setName_toLower, kept_toLower, toLower_toLower, act]
  | declare name value =>
    rw [Action.toLower, act, declare_toLower, kept_toLower, toLower_toLower, act]
  | declareFixed name value =>
    rw [Action.toLower, act, declareFixed_toLower, kept_toLower, toLower_toLower, act]
  | rename name display => rw [Action.toLower, act, rename_toLower, toLower_toLower, act]
  | setStrict strict => exact (s.setStrict strict).toLower_toLower
  | setText text => exact (setText_toLower h s text).1

theorem verdict_toLower (a : Action) :
    (s.toLower.verdict convert a.toLower).mapError SessionError.toLower
      = (s.verdict convert a).mapError SessionError.toLower := by
  cases a with
  | setName name =>
    rw [Action.toLower, verdict, setName_toLower, verdict_lowerChange, verdict]
  | declare name value =>
    rw [Action.toLower, verdict, declare_toLower, verdict_lowerChange, verdict]
  | declareFixed name value =>
    rw [Action.toLower, verdict, declareFixed_toLower, verdict_lowerChange, verdict]
  | rename name display => rfl
  | setStrict strict => rfl
  | setText text => exact (setText_toLower h s text).2

end Converter

/-! ## Sessions in use -/

def InUse.toLower (u : InUse) : InUse := ⟨u.session.toLower, u.draws⟩

/-- The answer to a step and the session behind it in small letters. -/
def lowerEntry (entry : Response × InUse) : Response × InUse :=
  (entry.1.toLower, entry.2.toLower)

/-- Two answers, each with the session behind its step, agree in all but the letter case of what
they quote of formulas and names. -/
structure Alike (a b : Response × InUse) : Prop where
  /-- Both steps succeed with the same value, or they fail for the same cause. -/
  response_eq : a.1.toLower = b.1.toLower
  draws_eq : a.2.draws = b.2.draws
  term_eq : a.2.session.term = b.2.session.term
  scope_eq : a.2.session.scope = b.2.session.scope
  variables_eq : ∀ names,
    a.2.session.collectVariables names = b.2.session.collectVariables names
  evaluate_eq : ∀ draws, a.2.session.evaluate draws = b.2.session.evaluate draws
  translated_eq : a.2.session.translated.toLower = b.2.session.translated.toLower

theorem alike_of_lowerEntry_eq {a b : Response × InUse} (h : lowerEntry a = lowerEntry b) :
    Alike a b := by
  obtain ⟨hresponse, huse⟩ := Prod.mk.inj h
  obtain ⟨hsession, hdraws⟩ := InUse.mk.inj huse
  obtain ⟨-, -, htranslated, hterm, hscope, hstrict⟩ := Session.mk.inj hsession
  refine ⟨hresponse, hdraws, hterm, hscope, fun names => ?_, fun draws => ?_, htranslated⟩
  · rw [collectVariables, collectVariables, hterm]
  · rw [evaluate, evaluate, hterm, hscope, hstrict]

section History

variable {convert : Converter} (h : convert.IgnoresCase)

include h

/-- A step in small letters does what the step does. -/
theorem InUse.step_toLower (u : InUse) (step : Step) :
    lowerEntry (u.toLower.step convert step.toLower) = lowerEntry (u.step convert step) := by
  cases step with
  | act a =>
    refine Prod.ext (congrArg Response.acted (verdict_toLower h u.session a)) ?_
    exact congrArg (InUse.mk · u.draws) (act_toLower h u.session a)
  | evaluate =>
    exact Prod.ext rfl (congrArg (InUse.mk · _) u.session.toLower_toLower)

theorem InUse.step_congr {u v : InUse} {step other : Step} (huse : u.toLower = v.toLower)
    (hstep : step.toLower = other.toLower) :
    lowerEntry (u.step convert step) = lowerEntry (v.step convert other) := by
  rw [← step_toLower h, huse, hstep, step_toLower h]

theorem InUse.history_congr {u v : InUse} {steps others : List Step} (huse : u.toLower = v.toLower)
    (hsteps : steps.map Step.toLower = others.map Step.toLower) :
    List.Forall₂ Alike (u.history convert steps) (v.history convert others) := by
  induction steps generalizing u v others with
  | nil =>
    cases List.map_eq_nil_iff.1 hsteps.symm
    exact .nil
  | cons step steps ih =>
    obtain ⟨other, others, rfl, hstep, hrest⟩ := List.map_eq_cons_iff.1 hsteps.symm
    have hentry := step_congr h huse hstep.symm
    exact .cons (alike_of_lowerEntry_eq hentry) (ih (Prod.mk.inj hentry).2 hrest.symm)

end History

/-- Letter case does not matter.  Two rows of steps that differ at most in the case of letters of
ASCII in formulas and in the names that variables and the formula have, but not in display names,
have like answers and sessions from step to step. -/
theorem history_congr_letterCase {steps others : List Step}
    (h : steps.map Step.toLower = others.map Step.toLower) (u : InUse) :
    List.Forall₂ Alike (u.history readLength? steps) (u.history readLength? others) :=
  InUse.history_congr readLength?_map rfl h

/-- `2E1*Width` with a variable declared as `WIDTH` is the formula `2e1*width`. -/
theorem history_congr_letterCase_width :
    (run readLength? [.declare "WIDTH" 1.5, .setText "2E1*Width"]).term
      = some (.binary .mul (.number 20) (.var "width")) := by
  have hname : "WIDTH".toLower = "width".toLower := toLower_eq_toLower_iff.2 (by decide +kernel)
  have htext : "2E1*Width".toLower = "2e1*width".toLower :=
    toLower_eq_toLower_iff.2 (by decide +kernel)
  have hsteps : [Step.act (.declare "WIDTH" 1.5), .act (.setText "2E1*Width")].map Step.toLower
      = [Step.act (.declare "width" 1.5), .act (.setText "2e1*width")].map Step.toLower := by
    simp only [List.map_cons, List.map_nil, Step.toLower, Action.toLower, hname, htext]
  have hterm : (run readLength? [.declare "width" 1.5, .setText "2e1*width"]).term
      = some (.binary .mul (.number 20) (.var "width")) := by decide +kernel
  have hrun : ∀ a b, run readLength? [a, b] = (initial.act readLength? a).act readLength? b :=
    fun _ _ => rfl
  have halike := history_congr_letterCase hsteps ⟨initial, Draws.cycle []⟩
  simp only [InUse.history, InUse.step_act, List.forall₂_cons] at halike
  rw [hrun] at hterm ⊢
  exact halike.2.1.term_eq.trans hterm

end Session

end LengthFormula
