import LengthFormula.Proofs.Formula.WellFormed
import LengthFormula.Proofs.Session.Results
import LengthFormula.Proofs.Session.ScopeHistory
import LengthFormula.Proofs.Term.Substitution

/-!
# How long a fixed mark lasts

A mark stays when its name is declared again without one: after a declaration, a name is shown as
fixed exactly if this declaration or an earlier one has fixed it.  A name without a mark stands as a
variable in every formula that is set until it is fixed, and such a formula reads the name from its
last declaration, without being set again (`Session.declaration_marks`).
-/

namespace LengthFormula

namespace Term

/-- The term with a value in the places of a variable. -/
def withValue (name : String) (value : Float) (t : Term) : Term :=
  t.subst fun leaf => if lowerCase leaf = name then .number value else .var leaf

/-- The term has the name at as many leaves as the name stands bare in the text. -/
def ReadsName (t : Term) (text name : String) : Prop :=
  ∃ ls trail, text.toList = textOf ls trail ∧ Cut readLength? none ls trail ∧
    t.leafNames.count name = (bareNames (ls.map Lexeme.kind)).count name

variable {scope : Scope} {name : String} {value : Float}

theorem eval_withValue (h : scope.value? name = some value) (t : Term) (strict : Bool)
    (draws : Draws) :
    (t.withValue (lowerCase name) value).eval scope strict draws = t.eval scope strict draws := by
  refine eval_subst (fun leaf draws => ?_) t draws
  split
  · next heq =>
    have hleaf : scope.value? leaf = some value := by
      rw [← h, Scope.value?, Scope.value?, heq]
    rw [eval, eval, Scope.lookup, hleaf]
  · rfl

end Term

/-- Where a scope leaves a name open, the term of a formula has it as a variable wherever it is
bare. -/
theorem Formula.readsName_of_parse {scope : Scope} {text name : String} {f : Formula}
    (h : parse scope readLength? text = .ok f) (hopen : scope.LeavesOpen name) :
    f.term.ReadsName text name := by
  obtain ⟨ls, trail, htext, hcut, hderives, -, -⟩ := exists_of_parse h
  have hleaves := hderives.filter_bareNames
  rw [bareNames_append_finish] at hleaves
  refine ⟨ls, trail, htext, hcut, ?_⟩
  have hcount : ((bareNames (ls.map Lexeme.kind)).filter scope.LeavesOpen).count name
      = (bareNames (ls.map Lexeme.kind)).count name :=
    List.count_filter (decide_eq_true hopen)
  rw [← hcount, hleaves]
  exact congrArg (List.count name) (List.append_nil _).symm

namespace Session

section Frames

variable {s : Session} {draws : Draws} {frame name text : String} {value : Float} {fixed : Bool}

/-- A declaration that is not refused shows the variables of the session behind it. -/
theorem exists_declare_of_reply (hframe : Command.ofFrame frame = .ok (.declare name value fixed))
    (h : ¬ (s.handle draws frame).reply.IsError) :
    (∃ changed, s.declare name value = .ok changed) ∧
      (s.handle draws frame).reply = (s.handle draws frame).session.variablesReply := by
  rw [handle_of_ok hframe, perform] at h ⊢
  cases hdeclare : s.declare name value with
  | error e =>
    refine absurd (Reply.isError_iff.2 ⟨.declarationFailed, e.message, ?_⟩) h
    cases fixed <;> simp [declareFixed, hdeclare]
  | ok changed =>
    refine ⟨⟨changed, rfl⟩, ?_⟩
    cases fixed <;> simp [declareFixed, hdeclare]

theorem changesBy_of_declare (hframe : Command.ofFrame frame = .ok (.declare name value fixed))
    (hok : ∃ changed, s.declare name value = .ok changed) :
    s.changesBy frame = .declare name value :: if fixed then [.markFixed name] else [] := by
  obtain ⟨changed, hchanged⟩ := hok
  rw [changesBy, hframe]
  simp only [changesOf, hchanged]

theorem isFixed_of_declare (hframe : Command.ofFrame frame = .ok (.declare name value fixed))
    (hok : ∃ changed, s.declare name value = .ok changed) :
    (s.handle draws frame).session.scope.isFixed name = true ↔
      fixed = true ∨ s.scope.isFixed name = true := by
  have hmarks : Scope.MarksFixed (s.changesBy frame) name ↔ fixed = true := by
    rw [changesBy_of_declare hframe hok]
    cases fixed <;> simp [Scope.MarksFixed]
  rw [scope_handle, Scope.isFixed_foldl, hmarks, or_comm]

theorem value?_of_declare (hframe : Command.ofFrame frame = .ok (.declare name value fixed))
    (hok : ∃ changed, s.declare name value = .ok changed) {other : String}
    (hother : lowerCase name = lowerCase other) :
    (s.handle draws frame).session.scope.value? other = some value := by
  rw [scope_handle, changesBy_of_declare hframe hok, List.foldl_cons, Scope.value?_foldl]
  · exact (Scope.value?_declare _ _ _ _).trans (if_pos hother)
  · cases fixed <;> simp [Scope.declaredKeys, Scope.Change.declaredKey?]

/-- A text that is not refused gives the formula that its session holds. -/
theorem exists_parse_of_reply (hframe : Command.ofFrame frame = .ok (.setText text))
    (h : ¬ (s.handle draws frame).reply.IsError) :
    ∃ f, Formula.parse s.scope readLength? text = .ok f ∧
      (s.handle draws frame).session.term = some f.term := by
  rw [handle_of_ok hframe, perform] at h ⊢
  cases hparse : Formula.parse s.scope readLength? text with
  | error e =>
    refine absurd (Reply.isError_iff.2 ⟨.invalidInput, SessionError.message (.invalidText e), ?_⟩) h
    simp only [setText, hparse]
  | ok f => exact ⟨f, rfl, by simp only [setText, hparse]⟩

end Frames

/-- As long as no frame sets a text, evaluations read the name from its last declaration: behind a
declaration of the name that is carried out, however it is written and whether it is fixed or not,
and whatever other frames follow, an evaluation answers what the term answers with the new value in
the places of the name. -/
def ReadsLive (s : Session) (draws : Draws) (name : String) (t : Term) : Prop :=
  ∀ later frame between evaluation declared value fixed,
    (∀ f ∈ later ++ between, ∀ text, Command.ofFrame f ≠ .ok (.setText text)) →
    Command.ofFrame frame = .ok (.declare declared value fixed) → lowerCase declared = name →
    Command.ofFrame evaluation = .ok .evaluate →
    let before := s.serve draws later
    let answer := before.1.handle before.2 frame
    let after := answer.session.serve answer.draws between
    ¬ answer.reply.IsError →
    name ∉ Scope.declaredKeys (answer.session.changesIn answer.draws between) →
      (after.1.handle after.2 evaluation).reply = .ofEvaluation
        ((t.withValue name value).eval after.1.scope after.1.strict after.2).1

theorem readsLive_of_term {s : Session} {t : Term} (h : s.term = some t) (draws : Draws)
    (name : String) : s.ReadsLive draws (lowerCase name) t := by
  intro later frame between evaluation declared value fixed htexts hframe hname hevaluation
    before answer after hdone hkept
  obtain ⟨hlater, hbetween⟩ := List.forall_mem_append.1 htexts
  obtain ⟨hok, -⟩ := exists_declare_of_reply hframe hdone
  have hframeText : ∀ text, Command.ofFrame frame ≠ .ok (.setText text) := by
    intro text htext
    rw [hframe] at htext
    cases htext
  have hterm : after.1.term = some t := by
    rw [term_serve hbetween, term_handle hframeText, term_serve hlater, h]
  have hvalue : after.1.scope.value? name = some value := by
    rw [scope_serve, Scope.value?_foldl hkept, value?_of_declare hframe hok hname]
  rw [reply_of_evaluate hevaluation, evaluate, hterm, Term.eval_withValue hvalue]

theorem isFixed_lowerCase (scope : Scope) (name : String) :
    scope.isFixed (lowerCase name) = scope.isFixed name := by
  rw [Scope.isFixed, Scope.isFixed, lowerCase_lowerCase]

section Declared

variable {s : Session} {draws : Draws} {frame name text : String} {value : Float} {fixed : Bool}

/-- The reply to a declaration that is carried out shows its name with the mark that it has now. -/
theorem exists_shown_of_declare (h : s.Showable)
    (hframe : Command.ofFrame frame = .ok (.declare name value fixed))
    (hdone : ¬ (s.handle draws frame).reply.IsError) :
    ∃ body j shown, (s.handle draws frame).reply.render = "VARIABLES_UPDATE:" ++ body ∧
      Json.read? body = some j ∧ j.asList? ShownVariable.ofJson? = some shown ∧
      (∃ v ∈ shown, v.name = lowerCase name) ∧
      ∀ v ∈ shown, v.name = lowerCase name →
        (v.fixed = true ↔ fixed = true ∨ s.scope.isFixed name = true) := by
  obtain ⟨hok, hreply⟩ := exists_declare_of_reply hframe hdone
  have hshowable := h.handle draws frame
  obtain ⟨shown, hshown, hnames, hisOf⟩ := hshowable.statesVariables
  have hvalue : (s.handle draws frame).session.scope.value? name = some value :=
    value?_of_declare hframe hok rfl
  have hmem : lowerCase name ∈ shown.map (·.name) := by
    rw [hnames, hshowable.consistent.scope.mem_names_iff, Table.has]
    exact Option.isSome_iff_exists.2 ⟨value, hvalue⟩
  have hbody := Json.read?_render (s.handle draws frame).reply.wellFormed_body
  rw [hreply] at hbody ⊢
  refine ⟨_, _, shown, rfl, hbody, hshown, List.mem_map.1 hmem, ?_⟩
  intro v hv hname
  rw [← (hisOf v hv).fixed, hname, isFixed_lowerCase]
  exact isFixed_of_declare hframe hok

/-- A text that is set while a name is not fixed has the name as a variable, which is read live. -/
theorem exists_term_of_setText (hframe : Command.ofFrame frame = .ok (.setText text))
    (hdone : ¬ (s.handle draws frame).reply.IsError) (hrandom : lowerCase name ≠ Builtin.randomName)
    (hunfixed : s.scope.isFixed name = false) :
    ∃ t, (s.handle draws frame).session.term = some t ∧ t.ReadsName text (lowerCase name) ∧
      (s.handle draws frame).session.ReadsLive (s.handle draws frame).draws (lowerCase name) t := by
  obtain ⟨f, hparse, hterm⟩ := exists_parse_of_reply hframe hdone
  have hopen : s.scope.LeavesOpen (lowerCase name) :=
    ⟨hrandom, (isFixed_lowerCase _ _).trans hunfixed⟩
  exact ⟨f.term, hterm, Formula.readsName_of_parse hparse hopen, readsLive_of_term hterm _ name⟩

end Declared

/-- After any frames, a declaration that is carried out is answered with the variables, and its name
is fixed there exactly if the declaration fixes it or an earlier one has done so, in whatever letter
case: marks stay.  If the name is not fixed, then until a declaration fixes it each text that is set
has the name as a variable wherever it is bare, and evaluations read it from its last declaration
without the text being set again. -/
theorem declaration_marks (draws : Draws) (frames : List String) {frame name : String}
    {value : Float} {fixed : Bool}
    (hframe : Command.ofFrame frame = .ok (.declare name value fixed))
    (hdone : ¬ ((initial.serve draws frames).1.handle (initial.serve draws frames).2
      frame).reply.IsError) :
    let before := initial.serve draws frames
    let answer := before.1.handle before.2 frame
    let marked := fixed = true ∨ Scope.MarksFixed (initial.changesIn draws frames) name
    (∃ body j shown, answer.reply.render = "VARIABLES_UPDATE:" ++ body ∧
      Json.read? body = some j ∧ j.asList? ShownVariable.ofJson? = some shown ∧
      (∃ v ∈ shown, v.name = lowerCase name) ∧
      ∀ v ∈ shown, v.name = lowerCase name → (v.fixed = true ↔ marked)) ∧
    (¬ marked → ∀ more setting text, Command.ofFrame setting = .ok (.setText text) →
      ¬ Scope.MarksFixed (answer.session.changesIn answer.draws more) name →
      let ready := answer.session.serve answer.draws more
      let set := ready.1.handle ready.2 setting
      ¬ set.reply.IsError → ∃ t, set.session.term = some t ∧ t.ReadsName text (lowerCase name) ∧
        set.session.ReadsLive set.draws (lowerCase name) t) := by
  intro before answer marked
  have hbefore : before.1.scope.isFixed name = true ↔
      Scope.MarksFixed (initial.changesIn draws frames) name := by
    rw [scope_serve_initial]
    exact Scope.isFixed_after _ name
  constructor
  · obtain ⟨body, j, shown, hrender, hread, hlist, hnamed, hmarks⟩ :=
      exists_shown_of_declare (showable_initial.serve draws frames) hframe hdone
    exact ⟨body, j, shown, hrender, hread, hlist, hnamed,
      fun v hv hname => (hmarks v hv hname).trans (or_congr_right hbefore)⟩
  · intro hunmarked more setting text hsetting hmore ready set hset
    obtain ⟨hok, -⟩ := exists_declare_of_reply hframe hdone
    have hunfixed : ¬ ready.1.scope.isFixed name = true := by
      rw [scope_serve, Scope.isFixed_foldl, isFixed_of_declare hframe hok, hbefore]
      exact not_or.2 ⟨hunmarked, hmore⟩
    obtain ⟨changed, hchanged⟩ := hok
    have hrandom := (checkIdentifier_eq_ok_iff.1 (declare_eq_ok_iff.1 hchanged).1).2
    exact exists_term_of_setText hsetting hset hrandom (Bool.eq_false_iff.2 hunfixed)

/-- Declared without a mark, `x` is a variable of `X*x`, and its next value is read. -/
theorem declaration_marks_square :
    ∃ served, served = initial.serve (.cycle [])
        ["VARIABLE_DECLARE:\x7b\x22name\x22:\x22x\x22,\x22value\x22:2\x7d", "EXPRESSION_SET:X*x",
          "VARIABLE_DECLARE:\x7b\x22name\x22:\x22X\x22,\x22value\x22:5\x7d"] ∧
      (served.1.handle served.2 "EVALUATE").reply = .result (.integer 25) := by
  refine ⟨_, rfl, ?_⟩
  have hframe : Command.ofFrame "VARIABLE_DECLARE:\x7b\x22name\x22:\x22x\x22,\x22value\x22:2\x7d"
      = .ok (.declare "x" 2.0 false) := eq_ok_of_toOption (by decide +kernel)
  have hsetting : Command.ofFrame "EXPRESSION_SET:X*x" = .ok (.setText "X*x") :=
    eq_ok_of_toOption (by decide +kernel)
  have hagain : Command.ofFrame "VARIABLE_DECLARE:\x7b\x22name\x22:\x22X\x22,\x22value\x22:5\x7d"
      = .ok (.declare "X" 5.0 false) := eq_ok_of_toOption (by decide +kernel)
  have hevaluation : Command.ofFrame "EVALUATE" = .ok .evaluate :=
    eq_ok_of_toOption (by decide +kernel)
  have hunmarked : ¬ (false = true ∨ Scope.MarksFixed (initial.changesIn (.cycle []) []) "x") := by
    simp [changesIn, Scope.MarksFixed]
  obtain ⟨-, hlive⟩ := declaration_marks (.cycle []) [] hframe
    (Reply.not_isError_of_word (by decide +kernel))
  obtain ⟨t, hterm, -, hreads⟩ := hlive hunmarked [] _ _ hsetting
    (by simp [changesIn, Scope.MarksFixed]) (Reply.not_isError_of_word (by decide +kernel))
  have hproduct : some t = some (.binary .mul (.var "x") (.var "x")) :=
    hterm.symm.trans (by decide +kernel)
  cases hproduct
  have hreply := hreads [] _ [] _ _ _ _ (by simp) hagain (by decide +kernel) hevaluation
    (Reply.not_isError_of_word (by decide +kernel)) List.not_mem_nil
  -- both sides are opened alike, so that no session has to be computed to compare them
  simp only [serve] at hreply ⊢
  rw [hreply]
  decide +kernel

/-- The condition is needed: where `x` has been fixed, a declaration without a mark shows it as
fixed still, and formulas have its value in its place. -/
theorem declaration_marks_kept :
    Command.ofFrame "VARIABLE_DECLARE:\x7b\x22name\x22:\x22x\x22,\x22value\x22:2\x7d"
        = .ok (.declare "x" 2.0 false) ∧
      ((initial.serve (.cycle [])
          ["VARIABLE_DECLARE:\x7b\x22name\x22:\x22x\x22,\x22value\x22:1,\x22fixed\x22:true\x7d"]
        ).1.handle (.cycle [])
          "VARIABLE_DECLARE:\x7b\x22name\x22:\x22x\x22,\x22value\x22:2\x7d").reply
          = .variableEntries [⟨"pi", some 3.141592653589793, false, some "pi"⟩,
              ⟨"e", some 2.718281828459045, false, some "e"⟩, ⟨"x", some 2.0, true, some "x"⟩] ∧
      (initial.serve (.cycle [])
          ["VARIABLE_DECLARE:\x7b\x22name\x22:\x22x\x22,\x22value\x22:1,\x22fixed\x22:true\x7d",
            "VARIABLE_DECLARE:\x7b\x22name\x22:\x22x\x22,\x22value\x22:2\x7d",
            "EXPRESSION_SET:x"]).1.term = some (.number 2.0) :=
  ⟨eq_ok_of_toOption (by decide +kernel), by decide +kernel, by decide +kernel⟩

end Session

end LengthFormula
