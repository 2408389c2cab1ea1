import LengthFormula.Proofs.Session.Frames
import LengthFormula.Proofs.Term.Storage

/-!
# Replies state the session

The reply to a frame is one of four words, a colon and a JSON value (`Reply.wellFormed_body`).  What
it says of the formula and of the variables is read back from it without loss, and is what the
session behind the frame holds (`Session.reply_states_session`).
-/

namespace LengthFormula

/-! ## Replies are JSON -/

namespace Json

theorem wholeText_toDigits (n : Nat) : WholeText (Nat.toDigits 10 n) := by
  have hdigits := Significant.isDigits_toDigits n
  by_cases h : n = 0
  · rw [h]
    exact .zero
  · have hhead := Significant.head?_toDigits (Nat.pos_of_ne_zero h)
    cases hcs : Nat.toDigits 10 n with
    | nil => exact absurd hcs Nat.toDigits_ne_nil
    | cons c cs =>
      rw [hcs] at hdigits hhead
      exact .digits hdigits (by simpa using hhead)

/-- An integer is written as a number. -/
theorem wellFormed_ofInt (n : Int) : (ofInt n).WellFormed := by
  have hmagnitude : MagnitudeText (Nat.toDigits 10 n.natAbs) := by
    have := MagnitudeText.mk (wholeText_toDigits n.natAbs) .none .none
    rwa [List.append_nil, List.append_nil] at this
  rw [ofInt, WellFormed]
  split
  · exact .negative hmagnitude
  · exact .positive hmagnitude

theorem wellFormed_ofText? (s : Option String) : (ofText? s).WellFormed := by
  cases s <;> trivial

end Json

theorem VariableEntry.wellFormed_toJson (e : VariableEntry) : e.toJson.WellFormed := by
  refine ⟨Json.wellFormed_ofText? _, trivial, trivial, ?_, trivial⟩
  cases e.value with
  | none => trivial
  | some x => exact Json.wellFormed_ofDouble x

theorem FormulaState.wellFormed_toJson (f : FormulaState) : f.toJson.WellFormed :=
  ⟨trivial, Json.wellFormed_ofText? _, trivial, trivial,
    Json.itemsWellFormed_map Json.wellFormed_string _, trivial⟩

theorem Number.wellFormed_resultJson (x : Number) : x.resultJson.WellFormed := by
  cases x with
  | integer n => exact Json.wellFormed_ofInt n
  | real x =>
    rw [resultJson]
    split
    · trivial
    · split
      · trivial
      · exact Json.wellFormed_ofDouble x

/-- Behind the word of a reply stands one JSON value. -/
theorem Reply.wellFormed_body (r : Reply) : r.body.WellFormed := by
  cases r with
  | formula state => exact state.wellFormed_toJson
  | variableEntries entries =>
    exact Json.itemsWellFormed_map VariableEntry.wellFormed_toJson entries
  | result x => exact ⟨x.wellFormed_resultJson, trivial⟩
  | failure code message => exact ⟨trivial, trivial, trivial⟩

/-! ## Reading replies -/

namespace Json

/-- A text, or `none` within where there is `null`. -/
def asOptionalText? : Json → Option (Option String)
  | null => some none
  | string s => some (some s)
  | _ => none

theorem asOptionalText?_ofText? (s : Option String) : (ofText? s).asOptionalText? = some s := by
  cases s <;> rfl

end Json

/-- The state of a formula that a JSON value holds. -/
def FormulaState.ofJson? (j : Json) : Option FormulaState :=
  match j.record? ["constant", "name", "source", "translated", "variables"] with
  | some [some constant, some name, some source, some translated, some names] =>
    match name.asOptionalText?, source.asString?, translated.asString?, constant.asBool?,
        names.asList? Json.asString? with
    | some name, some source, some translated, some constant, some names =>
      some ⟨name, source, translated, constant, names⟩
    | _, _, _, _, _ => none
  | _ => none

theorem FormulaState.ofJson?_toJson (f : FormulaState) : ofJson? f.toJson = some f := by
  have hrecord : f.toJson.record? ["constant", "name", "source", "translated", "variables"]
      = some [some (.bool f.constant), some (.ofText? f.name), some (.string f.source),
          some (.string f.translated), some (.array (f.variableNames.map .string))] :=
    Json.record?_object (by simp)
  rw [ofJson?, hrecord]
  simp only [Json.asOptionalText?_ofText?, Json.asString?, Json.asBool?, Json.asList?_texts]

/-- A variable with all that is said of it. -/
structure ShownVariable where
  name : String
  value : Float
  fixed : Bool
  display : String
  deriving DecidableEq, Repr

namespace ShownVariable

/-- The variable that a JSON value shows; nothing may be left out or `null`. -/
def ofJson? (j : Json) : Option ShownVariable :=
  match j.record? ["display", "fixed", "name", "value"] with
  | some [some display, some fixed, some name, some value] =>
    match name.asString?, value.asDouble?, fixed.asBool?, display.asString? with
    | some name, some value, some fixed, some display => some ⟨name, value, fixed, display⟩
    | _, _, _, _ => none
  | _ => none

/-- All of it is as the scope has it. -/
structure IsOf (v : ShownVariable) (scope : Scope) : Prop where
  value : scope.value? v.name = some v.value
  fixed : scope.isFixed v.name = v.fixed
  display : scope.displayName? v.name = some v.display

/-- The variable of a name of a scope. -/
def ofScope (scope : Scope) (name : String) : ShownVariable :=
  ⟨name, (scope.value? name).getD 0.0, scope.isFixed name, (scope.displayName? name).getD name⟩

theorem ofJson?_toJson {v : ShownVariable} {scope : Scope} (h : v.IsOf scope)
    (hfinite : Double.isFinite v.value = true) :
    ofJson? (VariableEntry.ofScope scope v.name).toJson = some v := by
  have hjson : (VariableEntry.ofScope scope v.name).toJson = .object
      [("display", .string v.display), ("fixed", .bool v.fixed), ("name", .string v.name),
        ("value", .ofDouble v.value)] := by
    rw [VariableEntry.ofScope, VariableEntry.toJson, h.value, h.fixed, h.display]
    rfl
  have hrecord : (VariableEntry.ofScope scope v.name).toJson.record?
      ["display", "fixed", "name", "value"]
      = some [some (.string v.display), some (.bool v.fixed), some (.string v.name),
          some (.ofDouble v.value)] := by
    rw [hjson]
    exact Json.record?_object (by simp)
  rw [ofJson?, hrecord]
  simp only [Json.asString?, Json.asBool?, Json.asDouble?_ofDouble, hfinite, if_true]

end ShownVariable

/-! ## What replies say -/

/-- The JSON value lists the variables of the scope, with their names in order and nothing left
out. -/
def StatesVariables (j : Json) (scope : Scope) : Prop :=
  ∃ shown, j.asList? ShownVariable.ofJson? = some shown ∧ shown.map (·.name) = scope.names ∧
    ∀ v ∈ shown, v.IsOf scope

namespace Session

variable {s : Session}

/-- Every variable of a session is shown with all that is said of it. -/
theorem Showable.isOf (h : s.Showable) {name : String} (hname : name ∈ s.scope.names) :
    (ShownVariable.ofScope s.scope name).IsOf s.scope ∧
      Double.isFinite (ShownVariable.ofScope s.scope name).value = true := by
  have hvalue : (s.scope.value? name).isSome = true := by
    rw [Scope.value?, h.consistent.scope.lowerCase_eq name hname]
    exact (h.consistent.scope.mem_names_iff name).1 hname
  obtain ⟨x, hx⟩ := Option.isSome_iff_exists.1 hvalue
  obtain ⟨display, hdisplay⟩ := Option.isSome_iff_exists.1 (h.consistent.scope.shown name hname)
  rw [ShownVariable.ofScope, hx, hdisplay]
  exact ⟨⟨hx, rfl, hdisplay⟩, h.finite name x hx⟩

theorem Showable.statesVariables (h : s.Showable) :
    StatesVariables s.variablesReply.body s.scope := by
  have hbody : s.variablesReply.body
      = .array (s.scope.names.map fun name => (VariableEntry.ofScope s.scope name).toJson) := by
    rw [variablesReply, Reply.body, List.map_map]
    rfl
  have hread : ∀ name ∈ s.scope.names,
      ShownVariable.ofJson? (VariableEntry.ofScope s.scope name).toJson
        = some (ShownVariable.ofScope s.scope name) := by
    intro name hname
    obtain ⟨hisOf, hfinite⟩ := h.isOf hname
    -- stated first: the unifier would look for the name by unfolding the JSON value
    have hvariable := ShownVariable.ofJson?_toJson hisOf hfinite
    exact hvariable
  have hnames : (s.scope.names.map (ShownVariable.ofScope s.scope)).map (·.name)
      = s.scope.names := by
    rw [List.map_map]
    exact List.map_id _
  refine ⟨s.scope.names.map (ShownVariable.ofScope s.scope), ?_, hnames, fun v hv => ?_⟩
  · rw [hbody]
    exact Json.asList?_map hread
  · obtain ⟨name, hname, rfl⟩ := List.mem_map.1 hv
    exact (h.isOf hname).1

/-- The reply to a frame shows the session behind the frame, or tells a result or an error. -/
theorem reply_handle (s : Session) (draws : Draws) (frame : String) :
    (s.handle draws frame).reply = (s.handle draws frame).session.formulaReply ∨
      (s.handle draws frame).reply = (s.handle draws frame).session.variablesReply ∨
      (∃ x, (s.handle draws frame).reply = .result x) ∨
        ∃ code message, (s.handle draws frame).reply = .failure code message := by
  cases hframe : Command.ofFrame frame with
  | error fault => exact .inr (.inr (.inr ⟨_, _, by rw [handle, hframe]⟩))
  | ok command =>
    rw [handle_of_ok hframe]
    cases command with
    | setName name =>
      rw [perform]
      cases s.setName name with
      | ok changed => exact .inl rfl
      | error e => exact .inr (.inr (.inr ⟨_, _, rfl⟩))
    | setText text =>
      rw [perform]
      obtain ⟨changed, result⟩ := s.setText readLength? text
      cases result with
      | ok u => exact .inl rfl
      | error e => exact .inr (.inr (.inr ⟨_, _, rfl⟩))
    | declare name value fixed =>
      rw [perform]
      cases if fixed then s.declareFixed name value else s.declare name value with
      | ok changed => exact .inr (.inl rfl)
      | error e => exact .inr (.inr (.inr ⟨_, _, rfl⟩))
    | evaluate =>
      rw [perform]
      obtain ⟨result, left⟩ := s.evaluate draws
      cases result with
      | ok x => exact .inr (.inr (.inl ⟨_, rfl⟩))
      | error e => exact .inr (.inr (.inr ⟨_, _, rfl⟩))
    | rename | showVariables => exact .inr (.inl rfl)
    | setStrict | showFormula => exact .inl rfl

/-- After any frames, the reply to the next one is a word, a colon and one JSON value.  What it says
of the formula is read back as the new session has it; so is what it says of the variables, with
nothing left out.  Their names stand in the order in which the frames declare them, behind the
built-in constants and each only once. -/
theorem reply_states_session (draws : Draws) (frames : List String) (frame : String) :
    let before := initial.serve draws frames
    let answer := before.1.handle before.2 frame
    ∃ word body j, answer.reply.render = word ++ ":" ++ body ∧ Json.read? body = some j ∧
      (word = "EXPRESSION_UPDATE" ∧ FormulaState.ofJson? j = some
          ⟨answer.session.name, answer.session.source, answer.session.translated,
            answer.session.isConstant, answer.session.collectVariables []⟩ ∨
        word = "VARIABLES_UPDATE" ∧ StatesVariables j answer.session.scope ∧
          answer.session.scope.names.Nodup ∧ answer.session.scope.names
            = (initial.declaredIn draws (frames ++ [frame])).foldl listed ["pi", "e"] ∨
        word = "RESULT_UPDATE" ∨ word = "ERROR_UPDATE") := by
  intro before answer
  have hshowable : answer.session.Showable :=
    (showable_initial.serve draws frames).handle before.2 frame
  refine ⟨answer.reply.word, answer.reply.body.render, answer.reply.body, rfl,
    Json.read?_render answer.reply.wellFormed_body, ?_⟩
  rcases reply_handle before.1 before.2 frame with h | h | ⟨x, h⟩ | ⟨code, message, h⟩
  · have hreply : answer.reply = answer.session.formulaReply := h
    rw [hreply]
    exact .inl ⟨rfl, FormulaState.ofJson?_toJson _⟩
  · have hreply : answer.reply = answer.session.variablesReply := h
    have hnames : answer.session.scope.names
        = (initial.declaredIn draws (frames ++ [frame])).foldl listed ["pi", "e"] := by
      have hserve := names_serve consistent_initial draws (frames ++ [frame])
      rwa [serve_concat, show initial.scope.names = ["pi", "e"] from Scope.names_initial] at hserve
    rw [hreply]
    have hnodup := hshowable.consistent.scope.names_nodup
    exact .inr (.inl ⟨rfl, hshowable.statesVariables, hnodup, hnames⟩)
  · have hreply : answer.reply = .result x := h
    rw [hreply]
    exact .inr (.inr (.inl rfl))
  · have hreply : answer.reply = .failure code message := h
    rw [hreply]
    exact .inr (.inr (.inr rfl))

end Session

end LengthFormula
