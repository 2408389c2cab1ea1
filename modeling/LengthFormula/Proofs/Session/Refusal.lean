import LengthFormula.Session.Reply

/-!
# Refused frames

A frame is refused with an error reply: because it is no command, because the session refuses the
change, or because the formula has no value.  A refused frame leaves the session as it was, but for
one: a text that is no formula is kept as the source, and takes the old formula with it
(`Session.handle_refused`).
-/

namespace LengthFormula

/-! ## Error replies -/

namespace Reply

/-- The text of the reply says that the frame is refused. -/
def IsError (r : Reply) : Prop := "ERROR_UPDATE:".toList <+: r.render.toList

/-- The word of a reply is what stands in front of its first colon. -/
theorem takeWhile_render (r : Reply) :
    r.render.toList.takeWhile (· != ':') = r.word.toList := by
  have hword : r.word.toList.all (· != ':') = true := by
    cases r <;> simp [word]
  have htext : r.render.toList = r.word.toList ++ ':' :: r.body.render.toList := by
    simp [render]
  rw [htext, List.takeWhile_append_of_pos (List.all_eq_true.1 hword), List.takeWhile_cons]
  simp

/-- Just the failures read as errors. -/
theorem isError_iff {r : Reply} : r.IsError ↔ ∃ code message, r = .failure code message := by
  constructor
  · rintro ⟨rest, hrest⟩
    have hword : r.word = "ERROR_UPDATE" := by
      rw [← String.toList_inj, ← takeWhile_render, ← hrest]
      rfl
    cases r with
    | failure code message => exact ⟨code, message, rfl⟩
    | _ => simp [word] at hword
  · rintro ⟨code, message, rfl⟩
    refine ⟨(body (.failure code message)).render.toList, ?_⟩
    rw [render, word, String.toList_append, String.toList_append]
    rfl

theorem not_isError_of_word {r : Reply} (h : r.word ≠ "ERROR_UPDATE") : ¬ r.IsError := by
  rw [isError_iff]
  rintro ⟨code, message, rfl⟩
  exact h rfl

end Reply

/-! ## Words of commands -/

namespace Command

/-- The word in front of a command. -/
def word : Command → String
  | setName _ => "EXPRESSION_NAME"
  | setText _ => "EXPRESSION_SET"
  | declare _ _ _ => "VARIABLE_DECLARE"
  | rename _ _ => "VARIABLE_RENAME"
  | setStrict _ => "STRICT"
  | evaluate => "EVALUATE"
  | showVariables => "VARIABLES"
  | showFormula => "EXPRESSION"

theorem exists_of_readDeclaration? {payload : String} {command : Command}
    (h : readDeclaration? payload = some command) :
    ∃ name value fixed, command = declare name value fixed := by
  unfold readDeclaration? at h
  split at h
  · split at h <;> cases h
    exact ⟨_, _, _, rfl⟩
  · cases h

theorem exists_of_readRename? {payload : String} {command : Command}
    (h : readRename? payload = some command) : ∃ name display, command = rename name display := by
  unfold readRename? at h
  split at h
  · split at h <;> cases h
    exact ⟨_, _, rfl⟩
  · cases h

theorem exists_of_readStrictness? {payload : String} {command : Command}
    (h : readStrictness? payload = some command) : ∃ strict, command = setStrict strict := by
  unfold readStrictness? at h
  split at h
  · cases h
    exact ⟨_, rfl⟩
  · split at h <;> cases h
    exact ⟨_, rfl⟩

/-- A command stands in its frame behind its word. -/
theorem word_of_ofFrame {frame : String} {command : Command} (h : ofFrame frame = .ok command) :
    (splitFrame frame).1 = command.word := by
  unfold ofFrame at h
  simp only at h
  split at h
  case h_3 hword =>
    split at h <;> cases h
    next hread =>
    obtain ⟨name, value, fixed, rfl⟩ := exists_of_readDeclaration? hread
    exact hword
  case h_4 hword =>
    split at h <;> cases h
    next hread =>
    obtain ⟨name, display, rfl⟩ := exists_of_readRename? hread
    exact hword
  case h_5 hword =>
    split at h <;> cases h
    next hread =>
    obtain ⟨strict, rfl⟩ := exists_of_readStrictness? hread
    exact hword
  case h_9 => cases h
  all_goals
    next hword =>
    cases h
    exact hword

/-- A text is set wherever the frame has its word. -/
theorem ofFrame_setText {frame : String} (h : (splitFrame frame).1 = "EXPRESSION_SET") :
    ofFrame frame = .ok (setText (splitFrame frame).2) := by
  unfold ofFrame
  simp only [h]

end Command

namespace Session

variable {s : Session} {draws : Draws} {command : Command}

/-! ## What is refused -/

/-- To ask for a value, for the variables or for the formula changes nothing. -/
theorem perform_session_of_word (h : command.word ∈ ["EVALUATE", "VARIABLES", "EXPRESSION"]) :
    (s.perform draws command).session = s := by
  cases command with
  | evaluate =>
    cases hvalue : s.evaluate draws with
    | mk result left => cases result <;> simp [perform, hvalue]
  | showVariables => rfl
  | showFormula => rfl
  | _ => simp [Command.word] at h

/-- Apart from a text, what is refused changes nothing. -/
theorem perform_session_of_isError (hcommand : ∀ text, command ≠ .setText text)
    (h : (s.perform draws command).reply.IsError) : (s.perform draws command).session = s := by
  obtain ⟨code, message, hreply⟩ := Reply.isError_iff.1 h
  cases command with
  | setText text => exact absurd rfl (hcommand text)
  | setName name =>
    cases hname : s.setName name with
    | ok changed => simp [perform, hname, formulaReply] at hreply
    | error e => simp [perform, hname]
  | declare name value fixed =>
    cases hdeclare : if fixed then s.declareFixed name value else s.declare name value with
    | ok changed => simp [perform, hdeclare, variablesReply] at hreply
    | error e => simp [perform, hdeclare]
  | rename name display => simp [perform, variablesReply] at hreply
  | setStrict strict => simp [perform, formulaReply] at hreply
  | evaluate | showVariables | showFormula => exact perform_session_of_word (by simp [Command.word])

/-- A refused text is kept, and no formula with it. -/
theorem perform_setText_of_isError {text : String}
    (h : (s.perform draws (.setText text)).reply.IsError) :
    (s.perform draws (.setText text)).session
      = { s with source := text, term := none, translated := "" } := by
  obtain ⟨code, message, hreply⟩ := Reply.isError_iff.1 h
  cases hparse : Formula.parse s.scope readLength? text with
  | ok formula => simp [perform, setText, hparse, formulaReply] at hreply
  | error e => simp [perform, setText, hparse]

/-- A frame that is refused leaves the session as it was, unless it sets a text: then the text is
the new source, and there is no formula.  Frames that ask for a value, for the variables or for the
formula change nothing, whatever the reply. -/
theorem handle_refused (s : Session) (draws : Draws) (frame : String) :
    ((s.handle draws frame).reply.IsError → (Command.splitFrame frame).1 ≠ "EXPRESSION_SET" →
        (s.handle draws frame).session = s) ∧
      ((s.handle draws frame).reply.IsError → (Command.splitFrame frame).1 = "EXPRESSION_SET" →
        (s.handle draws frame).session
          = { s with source := (Command.splitFrame frame).2, term := none, translated := "" }) ∧
      ((Command.splitFrame frame).1 ∈ ["EVALUATE", "VARIABLES", "EXPRESSION"] →
        (s.handle draws frame).session = s) := by
  cases hframe : Command.ofFrame frame with
  | error fault =>
    have hsame : (s.handle draws frame).session = s := by simp only [handle, hframe]
    refine ⟨fun _ _ => hsame, fun _ hword => ?_, fun _ => hsame⟩
    rw [Command.ofFrame_setText hword] at hframe
    cases hframe
  | ok command =>
    have hword := Command.word_of_ofFrame hframe
    have hhandle : s.handle draws frame = s.perform draws command := by simp only [handle, hframe]
    rw [hhandle, hword]
    refine ⟨fun herror hne => ?_, fun herror heq => ?_, perform_session_of_word⟩
    · refine perform_session_of_isError ?_ herror
      rintro text rfl
      exact hne rfl
    · rw [Command.ofFrame_setText (hword.trans heq)] at hframe
      cases hframe
      exact perform_setText_of_isError herror

end Session

end LengthFormula
