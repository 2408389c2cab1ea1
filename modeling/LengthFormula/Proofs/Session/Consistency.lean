import LengthFormula.Proofs.Scope.Consistency
import LengthFormula.Proofs.Session.Actions
import Mathlib.Data.List.Induction

/-!
# Sessions stay consistent

Whatever is asked of a session, and whether or not it is refused, the names of the session keep
apart: variables have names of their own that are identifiers, none of them is the name of the
formula, and only variables are fixed (`Session.Consistent`).  The formula is always the one that
the last text gave in the scope of its time (`Session.HoldsParse`).  Both hold after every row of
actions (`Session.run_invariant`).
-/

namespace LengthFormula

/-- The names that variables and formulas may have. -/
theorem checkIdentifier_eq_ok_iff {name : String} : checkIdentifier name = .ok () ↔
    isIdentifier name = true ∧ lowerCase name ≠ Builtin.randomName := by
  rw [checkIdentifier]
  cases isIdentifier name with
  | false => simp
  | true => by_cases hrandom : lowerCase name = Builtin.randomName <;> simp [hrandom]

namespace Session

/-- The names of a session keep apart, and its scope is consistent. -/
structure Consistent (s : Session) : Prop where
  scope : s.scope.Consistent
  builtins_first : builtinConstants.map Prod.fst <+: s.scope.names
  identifiers : ∀ key ∈ s.scope.names, key ≠ Builtin.randomName ∧
    ∃ name, checkIdentifier name = .ok () ∧ lowerCase name = key
  fixed_declared : ∀ key, s.scope.fixed.has key = true → key ∈ s.scope.names
  ownName_notMem : ∀ own, s.name = some own → lowerCase own ∉ s.scope.names

/-- The formula of the session is what its text gave in this scope, or there is none. -/
def HoldsParse (convert : Converter) (scope : Scope) (s : Session) : Prop :=
  match Formula.parse scope convert s.source with
  | .ok formula => s.term = some formula.term ∧ s.translated = formula.translated
  | .error _ => s.term = none ∧ s.translated = ""

/-! ## Names -/

section Names

variable {convert : Converter} {s : Session} {name : String}

theorem isOwnName_eq_false_iff : s.isOwnName name = false ↔
    ∀ own, s.name = some own → lowerCase own ≠ lowerCase name := by
  rw [isOwnName]
  cases s.name <;> simp

/-- No variable has the formula's new name. -/
theorem Consistent.named (h : s.Consistent) (hcontains : s.scope.contains name = false) :
    Consistent { s with name := some name } where
  scope := h.scope
  builtins_first := h.builtins_first
  identifiers := h.identifiers
  fixed_declared := h.fixed_declared
  ownName_notMem := by
    intro own hown
    obtain rfl : name = own := Option.some.inj hown
    rw [← h.scope.contains_eq_true_iff, hcontains]
    exact Bool.false_ne_true

/-- A new variable does not have the formula's name. -/
theorem Consistent.declared (h : s.Consistent) (hcheck : checkIdentifier name = .ok ())
    (hown : s.isOwnName name = false) (value : Float) :
    Consistent { s with scope := s.scope.declare name value } where
  scope := h.scope.declare name value
  builtins_first := h.builtins_first.trans (s.scope.names_isPrefix_declare name value)
  identifiers := by
    intro key hkey
    rcases (h.scope.mem_names_declare_iff name value key).1 hkey with hmem | rfl
    · exact h.identifiers key hmem
    · exact ⟨(checkIdentifier_eq_ok_iff.1 hcheck).2, name, hcheck, rfl⟩
  fixed_declared := by
    intro key hfixed
    exact (h.scope.mem_names_declare_iff name value key).2 (.inl (h.fixed_declared key hfixed))
  ownName_notMem := by
    intro own hname hmem
    rcases (h.scope.mem_names_declare_iff name value _).1 hmem with hmem | heq
    · exact h.ownName_notMem own hname hmem
    · exact isOwnName_eq_false_iff.1 hown own hname heq

/-- A variable that is declared can be fixed. -/
theorem Consistent.fixed (h : s.Consistent) (hdeclared : lowerCase name ∈ s.scope.names) :
    Consistent { s with scope := s.scope.markFixed name } where
  scope := h.scope.markFixed name
  builtins_first := h.builtins_first
  identifiers := h.identifiers
  fixed_declared := by
    intro key hfixed
    rw [Scope.markFixed, NameSet.add, Table.has_insert, Bool.or_eq_true, decide_eq_true_eq]
      at hfixed
    rcases hfixed with rfl | hfixed
    · exact hdeclared
    · exact h.fixed_declared key hfixed
  ownName_notMem := h.ownName_notMem

/-- A display name is no name of a variable. -/
theorem Consistent.renamed (h : s.Consistent) (name display : String) :
    Consistent { s with scope := s.scope.rename name display } where
  scope := h.scope.rename name display
  builtins_first := h.builtins_first
  identifiers := h.identifiers
  fixed_declared := h.fixed_declared
  ownName_notMem := h.ownName_notMem

/-- The other parts of a session have nothing to do with its names. -/
theorem Consistent.of_names_eq (h : s.Consistent) {other : Session} (hname : other.name = s.name)
    (hscope : other.scope = s.scope) : other.Consistent where
  scope := hscope ▸ h.scope
  builtins_first := hscope ▸ h.builtins_first
  identifiers := hscope ▸ h.identifiers
  fixed_declared := hscope ▸ h.fixed_declared
  ownName_notMem := hscope ▸ hname ▸ h.ownName_notMem

theorem setText_name (convert : Converter) (s : Session) (text : String) :
    (s.setText convert text).1.name = s.name := by
  rw [setText]
  split <;> rfl

theorem setText_scope (convert : Converter) (s : Session) (text : String) :
    (s.setText convert text).1.scope = s.scope := by
  rw [setText]
  split <;> rfl

/-- Every action keeps a session consistent, carried out or refused. -/
theorem Consistent.act (h : s.Consistent) (convert : Converter) (a : Action) :
    (s.act convert a).Consistent := by
  cases a with
  | setName name =>
    refine kept_of h fun changed hchanged => ?_
    obtain ⟨-, hcontains, rfl⟩ := setName_eq_ok_iff.1 hchanged
    exact h.named hcontains
  | declare name value =>
    refine kept_of h fun changed hchanged => ?_
    obtain ⟨hcheck, hown, rfl⟩ := declare_eq_ok_iff.1 hchanged
    exact h.declared hcheck hown value
  | declareFixed name value =>
    refine kept_of h fun changed hchanged => ?_
    obtain ⟨hcheck, hown, rfl⟩ := declareFixed_eq_ok_iff.1 hchanged
    have hdeclared : lowerCase name ∈ (s.scope.declare name value).names :=
      (h.scope.mem_names_declare_iff name value _).2 (.inr rfl)
    exact (h.declared hcheck hown value).fixed hdeclared
  | rename name display => exact h.renamed name display
  | setStrict strict => exact h.of_names_eq rfl rfl
  | setText text => exact h.of_names_eq (setText_name _ _ _) (setText_scope _ _ _)

theorem consistent_initial : initial.Consistent where
  scope := Scope.consistent_initial
  builtins_first := Scope.names_initial ▸ List.prefix_rfl
  identifiers := by
    show ∀ key ∈ Scope.initial.names, _
    rw [Scope.names_initial]
    intro key hkey
    have hbuiltin : ∀ name ∈ builtinConstants.map Prod.fst, isIdentifier name = true ∧
        name ≠ Builtin.randomName ∧ lowerCase name = name := by decide +kernel
    obtain ⟨hidentifier, hrandom, hlower⟩ := hbuiltin key hkey
    have hcheck : checkIdentifier key = .ok () :=
      checkIdentifier_eq_ok_iff.2 ⟨hidentifier, by rwa [hlower]⟩
    exact ⟨hrandom, key, hcheck, hlower⟩
  fixed_declared := by
    show ∀ key, Scope.initial.fixed.has key = true → _
    rw [Scope.fixed_initial]
    intro key hfixed
    cases hfixed
  ownName_notMem := by
    intro own hown
    rw [initial] at hown
    cases hown

end Names

/-! ## The formula -/

/-- The action sets a text. -/
def Action.setsText : Action → Bool
  | setText _ => true
  | _ => false

section Formulas

variable {convert : Converter} {s : Session}

/-- The formulas of the sessions are the same: source, translation and term. -/
def SameFormula (a b : Session) : Prop :=
  a.source = b.source ∧ a.translated = b.translated ∧ a.term = b.term

theorem SameFormula.refl (s : Session) : s.SameFormula s := ⟨rfl, rfl, rfl⟩

/-- Only a text changes the formula. -/
theorem sameFormula_act {a : Action} (h : a.setsText = false) :
    (s.act convert a).SameFormula s := by
  cases a with
  | setName name =>
    refine kept_of (p := (SameFormula · s)) (.refl s) fun changed hchanged => ?_
    obtain ⟨-, -, rfl⟩ := setName_eq_ok_iff.1 hchanged
    exact .refl s
  | declare name value =>
    refine kept_of (p := (SameFormula · s)) (.refl s) fun changed hchanged => ?_
    obtain ⟨-, -, rfl⟩ := declare_eq_ok_iff.1 hchanged
    exact .refl s
  | declareFixed name value =>
    refine kept_of (p := (SameFormula · s)) (.refl s) fun changed hchanged => ?_
    obtain ⟨-, -, rfl⟩ := declareFixed_eq_ok_iff.1 hchanged
    exact .refl s
  | rename name display => exact .refl s
  | setStrict strict => exact .refl s
  | setText text => cases h

theorem HoldsParse.of_sameFormula {other : Session} {scope : Scope} (h : s.HoldsParse convert scope)
    (hsame : other.SameFormula s) : other.HoldsParse convert scope := by
  obtain ⟨hsource, htranslated, hterm⟩ := hsame
  rw [HoldsParse, hsource, htranslated, hterm]
  exact h

/-- A text gives the formula of the session, or none. -/
theorem holdsParse_setText (convert : Converter) (s : Session) (text : String) :
    (s.setText convert text).1.source = text ∧
      (s.setText convert text).1.HoldsParse convert s.scope := by
  cases hparse : Formula.parse s.scope convert text <;> simp [setText, HoldsParse, hparse]

/-- After these actions the session holds what the last text among them gave in the scope of its
time, and without a text it is empty. -/
def FollowsLastText (convert : Converter) (actions : List Action) (s : Session) : Prop :=
  ((∀ a ∈ actions, a.setsText = false) ∧ s.source = "" ∧ s.term = none ∧ s.translated = "") ∨
    ∃ before text behind, actions = before ++ .setText text :: behind ∧
      (∀ a ∈ behind, a.setsText = false) ∧ s.source = text ∧
      s.HoldsParse convert (run convert before).scope

theorem FollowsLastText.concat {actions : List Action}
    (h : (run convert actions).FollowsLastText convert actions) (a : Action) :
    (run convert (actions ++ [a])).FollowsLastText convert (actions ++ [a]) := by
  rw [run_concat]
  cases ha : a.setsText with
  | true =>
    cases a with
    | setText text =>
      obtain ⟨hsource, hparse⟩ := holdsParse_setText convert (run convert actions) text
      exact .inr ⟨actions, text, [], rfl, by simp, hsource, hparse⟩
    | _ => cases ha
  | false =>
    have hsame : ((run convert actions).act convert a).SameFormula (run convert actions) :=
      sameFormula_act ha
    obtain ⟨hsource, htranslated, hterm⟩ := hsame
    rcases h with ⟨hall, hempty⟩ | ⟨before, text, behind, rfl, hbehind, htext, hparse⟩
    · refine .inl ⟨?_, by rwa [hsource, htranslated, hterm]⟩
      exact List.forall_mem_append.2 ⟨hall, by simpa using ha⟩
    · refine .inr ⟨before, text, behind ++ [a], by simp, ?_, hsource.trans htext, ?_⟩
      · exact List.forall_mem_append.2 ⟨hbehind, by simpa using ha⟩
      · exact hparse.of_sameFormula ⟨hsource, htranslated, hterm⟩

end Formulas

/-! ## Reachable sessions -/

theorem consistent_run (convert : Converter) (actions : List Action) :
    (run convert actions).Consistent := by
  induction actions using List.reverseRecOn with
  | nil => exact consistent_initial
  | append_singleton actions a ih =>
    rw [run_concat]
    exact ih.act convert a

theorem followsLastText_run (convert : Converter) (actions : List Action) :
    (run convert actions).FollowsLastText convert actions := by
  induction actions using List.reverseRecOn with
  | nil => exact .inl ⟨by simp, rfl, rfl, rfl⟩
  | append_singleton actions a ih => exact ih.concat a

/-- After any actions, carried out or refused, the names of a session keep apart: the built-in
constants are declared first, every variable is listed once under an identifier in lower case and
shown under some name, only variables are fixed, and none has the name of the formula.  The formula
is what the last text gave in the scope of its time, and a text that was refused left none. -/
theorem run_invariant (convert : Converter) (actions : List Action) :
    (run convert actions).Consistent ∧
      (run convert actions).FollowsLastText convert actions :=
  ⟨consistent_run convert actions, followsLastText_run convert actions⟩

/-- A variable cannot take the name of the formula, in whatever case it is written. -/
example : (run readLength? [.setName "area", .declare "AREA" 1.0]).scope = Scope.initial := by
  decide +kernel

end Session

end LengthFormula
