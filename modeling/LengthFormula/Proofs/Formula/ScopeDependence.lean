import LengthFormula.Proofs.Formula.Acceptance
import LengthFormula.Proofs.Formula.Simulation
import LengthFormula.Proofs.Term.Dependence

/-!
# What parsing takes from the scope

Parsing asks the scope for the fixed names and their values, and, for the translated text alone, for
display names.  So scopes that fix the same names to the same values make the same term or the same
error of every text, and with the same display names also the same translated text
(`Formula.parse_congr_scope`).
-/

namespace LengthFormula

/-! ## Scopes that fix alike -/

/-- The scopes fix the same names to the same values. -/
structure Scope.FixesAlike (scope other : Scope) : Prop where
  isFixed_eq : ∀ name, scope.isFixed name = other.isFixed name
  value_eq : ∀ name, scope.isFixed name = true → scope.value? name = other.value? name

namespace Scope

variable {scope other : Scope} {name : String}

theorem FixesAlike.trans {third : Scope} (h : scope.FixesAlike other)
    (h' : other.FixesAlike third) : scope.FixesAlike third where
  isFixed_eq name := (h.isFixed_eq name).trans (h'.isFixed_eq name)
  value_eq name hfixed :=
    (h.value_eq name hfixed).trans (h'.value_eq name (h.isFixed_eq name ▸ hfixed))

/-- Display names have nothing to do with fixed values. -/
theorem fixesAlike_rename (scope : Scope) (name display : String) :
    scope.FixesAlike (scope.rename name display) := ⟨fun _ => rfl, fun _ _ => rfl⟩

/-- Neither have values of names that are not fixed. -/
theorem fixesAlike_declare (h : scope.isFixed name = false) (value : Float) :
    scope.FixesAlike (scope.declare name value) where
  isFixed_eq _ := rfl
  value_eq := by
    intro fixedName hfixed
    rw [value?_declare, if_neg]
    intro hsame
    rw [isFixed, ← hsame] at hfixed
    exact Bool.false_ne_true (h.symm.trans hfixed)

theorem FixesAlike.nameTerm_eq (h : scope.FixesAlike other) (name : String) :
    scope.nameTerm name = other.nameTerm name := by
  rw [nameTerm, nameTerm, ← h.isFixed_eq]
  split
  · rfl
  · split
    · next hfixed => rw [h.value_eq name hfixed]
    · rfl

/-- With the same display names as well, a name is read and shown alike. -/
theorem FixesAlike.reference_eq (h : scope.FixesAlike other)
    (hdisplay : ∀ name, scope.displayName? name = other.displayName? name) (name : String)
    (span : Span) : reference scope name span = reference other name span := by
  rw [reference, reference, ← h.isFixed_eq, ← hdisplay]
  split
  · rfl
  · split
    · next hfixed => rw [h.value_eq name hfixed]
    · rfl

end Scope

/-! ## Phrases of two scopes -/

/-- The phrases have one tree, whatever they put into the text. -/
def SameTree (p q : Phrase) : Prop := p.term = q.term ∧ p.height = q.height

theorem respectful_sameTree : Respectful SameTree where
  height_eq h := h.2
  number _ := ⟨rfl, rfl⟩
  random := ⟨rfl, rfl⟩
  join op hp hq := by simp [SameTree, Phrase.join, hp.1, hp.2, hq.1, hq.2]
  negated h := by simp [SameTree, Phrase.negated, h.1, h.2]
  called name h := by simp [SameTree, Phrase.called, h.1, h.2]
  called2 name hp hq := by simp [SameTree, Phrase.called2, hp.1, hp.2, hq.1, hq.2]

theorem respectful_eq : Respectful Eq where
  height_eq h := congrArg Phrase.height h
  number _ := rfl
  random := rfl
  join op hp hq := by rw [hp, hq]
  negated h := by rw [h]
  called name h := by rw [h]
  called2 name hp hq := by rw [hp, hq]

theorem sameTree_reference {scope other : Scope} (h : scope.FixesAlike other) (name : String)
    (span : Span) : SameTree (reference scope name span) (reference other name span) := by
  refine ⟨?_, ?_⟩
  · rw [reference_term, reference_term, h.nameTerm_eq]
  · rw [reference_height, reference_height]

namespace Formula

/-- Scopes that fix the same names to the same values, whatever else they hold, make the same term
of a text or refuse it with the same error at the same place.  If they also show the same display
names, the translated texts are the same. -/
theorem parse_congr_scope {scope other : Scope} (h : scope.FixesAlike other) (convert : Converter)
    (text : String) :
    (parse scope convert text).map term = (parse other convert text).map term ∧
      ((∀ name, scope.displayName? name = other.displayName? name) →
        parse scope convert text = parse other convert text) := by
  rw [parse, parse]
  cases tokenize convert text.toList with
  | error e => exact ⟨rfl, fun _ => rfl⟩
  | ok tokens =>
    refine ⟨?_, fun hdisplay => ?_⟩
    · rcases matched_parseTokens respectful_sameTree (sameTree_reference h) tokens
        with ⟨p, q, hp, hq, hterm, -⟩ | ⟨e, hp, hq⟩
      · simp only [hp, hq, Except.map, hterm]
      · simp only [hp, hq, Except.map]
    · rcases matched_parseTokens respectful_eq (h.reference_eq hdisplay) tokens
        with ⟨p, q, hp, hq, rfl⟩ | ⟨e, hp, hq⟩
      · simp only [hp, hq]
      · simp only [hp, hq]

/-- With three for the fixed `x` the term of `x^y` does not change when `y` gets a value and another
name to be shown under. -/
theorem parse_congr_scope_power :
    (parse (((Scope.empty.declare "x" 3.0).markFixed "x").declare "Y" 2.0 |>.rename "y" "z")
        readLength? "x^y").map term = .ok (.binary .pow (.number 3) (.var "y")) := by
  have hparse : parse ((Scope.empty.declare "x" 3.0).markFixed "x") readLength? "x^y" = .ok
      ⟨.binary .pow (.number 3) (.var "y"), "3^y"⟩ := eq_ok_of_toOption (by decide +kernel)
  have hdeclare : ((Scope.empty.declare "x" 3.0).markFixed "x").FixesAlike
      (((Scope.empty.declare "x" 3.0).markFixed "x").declare "Y" 2.0) :=
    Scope.fixesAlike_declare (by decide +kernel) 2.0
  have halike := hdeclare.trans (Scope.fixesAlike_rename _ "y" "z")
  rw [← (parse_congr_scope halike readLength? "x^y").1, hparse]
  rfl

end Formula

end LengthFormula
