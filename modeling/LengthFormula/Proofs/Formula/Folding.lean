import LengthFormula.Proofs.Formula.Acceptance
import LengthFormula.Proofs.Formula.Simulation
import LengthFormula.Proofs.Term.Substitution

/-!
# Folding fixed variables

Parsing reads a fixed variable as its value.  It gives the tree that it would give without any fixed
variable, with the values put in for the variables, and that tree has the value of the other one
(`Formula.parse_fold`).
-/

namespace LengthFormula

/-- The scope with no variable fixed. -/
def Scope.unfixed (scope : Scope) : Scope := { scope with fixed := [] }

/-- What stands in the tree for a variable: its value if it is fixed, where one that is not declared
counts as zero. -/
def Scope.folded (scope : Scope) (name : String) : Term :=
  if scope.isFixed name then .number ((scope.value? name).getD 0.0) else .var name

/-- The term with the values of the fixed variables put in. -/
def Term.fold (scope : Scope) (t : Term) : Term := t.subst scope.folded

theorem eval_folded {scope : Scope} {strict : Bool}
    (h : strict = true → ∀ name, scope.isFixed name = true → scope.contains name = true)
    (name : String) (draws : Draws) :
    (scope.folded name).eval scope strict draws = (Term.var name).eval scope strict draws := by
  unfold Scope.folded
  split
  · next hfixed =>
    rw [Term.eval, Term.eval, Scope.lookup]
    cases hvalue : scope.value? name with
    | some x => rfl
    | none =>
      cases strict with
      | false => rfl
      | true =>
        have hcontains := h rfl name hfixed
        rw [Scope.value?] at hvalue
        rw [Scope.contains, Table.has, hvalue] at hcontains
        cases hcontains
  · rfl

/-- The left phrase has the tree of the right one with the values of fixed variables put in. -/
def FoldedFrom (scope : Scope) (p q : Phrase) : Prop :=
  p.term = q.term.fold scope ∧ p.height = q.height

theorem respectful_foldedFrom (scope : Scope) : Respectful (FoldedFrom scope) where
  height_eq h := h.2
  number _ := ⟨rfl, rfl⟩
  random := ⟨rfl, rfl⟩
  join op hp hq := by
    simp [FoldedFrom, Phrase.join, Term.fold, Term.subst, hp.1, hp.2, hq.1, hq.2]
  negated h := by
    simp [FoldedFrom, Phrase.negated, Term.fold, Term.subst, h.1, h.2]
  called name h := by
    simp [FoldedFrom, Phrase.called, Term.fold, Term.subst, h.1, h.2]
  called2 name hp hq := by
    simp [FoldedFrom, Phrase.called2, Term.fold, Term.subst, hp.1, hp.2, hq.1, hq.2]

theorem foldedFrom_reference (scope : Scope) (name : String) (span : Span) :
    FoldedFrom scope (reference scope name span) (reference scope.unfixed name span) := by
  refine ⟨?_, ?_⟩
  · rw [reference_term, reference_term, Scope.nameTerm, Scope.nameTerm]
    split
    · rfl
    · rfl
  · rw [reference_height, reference_height]

namespace Formula

/-- Fixed variables do not decide whether a text is a formula, and change its tree just by their
values; that tree has the value of the tree without them. -/
theorem parse_fold (scope : Scope) (convert : Converter) (text : String) :
    (parse scope convert text).map term
        = (parse scope.unfixed convert text).map (fun f => f.term.fold scope) ∧
      ∀ f g, parse scope convert text = .ok f → parse scope.unfixed convert text = .ok g →
        ∀ strict, (strict = true → ∀ name, scope.isFixed name = true → scope.contains name = true) →
          ∀ draws, f.term.eval scope strict draws = g.term.eval scope strict draws := by
  have hmap : (parse scope convert text).map term
      = (parse scope.unfixed convert text).map (fun f => f.term.fold scope) := by
    rw [parse, parse]
    cases tokenize convert text.toList with
    | error e => rfl
    | ok tokens =>
      rcases matched_parseTokens (respectful_foldedFrom scope) (foldedFrom_reference scope) tokens
        with ⟨p, q, hp, hq, hterm, -⟩ | ⟨e, hp, hq⟩
      · simp only [hp, hq, Except.map, hterm]
      · simp only [hp, hq, Except.map]
  refine ⟨hmap, ?_⟩
  intro f g hf hg strict hstrict draws
  rw [hf, hg] at hmap
  have hterm : f.term = g.term.fold scope := Except.ok.inj hmap
  rw [hterm]
  exact Term.eval_subst (eval_folded hstrict) g.term draws

/-- With three for the fixed `x` the value of `x^y` stays, in strict look-ups as well. -/
theorem parse_fold_declared :
    (Term.binary .pow (.number 3.0) (.var "y")).eval
        ((Scope.empty.declare "x" 3.0).markFixed "x") true (.cycle [])
      = (Term.binary .pow (.var "x") (.var "y")).eval
          ((Scope.empty.declare "x" 3.0).markFixed "x") true (.cycle []) := by
  have hparse : parse ((Scope.empty.declare "x" 3.0).markFixed "x") (fun _ => none) "x^y" = .ok
      ⟨.binary .pow (.number 3.0) (.var "y"), "3^y"⟩ := eq_ok_of_toOption (by decide +kernel)
  have hunfixed : parse ((Scope.empty.declare "x" 3.0).markFixed "x").unfixed (fun _ => none) "x^y"
      = .ok ⟨.binary .pow (.var "x") (.var "y"), "x^y"⟩ := eq_ok_of_toOption (by decide +kernel)
  refine (parse_fold _ (fun _ => none) "x^y").2 _ _ hparse hunfixed true ?_ (.cycle [])
  intro _ name hname
  by_cases hx : "x" = lowerCase name
  · rw [Scope.contains, ← hx]
    decide +kernel
  · have hfixed : ((Scope.empty.declare "x" 3.0).markFixed "x").fixed = [("x", ())] := by
      decide +kernel
    rw [Scope.isFixed, hfixed, Table.has, Table.get?, if_neg hx] at hname
    cases hname

end Formula

end LengthFormula
