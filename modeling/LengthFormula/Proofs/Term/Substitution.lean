import LengthFormula.Term.Evaluation

/-!
# Putting terms in for variables

`Term.subst` puts a term in for each variable of a term.  It keeps the height where leaves are put
in, and the value where each variable's term has the value of the variable.
-/

namespace LengthFormula.Term

/-- The term with `σ name` in the place of each variable `name`. -/
def subst (σ : String → Term) : Term → Term
  | number value => number value
  | var name => σ name
  | negate operand => negate (operand.subst σ)
  | random => random
  | binary op left right => binary op (left.subst σ) (right.subst σ)
  | call function argument => call function (argument.subst σ)
  | call2 function first second => call2 function (first.subst σ) (second.subst σ)

/-- Each variable in its own place changes nothing. -/
@[simp]
theorem subst_var (t : Term) : t.subst var = t := by
  induction t with
  | number | var | random => rfl
  | negate operand ih => rw [subst, ih]
  | binary op left right ihl ihr => rw [subst, ihl, ihr]
  | call function argument ih => rw [subst, ih]
  | call2 function first second ihf ihs => rw [subst, ihf, ihs]

/-- Leaves in the places of variables keep the height. -/
theorem height_subst {σ : String → Term} (h : ∀ name, (σ name).height = 1) (t : Term) :
    (t.subst σ).height = t.height := by
  induction t with
  | number | random => rfl
  | var name => exact h name
  | negate operand ih => rw [subst, height, height, ih]
  | binary op left right ihl ihr => rw [subst, height, height, ihl, ihr]
  | call function argument ih => rw [subst, height, height, ih]
  | call2 function first second ihf ihs => rw [subst, height, height, ihf, ihs]

/-- Terms with the values of the variables in their places keep the value, and the error. -/
theorem eval_subst {scope : Scope} {strict : Bool} {σ : String → Term}
    (h : ∀ name draws, (σ name).eval scope strict draws = (var name).eval scope strict draws)
    (t : Term) (draws : Draws) :
    (t.subst σ).eval scope strict draws = t.eval scope strict draws := by
  induction t generalizing draws with
  | number | random => rfl
  | var name => exact h name draws
  | negate operand ih => simp only [subst, eval, ih]
  | binary op left right ihl ihr => simp only [subst, eval, ihl, ihr]
  | call function argument ih => simp only [subst, eval, ih]
  | call2 function first second ihf ihs => simp only [subst, eval, ihf, ihs]

end LengthFormula.Term
