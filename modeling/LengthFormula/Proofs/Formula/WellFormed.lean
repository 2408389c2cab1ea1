import LengthFormula.Proofs.Formula.Acceptance
import LengthFormula.Proofs.Formula.BareNames
import LengthFormula.Proofs.Term.Errors

/-!
# Parsed terms suit the evaluator

What derives from the grammar calls only built-in functions, and no variable in it is fixed or
stands for a random draw.  So the term of a formula has a value unless a remainder does not exist,
or, in strict look-ups, unless a variable is not declared (`Formula.parse_wellFormed`).
-/

namespace LengthFormula

/-! ## Trees of the grammar -/

/-- A name at a leaf that the scope leaves to the evaluation. -/
def Scope.LeavesOpen (scope : Scope) (name : String) : Prop :=
  name ≠ Builtin.randomName ∧ scope.isFixed name = false

instance (scope : Scope) (name : String) : Decidable (scope.LeavesOpen name) :=
  inferInstanceAs (Decidable (_ ∧ _))

section Trees

variable {scope : Scope} {levels : Nat} {r : Rank} {ks rest : List TokenKind} {t : Term}

theorem Scope.callsBuiltins_nameTerm (scope : Scope) (name : String) :
    (scope.nameTerm name).CallsBuiltins := by
  unfold nameTerm
  split
  · trivial
  · split <;> trivial

/-- A name becomes a variable only if the scope leaves it open. -/
theorem Scope.leavesOpen_of_mem_nameTerm {scope : Scope} {name leaf : String}
    (h : leaf ∈ (scope.nameTerm name).leafNames) : scope.LeavesOpen leaf := by
  unfold nameTerm at h
  split at h
  · cases h
  · next hrandom =>
    split at h
    · cases h
    · next hfixed =>
      obtain rfl := List.mem_singleton.1 h
      exact ⟨hrandom, Bool.eq_false_iff.2 hfixed⟩

/-- All calls in the tree of a phrase are of built-in functions. -/
theorem Derives.callsBuiltins (h : Derives scope levels r ks t rest) : t.CallsBuiltins := by
  induction h with
  | operand _ ih => exact ih
  | join _ _ _ ihl ihr => exact ⟨ihl, ihr⟩
  | number | random => trivial
  | name => exact scope.callsBuiltins_nameTerm _
  | call hname _ ih => exact ⟨hname, ih⟩
  | call2 hname _ _ ihf ihs => exact ⟨hname, ihf, ihs⟩
  | minus _ _ ih => exact ih
  | plus _ _ ih => exact ih
  | paren _ ih => exact ih

/-- All variables in the tree of a phrase are left open. -/
theorem Derives.leavesOpen (h : Derives scope levels r ks t rest) :
    ∀ leaf ∈ t.leafNames, scope.LeavesOpen leaf := by
  induction h with
  | operand _ ih => exact ih
  | join _ _ _ ihl ihr => exact List.forall_mem_append.2 ⟨ihl, ihr⟩
  | number | random => exact fun _ hleaf => nomatch hleaf
  | name => exact fun _ hleaf => Scope.leavesOpen_of_mem_nameTerm hleaf
  | call _ _ ih => exact ih
  | call2 _ _ _ ihf ihs => exact List.forall_mem_append.2 ⟨ihf, ihs⟩
  | minus _ _ ih => exact ih
  | plus _ _ ih => exact ih
  | paren _ ih => exact ih

theorem Scope.leafNames_nameTerm (scope : Scope) (name : String) :
    (scope.nameTerm name).leafNames = if scope.LeavesOpen name then [name] else [] := by
  unfold nameTerm
  split
  · next hrandom => exact (if_neg fun h => h.1 hrandom).symm
  · next hrandom =>
    split
    · next hfixed =>
      refine (if_neg fun h => ?_).symm
      rw [h.2] at hfixed
      cases hfixed
    · next hfixed => exact (if_pos ⟨hrandom, Bool.eq_false_iff.2 hfixed⟩).symm

/-- The variables in the tree of a phrase are the bare names of its text that are left open, each as
often as it stands there and in the same order. -/
theorem Derives.filter_bareNames (h : Derives scope levels r ks t rest) :
    (bareNames ks).filter scope.LeavesOpen
      = t.leafNames ++ (bareNames rest).filter scope.LeavesOpen := by
  induction h with
  | operand _ ih => exact ih
  | join _ hop _ ihl ihr =>
    rw [ihl, bareNames_cons (Chain.isLeaf_of_operator? hop), ihr, Term.leafNames,
      List.append_assoc]
  | number | random => rfl
  | @name _ name rest hhead =>
    rw [bareNames_bare hhead, List.filter_cons, scope.leafNames_nameTerm]
    by_cases hopen : scope.LeavesOpen name
    · rw [if_pos (decide_eq_true hopen), if_pos hopen, List.singleton_append]
    · rw [if_neg (by simpa using hopen), if_neg hopen, List.nil_append]
  | call _ _ ih => exact ih
  | call2 _ _ _ ihf ihs =>
    rw [bareNames_called, ihf, bareNames_cons rfl, ihs, bareNames_cons rfl, Term.leafNames,
      List.append_assoc]
  | minus _ _ ih => exact ih
  | plus _ _ ih => exact ih
  | paren _ ih => exact ih

end Trees

/-! ## Terms of formulas -/

namespace Formula

/-- The term of a formula calls only built-in functions, with the right number of arguments, and
none of its variables is fixed or is the name of a random draw.  So it is never refused as an
unknown function or as no formula, in any scope and for any draws: an evaluation fails only with a
remainder that does not exist, or, if look-ups are strict, with a variable that is not declared.
Where look-ups are lenient and no remainder is taken, there is a value. -/
theorem parse_wellFormed {scope : Scope} {convert : Converter} {text : String} {f : Formula}
    (h : parse scope convert text = .ok f) :
    f.term.CallsBuiltins ∧
      (∀ leaf ∈ f.term.leafNames, leaf ≠ Builtin.randomName ∧ scope.isFixed leaf = false) ∧
      (∀ (here : Scope) (strict : Bool) (draws : Draws) (e : EvalError),
        (f.term.eval here strict draws).1 = .error e → f.term.CanFailWith here strict e) ∧
      (f.term.takesRemainder = false →
        ∀ (here : Scope) (draws : Draws), ∃ x, (f.term.eval here false draws).1 = .ok x) := by
  obtain ⟨ls, trail, -, -, hderives, -, -⟩ := exists_of_parse h
  have hcalls := hderives.callsBuiltins
  refine ⟨hcalls, hderives.leavesOpen, ?_, ?_⟩
  · intro here strict draws e herror
    exact Term.canFailWith_of_eval hcalls herror
  · intro hremainder here draws
    exact Term.exists_value_of_eval hcalls hremainder draws

/-- In `max(x,-y)*random` the call is of a built-in function, and it has a value where neither
variable is declared. -/
theorem parse_wellFormed_product :
    (Term.binary .mul (.call2 "max" (.var "x") (.negate (.var "y"))) .random).CallsBuiltins ∧
      ∃ x, ((Term.binary .mul (.call2 "max" (.var "x") (.negate (.var "y"))) .random).eval
        Scope.empty false (Draws.cycle [])).1 = .ok x := by
  have hparse : parse Scope.empty readLength? "max(x,-y)*random" = .ok
      ⟨.binary .mul (.call2 "max" (.var "x") (.negate (.var "y"))) .random, "max(x,-y)*random"⟩ :=
    eq_ok_of_toOption (by decide +kernel)
  obtain ⟨hcalls, -, -, hvalue⟩ := parse_wellFormed hparse
  exact ⟨hcalls, hvalue (by decide) Scope.empty (Draws.cycle [])⟩

end Formula

end LengthFormula
