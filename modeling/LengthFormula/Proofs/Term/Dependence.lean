import LengthFormula.Proofs.Scope.Consistency
import LengthFormula.Proofs.Term.Errors
import LengthFormula.Term.Variables

/-!
# What the value of a term depends on

A term depends on its scope only through the values of the names at its leaves (`Term.eval_congr`),
and on nothing at all if it is constant (`Term.exists_result_of_isConstant`).  The leaves are the
variables that `collectVariables` reports and the built-in constants, so no dependency is left out
of the report (`Term.eval_depends_on_reported`).
-/

namespace LengthFormula

theorem isBuiltinConstant_iff {name : String} :
    isBuiltinConstant name = true ↔ name ∈ builtinConstants.map Prod.fst := by
  simp only [isBuiltinConstant, List.any_eq_true, beq_iff_eq, List.mem_map]

/-- A look-up depends on nothing but the value of the name. -/
theorem Scope.lookup_congr {scope other : Scope} {name : String}
    (h : scope.value? name = other.value? name) (strict : Bool) :
    scope.lookup strict name = other.lookup strict name := by
  rw [lookup, lookup, h]

namespace Term

variable {scope other : Scope} {strict : Bool} {t : Term}

/-! ## Constant terms -/

/-- A constant term has one value or one error, in every scope and whatever the draws are, and takes
none of them. -/
theorem exists_result_of_isConstant (h : t.isConstant = true) :
    ∃ result, ∀ scope strict draws, t.eval scope strict draws = (result, draws) := by
  induction t with
  | number value => exact ⟨.ok value, fun _ _ _ => rfl⟩
  | var name => cases h
  | random => cases h
  | negate operand ih =>
    obtain ⟨result, hresult⟩ := ih h
    exact ⟨result.map Neg.neg, fun scope strict draws => by
      rw [eval, hresult]
      cases result <;> rfl⟩
  | binary op left right ihl ihr =>
    rw [isConstant, Bool.and_eq_true] at h
    obtain ⟨l, hl⟩ := ihl h.1
    obtain ⟨r, hr⟩ := ihr h.2
    exact ⟨l.bind fun x => r.bind fun y => op.apply x y, fun scope strict draws => by
      simp only [eval, hl, hr]
      cases l with
      | error e => rfl
      | ok x => cases r <;> rfl⟩
  | call function argument ih =>
    obtain ⟨result, hresult⟩ := ih h
    cases hf : Builtin.unary? function with
    | none => exact ⟨.error (.unknownFunction function), fun _ _ _ => by rw [eval, hf]⟩
    | some f =>
      exact ⟨result.map f, fun scope strict draws => by
        simp only [eval, hf, hresult]
        cases result <;> rfl⟩
  | call2 function first second ihf ihs =>
    rw [isConstant, Bool.and_eq_true] at h
    obtain ⟨x, hx⟩ := ihf h.1
    obtain ⟨y, hy⟩ := ihs h.2
    cases hf : Builtin.binary? function with
    | none => exact ⟨.error (.unknownFunction function), fun _ _ _ => by rw [eval, hf]⟩
    | some f =>
      exact ⟨x.bind fun a => y.map (f a), fun scope strict draws => by
        simp only [eval, hf, hx, hy]
        cases x with
        | error e => rfl
        | ok a => cases y <;> rfl⟩

/-! ## Names at the leaves -/

/-- Scopes that agree on the names at the leaves give the same value, or the same error. -/
theorem eval_congr (h : ∀ name ∈ t.leafNames, scope.value? name = other.value? name)
    (strict : Bool) (draws : Draws) : t.eval scope strict draws = t.eval other strict draws := by
  induction t generalizing draws with
  | number | random => rfl
  | var name => rw [eval, eval, Scope.lookup_congr (h name (List.mem_singleton.2 rfl))]
  | negate operand ih => simp only [eval, ih h]
  | binary op left right ihl ihr =>
    obtain ⟨hl, hr⟩ := List.forall_mem_append.1 h
    simp only [eval, ihl hl, ihr hr]
  | call function argument ih => simp only [eval, ih h]
  | call2 function first second ihf ihs =>
    obtain ⟨hf, hs⟩ := List.forall_mem_append.1 h
    simp only [eval, ihf hf, ihs hs]

theorem mem_addVariable_iff {names : List String} {name x : String} :
    x ∈ addVariable names name ↔ x ∈ names ∨ x = name ∧ isBuiltinConstant x = false := by
  rw [addVariable]
  split
  · next hskip =>
    refine ⟨Or.inl, ?_⟩
    rintro (hx | ⟨rfl, hconstant⟩)
    · exact hx
    · rwa [hconstant, Bool.false_or, List.contains_iff_mem] at hskip
  · next hskip =>
    rw [Bool.not_eq_true, Bool.or_eq_false_iff] at hskip
    rw [List.mem_append, List.mem_singleton]
    refine or_congr_right ⟨?_, And.left⟩
    rintro rfl
    exact ⟨rfl, hskip.1⟩

/-- The list with the variables of a term holds its old names and the names at the leaves that are
no built-in constants. -/
theorem mem_collectVariables_iff {names : List String} {x : String} :
    x ∈ t.collectVariables names ↔
      x ∈ names ∨ x ∈ t.leafNames ∧ isBuiltinConstant x = false := by
  induction t generalizing names with
  | number | random => simp [collectVariables, leafNames]
  | var name =>
    rw [collectVariables, mem_addVariable_iff, leafNames, List.mem_singleton]
  | negate operand ih => exact ih
  | binary op left right ihl ihr =>
    rw [collectVariables, ihr, ihl, leafNames, List.mem_append, or_and_right, or_assoc]
  | call function argument ih => exact ih
  | call2 function first second ihf ihs =>
    rw [collectVariables, ihs, ihf, leafNames, List.mem_append, or_and_right, or_assoc]

/-- The names on which a term is allowed to depend: those that it reports, and the built-in
constants, which it never reports. -/
def Reports (t : Term) (name : String) : Prop :=
  isBuiltinConstant name = true ∨ name ∈ t.collectVariables []

theorem reports_of_mem_leafNames {name : String} (h : name ∈ t.leafNames) : t.Reports name := by
  rw [Reports, mem_collectVariables_iff]
  cases hconstant : isBuiltinConstant name with
  | true => exact .inl rfl
  | false => exact .inr (.inr ⟨h, rfl⟩)

/-- Scopes that agree on the reported variables of a term and on the built-in constants give it the
same value, or the same error.  So it does not matter what is declared under any other name, where
names that differ in letter case only are one. -/
theorem eval_depends_on_reported (t : Term) :
    (∀ scope other : Scope, (∀ name, t.Reports name → scope.value? name = other.value? name) →
      ∀ strict draws, t.eval scope strict draws = t.eval other strict draws) ∧
    ∀ name, (∀ reported, t.Reports reported → lowerCase reported ≠ lowerCase name) →
      ∀ (scope : Scope) value strict draws,
        t.eval (scope.declare name value) strict draws = t.eval scope strict draws := by
  have hagree : ∀ scope other : Scope,
      (∀ name, t.Reports name → scope.value? name = other.value? name) →
        ∀ strict draws, t.eval scope strict draws = t.eval other strict draws := by
    intro scope other h
    exact eval_congr fun name hname => h name (reports_of_mem_leafNames hname)
  refine ⟨hagree, ?_⟩
  intro name hname scope value
  refine hagree _ _ fun reported hreported => ?_
  rw [Scope.value?_declare, if_neg (hname reported hreported).symm]

/-- In `X+pi` the value of `Y` does not matter, in strict look-ups as well. -/
theorem eval_depends_on_reported_sum :
    (binary .add (var "X") (var "pi")).eval ((Scope.initial.declare "x" 1.0).declare "Y" 2.0) true
        (Draws.cycle [])
      = (binary .add (var "X") (var "pi")).eval (Scope.initial.declare "x" 1.0) true
          (Draws.cycle []) := by
  refine (eval_depends_on_reported (binary .add (var "X") (var "pi"))).2 "Y" ?_ _ 2.0 true _
  have hbuiltin : ∀ name ∈ builtinConstants.map Prod.fst, lowerCase name ≠ lowerCase "Y" := by
    decide +kernel
  have hreported : ∀ name ∈ (binary .add (var "X") (var "pi")).collectVariables [],
      lowerCase name ≠ lowerCase "Y" := by decide +kernel
  rintro name (hname | hname)
  · exact hbuiltin name (isBuiltinConstant_iff.1 hname)
  · exact hreported name hname

end Term

end LengthFormula
