import LengthFormula.Proofs.Term.Errors

/-!
# Strict and lenient look-ups

An evaluation with strict look-ups does what the lenient one does until it comes to a name that is
not declared, and there it stops (`Term.narrows_eval`).  So strict look-ups add one kind of error
and change nothing else (`Term.eval_strict`).
-/

namespace LengthFormula

/-- All names of a list are declared. -/
def Scope.DeclaresAll (scope : Scope) (names : List String) : Prop :=
  ∀ name ∈ names, scope.contains name = true

/-- Errors other than that of a name that is not declared. -/
def EvalError.KnowsNames (e : EvalError) : Prop := ∀ name, e ≠ .undefinedVariable name

theorem EvalError.knowsNames_unknownFunction (function : String) :
    (unknownFunction function).KnowsNames := fun _ heq => nomatch heq

/-- A remainder that does not exist is not the fault of a name. -/
theorem BinaryOp.knowsNames_of_apply {op : BinaryOp} {x y : Float} {e : EvalError}
    (h : op.apply x y = .error e) : e.KnowsNames := by
  obtain ⟨-, dividend, divisor, rfl, -⟩ := of_apply_eq_error h
  exact fun name heq => nomatch heq

namespace Outcome

/-- A strict outcome beside a lenient one, with the names that are looked up from left to right. -/
inductive Narrows (scope : Scope) (names : List String) : (strict lenient : Outcome) → Prop where
  /-- All names are declared, and both have the same value. -/
  | value (x : Float) (draws : Draws) (h : scope.DeclaresAll names) :
    Narrows scope names (.ok x, draws) (.ok x, draws)
  /-- Both have the same error, and no name is to blame for it. -/
  | error {e : EvalError} (draws : Draws) (h : e.KnowsNames) :
    Narrows scope names (.error e, draws) (.error e, draws)
  /-- The strict one ends at the first name that is not declared. -/
  | undefined {before after : List String} {name : String} (draws : Draws) (lenient : Outcome)
    (split : names = before ++ name :: after) (declared : scope.DeclaresAll before)
    (missing : scope.contains name = false) :
    Narrows scope names (.error (.undefinedVariable name), draws) lenient

namespace Narrows

variable {scope : Scope} {m n : List String} {o o' : Outcome} {next next' : Float → Draws → Outcome}

/-- A result that no name is to blame for is the same in both. -/
theorem of_result {result : Except EvalError Float} (draws : Draws)
    (h : ∀ e, result = .error e → e.KnowsNames) :
    Narrows scope [] (result, draws) (result, draws) := by
  cases result with
  | ok x => exact .value x draws (List.forall_mem_nil _)
  | error e => exact .error draws (h e rfl)

/-- A look-up is made for its one name. -/
theorem lookup (scope : Scope) (name : String) (draws : Draws) :
    Narrows scope [name] (scope.lookup true name, draws) (scope.lookup false name, draws) := by
  have hcontains : scope.contains name = (scope.value? name).isSome := rfl
  rw [Scope.lookup, Scope.lookup]
  cases hvalue : scope.value? name with
  | some x =>
    rw [hvalue] at hcontains
    exact .value x draws fun other hother => List.mem_singleton.1 hother ▸ hcontains
  | none =>
    rw [hvalue] at hcontains
    have hsplit : [name] = [] ++ name :: [] := rfl
    exact .undefined draws _ hsplit (List.forall_mem_nil _) hcontains

/-- Names that are declared can come in front. -/
theorem behind (h : Narrows scope n o o') (hm : scope.DeclaresAll m) :
    Narrows scope (m ++ n) o o' := by
  cases h with
  | value x draws hn => exact .value x draws (List.forall_mem_append.2 ⟨hm, hn⟩)
  | error draws hknown => exact .error draws hknown
  | undefined draws lenient split declared missing =>
    rw [split, ← List.append_assoc]
    exact .undefined draws _ rfl (List.forall_mem_append.2 ⟨hm, declared⟩) missing

/-- Of two steps the second one is made only where both first ones have the same value, and then the
names of the first one are all declared. -/
theorem andThen (h : Narrows scope m o o')
    (hnext : ∀ x draws, Narrows scope n (next x draws) (next' x draws)) :
    Narrows scope (m ++ n) (o.andThen next) (o'.andThen next') := by
  cases h with
  | value x draws hm => exact (hnext x draws).behind hm
  | error draws hknown => exact .error draws hknown
  | undefined draws lenient split declared missing =>
    rw [split, List.append_assoc, List.cons_append]
    exact .undefined draws _ rfl declared missing

/-- A result of the value that no name is to blame for looks up no further name. -/
theorem andThen_result (h : Narrows scope m o o') {result : Float → Except EvalError Float}
    (hresult : ∀ x e, result x = .error e → e.KnowsNames) :
    Narrows scope m (o.andThen fun x draws => (result x, draws))
      (o'.andThen fun x draws => (result x, draws)) := by
  rw [← List.append_nil m]
  exact h.andThen fun x draws => .of_result draws (hresult x)

theorem andThen_value (h : Narrows scope m o o') (f : Float → Float) :
    Narrows scope m (o.andThen fun x draws => (.ok (f x), draws))
      (o'.andThen fun x draws => (.ok (f x), draws)) :=
  h.andThen_result fun _ _ he => nomatch he

/-- The strict outcome is a value where the lenient one is that and all names are declared. -/
theorem eq_ok_iff (h : Narrows scope m o o') (x : Float) (rest : Draws) :
    o = (.ok x, rest) ↔ o' = (.ok x, rest) ∧ scope.DeclaresAll m := by
  cases h with
  | value y draws hm => exact (and_iff_left hm).symm
  | error draws hknown => exact iff_of_false (fun heq => nomatch heq) fun h => nomatch h.1
  | undefined draws lenient split declared missing =>
    refine iff_of_false (fun heq => nomatch heq) fun h => ?_
    have hdeclared := h.2 _ (split ▸ List.mem_append_right _ List.mem_cons_self)
    rw [missing] at hdeclared
    cases hdeclared

/-- An error of the strict outcome that no name is to blame for is the error of the lenient one. -/
theorem eq_of_knowsNames (h : Narrows scope m o o') {e : EvalError} (he : o.1 = .error e)
    (hknown : e.KnowsNames) : o' = o := by
  cases h with
  | value x draws hm => rfl
  | error draws h => rfl
  | undefined draws lenient split declared missing =>
    cases he
    exact absurd rfl (hknown _)

/-- The name that the strict outcome blames is the first one that is not declared. -/
theorem exists_split (h : Narrows scope m o o') {name : String}
    (he : o.1 = .error (.undefinedVariable name)) :
    ∃ before after, m = before ++ name :: after ∧ scope.DeclaresAll before ∧
      scope.contains name = false := by
  cases h with
  | value x draws hm => cases he
  | error draws hknown =>
    cases he
    exact absurd rfl (hknown name)
  | undefined draws lenient split declared missing =>
    cases he
    exact ⟨_, _, split, declared, missing⟩

end Narrows

end Outcome

namespace Term

/-- A strict evaluation goes along with the lenient one through the names at the leaves. -/
theorem narrows_eval (scope : Scope) (t : Term) (draws : Draws) :
    Outcome.Narrows scope t.leafNames (t.eval scope true draws) (t.eval scope false draws) := by
  induction t generalizing draws with
  | number x => exact .value x draws (List.forall_mem_nil _)
  | random => exact .value draws.head draws.tail (List.forall_mem_nil _)
  | var name => exact .lookup scope name draws
  | negate operand ih => exact (ih draws).andThen_value Neg.neg
  | binary op left right ihl ihr =>
    exact (ihl draws).andThen fun x rest =>
      (ihr rest).andThen_result fun y e he => BinaryOp.knowsNames_of_apply he
  | call function argument ih =>
    rw [leafNames, eval, eval]
    -- An unknown function is noticed before any name is looked up.
    cases Builtin.unary? function with
    | none => exact .error draws (EvalError.knowsNames_unknownFunction function)
    | some f => exact (ih draws).andThen_value f
  | call2 function first second ihf ihs =>
    rw [leafNames, eval, eval]
    cases Builtin.binary? function with
    | none => exact .error draws (EvalError.knowsNames_unknownFunction function)
    | some f => exact (ihf draws).andThen fun x rest => (ihs rest).andThen_value (f x)

/-- Strict look-ups only add an error.  They give the values that lenient ones give where all names
at the leaves are declared; they fail in the other ways in which lenient ones fail; and else they
fail at the leftmost leaf whose name is not declared.  Where both do the same, they also leave the
same draws. -/
theorem eval_strict (scope : Scope) (t : Term) (draws : Draws) :
    (∀ x rest, t.eval scope true draws = (.ok x, rest) ↔
      t.eval scope false draws = (.ok x, rest) ∧
        ∀ name ∈ t.leafNames, scope.contains name = true) ∧
    (∀ e rest, t.eval scope true draws = (.error e, rest) → (∀ name, e ≠ .undefinedVariable name) →
      t.eval scope false draws = (.error e, rest)) ∧
    ∀ name rest, t.eval scope true draws = (.error (.undefinedVariable name), rest) →
      ∃ before after, t.leafNames = before ++ name :: after ∧
        (∀ other ∈ before, scope.contains other = true) ∧ scope.contains name = false := by
  have hnarrows := narrows_eval scope t draws
  refine ⟨hnarrows.eq_ok_iff, ?_, ?_⟩
  · intro e rest he hknown
    rw [hnarrows.eq_of_knowsNames (congrArg Prod.fst he) hknown, he]
  · intro name rest he
    exact hnarrows.exists_split (congrArg Prod.fst he)

/-- In `e+ghost%0` the strict evaluation blames `ghost`, although there is no remainder either. -/
theorem eval_strict_ghost :
    ∃ before after, ["e", "ghost"] = before ++ "ghost" :: after ∧
      (∀ other ∈ before, Scope.initial.contains other = true) ∧
      Scope.initial.contains "ghost" = false := by
  have he : Scope.initial.value? "e" = some 2.718281828459045 := by decide +kernel
  have hghost : Scope.initial.value? "ghost" = none := by decide +kernel
  have heval : (binary .add (var "e") (binary .mod (var "ghost") (number 0))).eval
      Scope.initial true (Draws.cycle [])
        = (.error (.undefinedVariable "ghost"), Draws.cycle []) := by
    simp [eval, Scope.lookup, he, hghost, Outcome.andThen]
  exact (eval_strict Scope.initial _ (Draws.cycle [])).2.2 "ghost" _ heval

end Term

end LengthFormula
