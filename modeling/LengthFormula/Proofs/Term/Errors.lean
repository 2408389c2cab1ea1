import LengthFormula.Term.Evaluation

/-!
# What can go wrong in an evaluation

A term whose calls are all of built-in functions fails for two reasons only: a remainder that does
not exist, and in strict look-ups a variable that is not declared (`canFailWith_of_eval`).  So a
lenient look-up in a term that takes no remainder gives a value (`exists_value_of_eval`).
-/

namespace LengthFormula

/-- Where the first of two steps fails the whole fails, and else the second one does. -/
theorem Outcome.of_andThen_eq_error {o : Outcome} {next : Float → Draws → Outcome} {e : EvalError}
    (h : (o.andThen next).1 = .error e) :
    o.1 = .error e ∨ ∃ x draws, (next x draws).1 = .error e := by
  obtain ⟨value, draws⟩ := o
  cases value with
  | error e' => exact .inl h
  | ok x => exact .inr ⟨x, draws, h⟩

/-- A remainder fails only where it does not exist. -/
theorem of_modulo_eq_error {x y : Float} {e : EvalError} (h : modulo x y = .error e) :
    ∃ dividend divisor,
      e = .invalidModulo dividend divisor ∧ remainder? dividend divisor = none := by
  unfold modulo at h
  generalize Double.toInt64 (Double.roundHalfUp x) = dividend at h
  generalize Double.toInt64 (Double.roundHalfUp y) = divisor at h
  cases hr : remainder? dividend divisor with
  | some r =>
    simp only [hr] at h
    cases h
  | none =>
    simp only [hr] at h
    cases h
    exact ⟨dividend, divisor, rfl, hr⟩

/-- Of the operators only the remainder fails. -/
theorem BinaryOp.of_apply_eq_error {op : BinaryOp} {x y : Float} {e : EvalError}
    (h : op.apply x y = .error e) :
    op = .mod ∧ ∃ dividend divisor,
      e = .invalidModulo dividend divisor ∧ remainder? dividend divisor = none := by
  cases op with
  | mod => exact ⟨rfl, of_modulo_eq_error h⟩
  | _ => cases h

/-- A look-up fails only if it is strict and the name is not declared. -/
theorem Scope.of_lookup_eq_error {scope : Scope} {strict : Bool} {name : String} {e : EvalError}
    (h : scope.lookup strict name = .error e) :
    strict = true ∧ e = .undefinedVariable name ∧ scope.contains name = false := by
  unfold lookup at h
  split at h
  · cases h
  · next hnone =>
    split at h
    · next hstrict =>
      cases h
      refine ⟨hstrict, rfl, ?_⟩
      rw [value?] at hnone
      rw [contains, Table.has, hnone, Option.isSome_none]
    · cases h

namespace Term

/-- Every call is one of a built-in function that takes as many arguments as are given. -/
def CallsBuiltins : Term → Prop
  | number _ | var _ | random => True
  | negate operand => operand.CallsBuiltins
  | binary _ left right => left.CallsBuiltins ∧ right.CallsBuiltins
  | call function argument => (Builtin.unary? function).isSome ∧ argument.CallsBuiltins
  | call2 function first second =>
    (Builtin.binary? function).isSome ∧ first.CallsBuiltins ∧ second.CallsBuiltins

/-- The names at the leaves, from left to right. -/
def leafNames : Term → List String
  | number _ | random => []
  | var name => [name]
  | negate operand => operand.leafNames
  | binary _ left right => left.leafNames ++ right.leafNames
  | call _ argument => argument.leafNames
  | call2 _ first second => first.leafNames ++ second.leafNames

/-- A remainder is taken somewhere in the term. -/
def takesRemainder : Term → Bool
  | number _ | var _ | random => false
  | negate operand => operand.takesRemainder
  | binary op left right => op == .mod || left.takesRemainder || right.takesRemainder
  | call _ argument => argument.takesRemainder
  | call2 _ first second => first.takesRemainder || second.takesRemainder

/-- The errors in which a term that calls only built-in functions can end: a remainder that does not
exist, and a name at a leaf that is not declared, if look-ups are strict. -/
def CanFailWith (scope : Scope) (strict : Bool) (t : Term) : EvalError → Prop
  | .invalidModulo dividend divisor =>
    t.takesRemainder = true ∧ remainder? dividend divisor = none
  | .undefinedVariable name => strict = true ∧ name ∈ t.leafNames ∧ scope.contains name = false
  | .noFormula | .unknownFunction _ => False

section Errors

variable {scope : Scope} {strict : Bool} {part t : Term} {e : EvalError}

/-- A term can fail with what a part of it can fail with. -/
theorem CanFailWith.of_part (h : part.CanFailWith scope strict e)
    (hnames : ∀ name ∈ part.leafNames, name ∈ t.leafNames)
    (hremainder : part.takesRemainder = true → t.takesRemainder = true) :
    t.CanFailWith scope strict e := by
  cases e with
  | invalidModulo dividend divisor => exact ⟨hremainder h.1, h.2⟩
  | undefinedVariable name => exact ⟨h.1, hnames name h.2.1, h.2.2⟩
  | noFormula | unknownFunction => exact h

/-- A term whose calls are of built-in functions fails in no other way. -/
theorem canFailWith_of_eval (hcalls : t.CallsBuiltins) {draws : Draws}
    (h : (t.eval scope strict draws).1 = .error e) : t.CanFailWith scope strict e := by
  induction t generalizing draws with
  | number | random => cases h
  | var name =>
    obtain ⟨hstrict, rfl, hname⟩ := Scope.of_lookup_eq_error h
    exact ⟨hstrict, List.mem_singleton.2 rfl, hname⟩
  | negate operand ih =>
    rcases Outcome.of_andThen_eq_error h with h | ⟨x, draws', h⟩
    · exact (ih hcalls h).of_part (fun _ => id) id
    · cases h
  | binary op left right ihl ihr =>
    rcases Outcome.of_andThen_eq_error h with h | ⟨x, draws', h⟩
    · refine (ihl hcalls.1 h).of_part (fun _ hname => List.mem_append_left _ hname) ?_
      intro hleft
      simp [takesRemainder, hleft]
    · rcases Outcome.of_andThen_eq_error h with h | ⟨y, draws'', h⟩
      · refine (ihr hcalls.2 h).of_part (fun _ hname => List.mem_append_right _ hname) ?_
        intro hright
        simp [takesRemainder, hright]
      · obtain ⟨rfl, dividend, divisor, rfl, hnone⟩ := BinaryOp.of_apply_eq_error h
        exact ⟨rfl, hnone⟩
  | call function argument ih =>
    obtain ⟨f, hf⟩ := Option.isSome_iff_exists.1 hcalls.1
    simp only [eval, hf] at h
    rcases Outcome.of_andThen_eq_error h with h | ⟨x, draws', h⟩
    · exact (ih hcalls.2 h).of_part (fun _ => id) id
    · cases h
  | call2 function first second ihf ihs =>
    obtain ⟨f, hf⟩ := Option.isSome_iff_exists.1 hcalls.1
    simp only [eval, hf] at h
    rcases Outcome.of_andThen_eq_error h with h | ⟨x, draws', h⟩
    · refine (ihf hcalls.2.1 h).of_part (fun _ hname => List.mem_append_left _ hname) ?_
      intro hfirst
      simp [takesRemainder, hfirst]
    · rcases Outcome.of_andThen_eq_error h with h | ⟨y, draws'', h⟩
      · refine (ihs hcalls.2.2 h).of_part (fun _ hname => List.mem_append_right _ hname) ?_
        intro hsecond
        simp [takesRemainder, hsecond]
      · cases h

/-- Without a remainder there is always a value, if look-ups are lenient. -/
theorem exists_value_of_eval (hcalls : t.CallsBuiltins) (hremainder : t.takesRemainder = false)
    (draws : Draws) : ∃ x, (t.eval scope false draws).1 = .ok x := by
  cases h : (t.eval scope false draws).1 with
  | ok x => exact ⟨x, rfl⟩
  | error e =>
    have hfail := canFailWith_of_eval hcalls h
    cases e with
    | invalidModulo dividend divisor =>
      rw [hfail.1] at hremainder
      cases hremainder
    | undefinedVariable name => cases hfail.1
    | noFormula | unknownFunction => cases hfail

end Errors

end Term

end LengthFormula
