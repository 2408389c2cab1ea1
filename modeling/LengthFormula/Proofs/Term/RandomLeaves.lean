import LengthFormula.Term.Evaluation

/-!
# The random leaves of a term

Evaluation takes the draws in the order in which the random leaves of a term stand.  So a value, or
an error, stays the same if each random leaf is replaced by the draw that is its own
(`Term.eval_putDraws`).  A value comes with one draw taken for each leaf, and an error with no more
than that (`Term.takes_eval`).
-/

namespace LengthFormula

namespace Draws

/-- The draws behind the next `count` ones. -/
def skip (count : Nat) (d : Draws) : Draws := { d with used := d.used + count }

@[simp]
theorem stream_skip (count : Nat) (d : Draws) : (d.skip count).stream = d.stream := rfl

@[simp]
theorem used_skip (count : Nat) (d : Draws) : (d.skip count).used = d.used + count := rfl

theorem skip_skip (m n : Nat) (d : Draws) : (d.skip m).skip n = d.skip (m + n) := by
  rw [skip, skip, skip, Nat.add_assoc]

end Draws

namespace Outcome

/-- An outcome with leaves to draw for: a value takes one draw for each of them, and an error may
have stopped before the last. -/
inductive Takes (draws : Draws) (leaves : Nat) : Outcome → Prop where
  | value (x : Float) : Takes draws leaves (.ok x, draws.skip leaves)
  | error (e : EvalError) {taken : Nat} (h : taken ≤ leaves) :
    Takes draws leaves (.error e, draws.skip taken)

namespace Takes

variable {draws : Draws} {m n : Nat} {o : Outcome} {next : Float → Draws → Outcome}

/-- A result that comes with all draws takes none. -/
theorem none (result : Except EvalError Float) (draws : Draws) : Takes draws 0 (result, draws) := by
  cases result with
  | ok x => exact .value x
  | error e => exact .error e (Nat.le_refl 0)

/-- What takes draws behind others takes them all, counted from the first one. -/
theorem behind (h : Takes (draws.skip m) n o) : Takes draws (m + n) o := by
  cases h with
  | value x =>
    rw [Draws.skip_skip]
    exact .value x
  | error e hle =>
    rw [Draws.skip_skip]
    exact .error e (Nat.add_le_add_left hle m)

/-- Two steps take what the first one takes and, if that has a value, what the second one takes. -/
theorem andThen (h : Takes draws m o)
    (hnext : ∀ x, Takes (draws.skip m) n (next x (draws.skip m))) :
    Takes draws (m + n) (o.andThen next) := by
  cases h with
  | value x => exact (hnext x).behind
  | error e hle => exact .error e (Nat.le_add_right_of_le hle)

/-- Two steps can be replaced by steps that leave other draws alone, where the second one has to
have the same result only behind the draws of the first one. -/
theorem andThen_eq {next' : Float → Draws → Outcome} {others : Draws} (h : Takes draws m o)
    (hnext : ∀ x, next' x others = ((next x (draws.skip m)).1, others)) :
    Outcome.andThen (o.1, others) next' = ((o.andThen next).1, others) := by
  cases h with
  | value x => exact hnext x
  | error e => rfl

/-- The draws that are left come behind one draw for each leaf, or behind fewer if there is an
error. -/
theorem exists_skip (h : Takes draws n o) :
    ∃ taken ≤ n, o.2 = draws.skip taken ∧ ∀ x, o.1 = .ok x → taken = n := by
  cases h with
  | value x => exact ⟨n, Nat.le_refl n, rfl, fun _ _ => rfl⟩
  | error e hle => exact ⟨_, hle, rfl, fun _ hx => nomatch hx⟩

end Takes

end Outcome

namespace Term

/-- The number of random leaves. -/
def randomLeaves : Term → Nat
  | number _ | var _ => 0
  | negate operand => operand.randomLeaves
  | random => 1
  | binary _ left right => left.randomLeaves + right.randomLeaves
  | call _ argument => argument.randomLeaves
  | call2 _ first second => first.randomLeaves + second.randomLeaves

/-- The term with draws in the places of its random leaves: from left to right the draw `next` and
the ones after it. -/
def putDraws (stream : Nat → Float) (next : Nat) : Term → Term
  | number x => number x
  | var name => var name
  | negate operand => negate (operand.putDraws stream next)
  | random => number (stream next)
  | binary op left right =>
    binary op (left.putDraws stream next) (right.putDraws stream (next + left.randomLeaves))
  | call function argument => call function (argument.putDraws stream next)
  | call2 function first second =>
    call2 function (first.putDraws stream next) (second.putDraws stream (next + first.randomLeaves))

variable (scope : Scope) (strict : Bool)

/-- Evaluation takes one draw for each random leaf, unless an error stops it earlier. -/
theorem takes_eval (t : Term) (draws : Draws) :
    Outcome.Takes draws t.randomLeaves (t.eval scope strict draws) := by
  induction t generalizing draws with
  | number x => exact .value x
  | var name => exact .none _ draws
  | random => exact .value draws.head
  | negate operand ih => exact (ih draws).andThen fun x => .none _ _
  | binary op left right ihl ihr =>
    exact (ihl draws).andThen fun x => (ihr _).andThen fun y => .none _ _
  | call function argument ih =>
    rw [eval]
    cases Builtin.unary? function with
    | none => exact .error _ (Nat.zero_le _)
    | some f => exact (ih draws).andThen fun x => .none _ _
  | call2 function first second ihf ihs =>
    rw [eval]
    cases Builtin.binary? function with
    | none => exact .error _ (Nat.zero_le _)
    | some f => exact (ihf draws).andThen fun x => (ihs _).andThen fun y => .none _ _

/-- With the next draws in the places of its random leaves a term has the same value, or the same
error, and leaves all draws alone. -/
theorem eval_putDraws (t : Term) (draws others : Draws) :
    (t.putDraws draws.stream draws.used).eval scope strict others
      = ((t.eval scope strict draws).1, others) := by
  -- The induction is for all draws: those of a right operand come behind those of the left one.
  induction t generalizing draws with
  | number | var | random => rfl
  | negate operand ih =>
    rw [putDraws, eval, ih]
    exact (takes_eval scope strict operand draws).andThen_eq fun x => rfl
  | binary op left right ihl ihr =>
    rw [putDraws, eval, ihl]
    refine (takes_eval scope strict left draws).andThen_eq fun x => ?_
    rw [← Draws.used_skip, ← Draws.stream_skip left.randomLeaves, ihr]
    exact (takes_eval scope strict right _).andThen_eq fun y => rfl
  | call function argument ih =>
    rw [putDraws, eval, eval]
    cases Builtin.unary? function with
    | none => rfl
    | some f =>
      simp only [ih]
      exact (takes_eval scope strict argument draws).andThen_eq fun x => rfl
  | call2 function first second ihf ihs =>
    rw [putDraws, eval, eval]
    cases Builtin.binary? function with
    | none => rfl
    | some f =>
      simp only [ihf]
      refine (takes_eval scope strict first draws).andThen_eq fun x => ?_
      rw [← Draws.used_skip, ← Draws.stream_skip first.randomLeaves, ihs]
      exact (takes_eval scope strict second _).andThen_eq fun y => rfl

/-- Places are counted on through both operands and both arguments. -/
example (stream : Nat → Float) :
    putDraws stream 3 (binary .sub random (call2 "max" (negate random) random))
      = binary .sub (number (stream 3))
          (call2 "max" (negate (number (stream 4))) (number (stream 5))) := rfl

end Term

end LengthFormula
