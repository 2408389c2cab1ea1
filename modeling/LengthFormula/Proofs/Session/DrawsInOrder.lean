import LengthFormula.Proofs.Session.Use
import LengthFormula.Proofs.Term.RandomLeaves

/-!
# Draws are taken in order

A session hands on the draws that an evaluation leaves, and its actions take none.  So each
evaluation of a row of steps goes on with the next unused draw, whatever was asked of the session in
between (`Session.draws_in_order`).
-/

namespace LengthFormula.Session

/-- The number of random leaves of the formula. -/
def randomLeaves (s : Session) : Nat :=
  match s.term with
  | some t => t.randomLeaves
  | none => 0

/-- The session with draws in the places of the random leaves of its formula. -/
def putDraws (s : Session) (stream : Nat → Float) (next : Nat) : Session :=
  { s with term := s.term.map (Term.putDraws stream next) }

theorem takes_evaluate (s : Session) (draws : Draws) :
    Outcome.Takes draws s.randomLeaves (s.evaluate draws) := by
  rw [randomLeaves, evaluate]
  cases s.term with
  | none => exact .error _ (Nat.zero_le _)
  | some t => exact t.takes_eval s.scope s.strict draws

theorem evaluate_putDraws (s : Session) (draws others : Draws) :
    (s.putDraws draws.stream draws.used).evaluate others = ((s.evaluate draws).1, others) := by
  rw [putDraws, evaluate, evaluate]
  cases s.term with
  | none => rfl
  | some t => exact t.eval_putDraws s.scope s.strict draws others

namespace InUse

/-- The session behind a row of steps. -/
def after (convert : Converter) : InUse → List Step → InUse
  | u, [] => u
  | u, step :: steps => after convert (u.step convert step).2 steps

/-- The number of random leaves that a step evaluates. -/
def leavesAt (u : InUse) : Step → Nat
  | .act _ => 0
  | .evaluate => u.session.randomLeaves

/-- The number of random leaves that a row of steps evaluates, each evaluation with the formula that
the session has by then. -/
def leavesAsked (convert : Converter) : InUse → List Step → Nat
  | _, [] => 0
  | u, step :: steps => u.leavesAt step + leavesAsked convert (u.step convert step).2 steps

/-- A step takes the next draws, one for each random leaf, or fewer in an evaluation that fails. -/
theorem exists_skip_step (convert : Converter) (u : InUse) (step : Step) :
    ∃ taken ≤ u.leavesAt step, (u.step convert step).2.draws = u.draws.skip taken ∧
      ((∀ e, (u.step convert step).1 ≠ .evaluated (.error e)) → taken = u.leavesAt step) := by
  cases step with
  | act a => exact ⟨0, Nat.le_refl 0, rfl, fun _ => rfl⟩
  | evaluate =>
    obtain ⟨taken, hle, hdraws, hall⟩ := (u.session.takes_evaluate u.draws).exists_skip
    refine ⟨taken, hle, hdraws, fun hvalue => ?_⟩
    cases hresult : (u.session.evaluate u.draws).1 with
    | ok x => exact hall x hresult
    | error e => exact absurd (congrArg Response.evaluated hresult) (hvalue e)

/-- The steps of a row take the next draws one after the other. -/
theorem exists_skip_after (convert : Converter) (u : InUse) (steps : List Step) :
    ∃ taken ≤ u.leavesAsked convert steps, (u.after convert steps).draws = u.draws.skip taken ∧
      ((∀ entry ∈ u.history convert steps, ∀ e, entry.1 ≠ .evaluated (.error e)) →
        taken = u.leavesAsked convert steps) := by
  induction steps generalizing u with
  | nil => exact ⟨0, Nat.le_refl 0, rfl, fun _ => rfl⟩
  | cons step steps ih =>
    obtain ⟨first, hfirst, hdraws, hallFirst⟩ := exists_skip_step convert u step
    obtain ⟨later, hlater, hafter, hallLater⟩ := ih (u.step convert step).2
    refine ⟨first + later, Nat.add_le_add hfirst hlater, ?_, fun hvalues => ?_⟩
    · rw [after, hafter, hdraws, Draws.skip_skip]
    · obtain ⟨hvalue, hvalues⟩ := List.forall_mem_cons.1 hvalues
      rw [hallFirst hvalue, hallLater hvalues, leavesAsked]

end InUse

/-- Random leaves take the draws one by one, from left to right.  A term answers what it answers
with the next draws in the places of its leaves; a value comes with one draw taken for each leaf,
and an error with no more than that.  Through any row of steps each evaluation goes on with the next
draw that no earlier evaluation has taken: one for each leaf, if all of those have values. -/
theorem draws_in_order :
    (∀ (scope : Scope) (strict : Bool) (t : Term) (draws : Draws),
      (∀ others, (t.putDraws draws.stream draws.used).eval scope strict others
        = ((t.eval scope strict draws).1, others)) ∧
      ∃ taken ≤ t.randomLeaves, (t.eval scope strict draws).2 = draws.skip taken ∧
        ∀ x, (t.eval scope strict draws).1 = .ok x → taken = t.randomLeaves) ∧
    ∀ (convert : Converter) (u : InUse) (steps : List Step),
      ∃ taken ≤ u.leavesAsked convert steps,
        (u.after convert steps).draws = u.draws.skip taken ∧
        ((∀ entry ∈ u.history convert steps, ∀ e, entry.1 ≠ .evaluated (.error e)) →
          taken = u.leavesAsked convert steps) ∧
        ∃ result, ((u.after convert steps).step convert .evaluate).1 = .evaluated result ∧
          ∀ others, ((u.after convert steps).session.putDraws u.draws.stream
            (u.draws.used + taken)).evaluate others = (result, others) := by
  constructor
  · intro scope strict t draws
    exact ⟨t.eval_putDraws scope strict draws, (t.takes_eval scope strict draws).exists_skip⟩
  · intro convert u steps
    obtain ⟨taken, hle, hdraws, hall⟩ := InUse.exists_skip_after convert u steps
    refine ⟨taken, hle, hdraws, hall,
      ((u.after convert steps).session.evaluate (u.after convert steps).draws).1, rfl, ?_⟩
    rw [hdraws]
    exact evaluate_putDraws _ (u.draws.skip taken)

/-- A difference of two draws has a value, so the next evaluation begins with the third draw. -/
theorem draws_in_order_difference :
    (InUse.after readLength? ⟨initial, Draws.cycle [0.5, 0.25]⟩
      [.act (.setText "random-random"), .evaluate]).draws.used = 2 := by
  obtain ⟨taken, -, hdraws, hall, -⟩ := draws_in_order.2 readLength?
    ⟨initial, Draws.cycle [0.5, 0.25]⟩ [.act (.setText "random-random"), .evaluate]
  have hvalue : ((initial.act readLength? (.setText "random-random")).evaluate
      (Draws.cycle [0.5, 0.25])).1 = .ok 0.25 := by decide +kernel
  have hleaves : InUse.leavesAsked readLength? ⟨initial, Draws.cycle [0.5, 0.25]⟩
      [.act (.setText "random-random"), .evaluate] = 2 := by decide +kernel
  have hvalues : ∀ entry ∈ InUse.history readLength? ⟨initial, Draws.cycle [0.5, 0.25]⟩
      [.act (.setText "random-random"), .evaluate], ∀ e, entry.1 ≠ .evaluated (.error e) := by
    simp [InUse.history, InUse.step_act, InUse.step_evaluate, hvalue]
  rw [hdraws, hall hvalues, hleaves]
  rfl

end LengthFormula.Session
