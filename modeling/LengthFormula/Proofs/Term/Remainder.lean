import LengthFormula.Term.Evaluation
import LengthFormula.Proofs.Double.WholeNumbers

/-!
# The remainder of whole numbers

On whole numbers of 64 bits the remainder operator is the integer remainder with the sign of the
dividend (`Term.eval_mod_of_isInt64`).  It does not exist where the divisor is zero or the quotient
does not fit, and where it exists it is a double itself (`Double.ofInt_tmod_exact`).

The operands are rounded half up first, and that moves an odd number beyond `2 ^ 52` to the next
one; of such operands only the existence of the remainder is stated.
-/

namespace LengthFormula

open Double (IsInt64 IsSettled isIntegral toInt toInt64 roundHalfUp minInt64 ofInt)

/-- The remainder of these integers does not exist: the divisor is zero, or the quotient is `2 ^ 63`
and does not fit. -/
def NoRemainder (dividend divisor : Int) : Prop :=
  divisor = 0 ∨ (dividend = minInt64 ∧ divisor = -1)

instance (dividend divisor : Int) : Decidable (NoRemainder dividend divisor) :=
  inferInstanceAs (Decidable (_ ∨ _))

theorem remainder?_of_noRemainder {dividend divisor : Int} (h : NoRemainder dividend divisor) :
    remainder? dividend divisor = none := by
  rw [remainder?, if_pos]
  simpa [NoRemainder] using h

theorem remainder?_of_not_noRemainder {dividend divisor : Int}
    (h : ¬ NoRemainder dividend divisor) :
    remainder? dividend divisor = some (dividend.tmod divisor) := by
  rw [remainder?, if_neg]
  simpa [NoRemainder] using h

section Modulo

variable {x y : Float} {dividend divisor : Int} (hx : toInt64 (roundHalfUp x) = dividend)
  (hy : toInt64 (roundHalfUp y) = divisor)

include hx hy

theorem modulo_of_noRemainder (h : NoRemainder dividend divisor) :
    modulo x y = .error (.invalidModulo dividend divisor) := by
  unfold modulo
  rw [hx, hy]
  dsimp only
  rw [remainder?_of_noRemainder h]

theorem modulo_of_not_noRemainder (h : ¬ NoRemainder dividend divisor) :
    modulo x y = .ok (ofInt (dividend.tmod divisor)) := by
  unfold modulo
  rw [hx, hy]
  dsimp only
  rw [remainder?_of_not_noRemainder h]

end Modulo

/-- Rounding moves no operand to or from a place that the existence of the remainder looks at. -/
theorem noRemainder_rounded_iff {x y : Float} (hx : IsInt64 x) (hy : IsInt64 y) :
    NoRemainder (toInt64 (roundHalfUp x)) (toInt64 (roundHalfUp y))
      ↔ NoRemainder (toInt x) (toInt y) := by
  have hlower := hx.lower
  rw [Double.toInt64_roundHalfUp hx, Double.toInt64_roundHalfUp hy]
  generalize toInt x = n at hlower
  generalize toInt y = m
  rw [NoRemainder, NoRemainder]
  rw [minInt64] at hlower ⊢
  split <;> split <;> omega

namespace Term

theorem eval_mod {scope : Scope} {strict : Bool} {left right : Term} {draws draws' draws'' : Draws}
    {x y : Float} (hleft : left.eval scope strict draws = (.ok x, draws'))
    (hright : right.eval scope strict draws' = (.ok y, draws'')) :
    (binary .mod left right).eval scope strict draws = (modulo x y, draws'') := by
  rw [eval, hleft]
  show (right.eval scope strict draws').andThen _ = _
  rw [hright]
  rfl

/-- Of two operands that are whole numbers of 64 bits, the remainder fails just where the divisor is
zero or the quotient does not fit.  Elsewhere it has a value, and that is the exact integer
remainder, with the sign of the dividend, of operands that are not odd beyond `2 ^ 52`. -/
theorem eval_mod_of_isInt64 {scope : Scope} {strict : Bool} {left right : Term}
    {draws draws' draws'' : Draws} {x y : Float}
    (hleft : left.eval scope strict draws = (.ok x, draws'))
    (hright : right.eval scope strict draws' = (.ok y, draws'')) (hx : IsInt64 x)
    (hy : IsInt64 y) :
    ((∃ dividend divisor, (binary .mod left right).eval scope strict draws
        = (.error (.invalidModulo dividend divisor), draws''))
      ↔ NoRemainder (toInt x) (toInt y)) ∧
    (¬ NoRemainder (toInt x) (toInt y) →
      ∃ z, (binary .mod left right).eval scope strict draws = (.ok z, draws'') ∧
        (IsSettled x → IsSettled y →
          z = ofInt ((toInt x).tmod (toInt y)) ∧ isIntegral z = true ∧
            toInt z = (toInt x).tmod (toInt y))) := by
  have hiff := noRemainder_rounded_iff hx hy
  rw [eval_mod hleft hright]
  refine ⟨⟨?_, ?_⟩, ?_⟩
  · rintro ⟨dividend, divisor, herror⟩
    refine hiff.1 (Classical.byContradiction fun hsome => ?_)
    rw [modulo_of_not_noRemainder rfl rfl hsome] at herror
    cases herror
  · intro hnone
    exact ⟨_, _, by rw [modulo_of_noRemainder rfl rfl (hiff.2 hnone)]⟩
  · intro hsome
    refine ⟨_, by rw [modulo_of_not_noRemainder rfl rfl (mt hiff.1 hsome)], fun hxs hys => ?_⟩
    rw [Double.toInt64_roundHalfUp_of_isSettled hx hxs,
      Double.toInt64_roundHalfUp_of_isSettled hy hys]
    exact ⟨rfl, Double.ofInt_tmod_exact hx.integral hy.integral⟩

/-- The least integer has a remainder by three, and the sign of the dividend. -/
theorem eval_mod_of_isInt64_least :
    ∃ z, (binary .mod (number (-9223372036854775808)) (number 3)).eval .empty true (.cycle [])
        = (.ok z, .cycle []) ∧ isIntegral z = true ∧ toInt z = -2 := by
  have hx : IsInt64 (-9223372036854775808) :=
    ⟨by decide +kernel, by decide +kernel, by decide +kernel⟩
  have hy : IsInt64 3 := ⟨by decide +kernel, by decide +kernel, by decide +kernel⟩
  have hx' : toInt (-9223372036854775808) = minInt64 := by decide +kernel
  have hy' : toInt 3 = 3 := by decide +kernel
  have hsome : ¬ NoRemainder (toInt (-9223372036854775808)) (toInt 3) := by
    rw [hx', hy']
    decide
  have hxs : IsSettled (-9223372036854775808) := .inl (by decide +kernel)
  have hys : IsSettled 3 := .inr (by decide +kernel)
  obtain ⟨z, hz, hexact⟩ := (@eval_mod_of_isInt64 .empty true (number (-9223372036854775808))
    (number 3) (.cycle []) (.cycle []) (.cycle []) _ _ rfl rfl hx hy).2 hsome
  obtain ⟨-, hintegral, htoInt⟩ := hexact hxs hys
  refine ⟨z, hz, hintegral, htoInt.trans ?_⟩
  rw [hx', hy']
  decide

/-- Not only a divisor of zero has no remainder, and an odd operand beyond `2 ^ 52` does not have
its own. -/
theorem eval_mod_departs :
    (IsInt64 (-9223372036854775808) ∧ IsInt64 (-1) ∧ toInt (-1) ≠ 0 ∧
      ((binary .mod (number (-9223372036854775808)) (number (-1))).eval .empty true (.cycle [])).1
        = .error (.invalidModulo minInt64 (-1))) ∧
    (IsInt64 4503599627370497 ∧ IsInt64 2 ∧ toInt 2 ≠ 0 ∧
      ((binary .mod (number 4503599627370497) (number 2)).eval .empty true (.cycle [])).1
        = .ok (ofInt 0) ∧
      (toInt 4503599627370497).tmod (toInt 2) = 1 ∧ ofInt 0 ≠ ofInt 1) := by
  refine ⟨⟨⟨?_, ?_, ?_⟩, ⟨?_, ?_, ?_⟩, ?_, ?_⟩, ⟨?_, ?_, ?_⟩, ⟨?_, ?_, ?_⟩, ?_, ?_, ?_, ?_⟩ <;>
    decide +kernel

end Term

end LengthFormula
