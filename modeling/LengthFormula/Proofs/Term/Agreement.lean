import LengthFormula.Proofs.Double.Negation
import LengthFormula.Term.Evaluation

/-!
# Terms of the same value

Two terms agree in a scope if they have the same value, or the same error, for all draws and in both
ways to look names up.  A term opposes another if its value is the other's with the sign turned.
-/

namespace LengthFormula.Term

/-- The one tree has the value of the other, and is not higher. -/
structure Agrees (scope : Scope) (t' t : Term) : Prop where
  eval_eq : ∀ strict draws, t'.eval scope strict draws = t.eval scope strict draws
  height_le : t'.height ≤ t.height

/-- The one tree has the value of the other with the sign turned, and is not higher. -/
structure Opposes (scope : Scope) (t' t : Term) : Prop where
  eval_eq : ∀ strict draws, t'.eval scope strict draws
    = (t.eval scope strict draws).andThen fun x draws => (.ok (-x), draws)
  height_le : t'.height ≤ t.height

variable {scope : Scope} {t t' u u' : Term}

namespace Agrees

theorem refl (scope : Scope) (t : Term) : Agrees scope t t := ⟨fun _ _ => rfl, Nat.le_refl _⟩

theorem trans (h : Agrees scope t t') (h' : Agrees scope t' u) : Agrees scope t u where
  eval_eq strict draws := (h.eval_eq strict draws).trans (h'.eval_eq strict draws)
  height_le := Nat.le_trans h.height_le h'.height_le

theorem negate (h : Agrees scope t' t) : Agrees scope (.negate t') (.negate t) where
  eval_eq strict draws := by simp only [eval, h.eval_eq]
  height_le := Nat.succ_le_succ h.height_le

theorem binary (op : BinaryOp) (h : Agrees scope t' t) (hu : Agrees scope u' u) :
    Agrees scope (.binary op t' u') (.binary op t u) where
  eval_eq strict draws := by simp only [eval, h.eval_eq, hu.eval_eq]
  height_le := by
    have := h.height_le
    have := hu.height_le
    simp only [height]
    omega

theorem call (name : String) (h : Agrees scope t' t) :
    Agrees scope (.call name t') (.call name t) where
  eval_eq strict draws := by simp only [eval, h.eval_eq]
  height_le := Nat.succ_le_succ h.height_le

theorem call2 (name : String) (h : Agrees scope t' t) (hu : Agrees scope u' u) :
    Agrees scope (.call2 name t' u') (.call2 name t u) where
  eval_eq strict draws := by simp only [eval, h.eval_eq, hu.eval_eq]
  height_le := by
    have := h.height_le
    have := hu.height_le
    simp only [height]
    omega

end Agrees

namespace Opposes

theorem number (scope : Scope) (x : Float) : Opposes scope (.number (-x)) (.number x) :=
  ⟨fun _ _ => rfl, Nat.le_refl _⟩

/-- What opposes a term agrees with its negation. -/
theorem agrees (h : Opposes scope t' t) : Agrees scope t' (.negate t) where
  eval_eq := h.eval_eq
  height_le := Nat.le_succ_of_le h.height_le

/-- A product and a quotient turn the sign with their left operand. -/
theorem binary {op : BinaryOp} (hop : op = .mul ∨ op = .div) (h : Opposes scope t' t) (u : Term) :
    Opposes scope (.binary op t' u) (.binary op t u) where
  eval_eq strict draws := by
    have happly : ∀ x y, op.apply (-x) y = (op.apply x y).map Neg.neg := by
      intro x y
      rcases hop with rfl | rfl
      · exact congrArg Except.ok (Double.neg_mul x y)
      · exact congrArg Except.ok (Double.neg_div x y)
    simp only [eval, h.eval_eq]
    rcases t.eval scope strict draws with ⟨_ | x, draws⟩
    · rfl
    · show (u.eval scope strict draws).andThen _ = ((u.eval scope strict draws).andThen _).andThen _
      rcases u.eval scope strict draws with ⟨_ | y, draws⟩
      · rfl
      · show (op.apply (-x) y, draws) = Outcome.andThen (op.apply x y, draws) _
        rw [happly]
        cases op.apply x y <;> rfl
  height_le := by
    have := h.height_le
    simp only [height]
    omega

end Opposes

end LengthFormula.Term
