import LengthFormula.Proofs.Formula.Cursor

/-!
# More fuel changes nothing

The fuel of the parser with its counter bounds loops and recursion and does nothing else: a run that
is not exhausted goes the same way with more fuel (`Run.Extends`).  This goes from the parts to the
whole, part by part as the parser is built, so a whole run with enough fuel has one ending
(`Run.whole_eq_of_le`).
-/

namespace LengthFormula

namespace Run

/-- Wherever the run has enough fuel, the other one does the same. -/
def Extends {α : Type} (run more : Run α) : Prop := ∀ c, run c = .exhausted ∨ more c = run c

/-! ## Steps -/

section Steps

variable {α β : Type} {run more : Run α} {next next' : α → Run β} {tokens : List Token}

theorem Extends.refl (run : Run α) : run.Extends run := fun _ => .inr rfl

theorem extends_exhausted (run : Run α) : Extends (fun _ => .exhausted) run := fun _ => .inl rfl

/-- Parts that are extended are extended one after the other. -/
theorem Extends.bind (h : run.Extends more)
    (hnext : ∀ result, (next result).Extends (next' result)) :
    (run >>= next).Extends (more >>= next') := by
  intro c
  rw [bind_apply, bind_apply]
  rcases h c with hrun | hrun
  · rw [hrun]
    exact .inl rfl
  · rw [hrun]
    cases run c with
    | done result c' => exact hnext result c'
    | failed error c' => exact .inr rfl
    | exhausted => exact .inl rfl

/-- What comes first needs no fuel. -/
theorem Extends.behind (run : Run α) (hnext : ∀ result, (next result).Extends (next' result)) :
    (run >>= next).Extends (run >>= next') :=
  (Extends.refl run).bind hnext

theorem Extends.before (h : run.Extends more) (next : α → Run β) :
    (run >>= next).Extends (more >>= next) :=
  h.bind fun result => .refl (next result)

theorem Extends.ite {condition : Prop} [Decidable condition] {no no' : Run α}
    (hyes : run.Extends more) (hno : no.Extends no') :
    Extends (if condition then run else no) (if condition then more else no') := by
  by_cases h : condition
  · rwa [if_pos h, if_pos h]
  · rwa [if_neg h, if_neg h]

theorem Extends.nested {body body' : Run Node} (h : body.Extends body') :
    (Run.nested tokens body).Extends (Run.nested tokens body') :=
  .behind _ fun _ => h.before _

end Steps

/-! ## Phrases -/

section Phrases

variable {scope : Scope} {tokens : List Token} {operator? : TokenKind → Option BinaryOp}
  {operand operand' inner inner' : Run Node} {fuel fuel' : Nat}

theorem Extends.chainFrom (h : operand.Extends operand') (hle : fuel ≤ fuel') (left : Node) :
    (Run.chainFrom tokens operator? operand fuel left).Extends
      (Run.chainFrom tokens operator? operand' fuel' left) := by
  induction fuel generalizing fuel' left with
  | zero => exact extends_exhausted _
  | succ fuel ih =>
    obtain ⟨fuel', rfl⟩ : ∃ n, fuel' = n + 1 := ⟨fuel' - 1, by omega⟩
    refine .behind _ fun token => ?_
    cases operator? token.kind with
    | none => exact .refl _
    | some op =>
      exact .behind _ fun _ => h.bind fun right => .behind _ fun joined =>
        ih (Nat.le_of_succ_le_succ hle) joined

theorem Extends.chain (h : operand.Extends operand') (hle : fuel ≤ fuel') :
    (Run.chain tokens operator? operand fuel).Extends
      (Run.chain tokens operator? operand' fuel') :=
  h.bind fun first => h.chainFrom hle first

theorem Extends.call (h : inner.Extends inner') (name : String) :
    (Run.call tokens name inner).Extends (Run.call tokens name inner') := by
  refine .ite (.refl _) (.ite (h.before _) (.ite ?_ (.refl _)))
  exact h.bind fun first => .behind _ fun _ => h.before _

theorem Extends.atom (h : inner.Extends inner') :
    (Run.atom scope tokens inner).Extends (Run.atom scope tokens inner') := by
  refine .behind _ fun token => ?_
  cases token.kind with
  | name name =>
    exact .behind _ fun _ => .behind _ fun _ => .ite (.behind _ fun _ => (h.call name).nested)
      (.refl _)
  | minus => exact .behind _ fun _ => h.nested.before _
  | plus => exact .behind _ fun _ => h.nested
  | leftParen => exact .behind _ fun _ => (h.before _).nested
  | number | percent | star | slash | caret | comma | rightParen | doubledSign | finish =>
    exact .refl _

/-- The phrases of every rank are extended. -/
theorem Extends.phrase (h : inner.Extends inner') (hle : fuel ≤ fuel') (r : Rank) :
    (Run.phrase scope tokens inner fuel r).Extends (Run.phrase scope tokens inner' fuel' r) := by
  match r with
  | .atom => exact h.atom
  | .chain .power => exact h.atom.chain hle
  | .chain .product => exact (h.atom.chain hle).chain hle
  | .chain .sum => exact ((h.atom.chain hle).chain hle).chain hle

theorem extends_sum (scope : Scope) (tokens : List Token) (hle : fuel ≤ fuel') :
    (sum scope tokens fuel).Extends (sum scope tokens fuel') := by
  induction fuel generalizing fuel' with
  | zero => exact extends_exhausted _
  | succ fuel ih =>
    obtain ⟨fuel', rfl⟩ : ∃ n, fuel' = n + 1 := ⟨fuel' - 1, by omega⟩
    have hle := Nat.le_of_succ_le_succ hle
    exact (ih hle).phrase hle _

/-- A whole run that has enough fuel ends in the same way with more. -/
theorem whole_eq_of_le {c : Cursor} (h : whole scope tokens fuel c ≠ .exhausted)
    (hle : fuel ≤ fuel') : whole scope tokens fuel' c = whole scope tokens fuel c :=
  (((extends_sum scope tokens hle).before _) c).resolve_left h

end Phrases

end Run

end LengthFormula
