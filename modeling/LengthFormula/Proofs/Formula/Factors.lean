import LengthFormula.Proofs.Formula.Grammar
import LengthFormula.Proofs.Term.Agreement

/-!
# Numbers that lead products

A prefix minus negates all that it can reach.  Where that is a number with nothing but factors and
divisors behind it (`LeadsFactors`), the minus may as well negate the number alone
(`Derives.oppose`).
-/

namespace LengthFormula

/-- Up to the end of the phrase and outside of the parentheses in it there is no `+`, `-` and `%`;
`depth` of its parentheses are open. -/
def onlyFactors : (depth : Nat) → List TokenKind → Bool
  | _, [] => true
  | depth, .leftParen :: ks => onlyFactors (depth + 1) ks
  | 0, .rightParen :: _ => true
  | depth + 1, .rightParen :: ks => onlyFactors depth ks
  | 0, .comma :: _ => true
  | 0, k :: ks => k.binding != 1 && k != .percent && onlyFactors 0 ks
  | depth + 1, _ :: ks => onlyFactors (depth + 1) ks

/-- A number in front of these tokens leads a product: it is no base of a power, and only factors
and divisors follow. -/
def LeadsFactors (ks : List TokenKind) : Prop := bindingOf ks ≠ 3 ∧ onlyFactors 0 ks = true

section Scan

variable {k : TokenKind} {ks ks' : List TokenKind} {depth : Nat}

@[simp]
theorem onlyFactors_leftParen (depth : Nat) (ks : List TokenKind) :
    onlyFactors depth (.leftParen :: ks) = onlyFactors (depth + 1) ks := by
  cases depth <;> rfl

@[simp]
theorem onlyFactors_rightParen (depth : Nat) (ks : List TokenKind) :
    onlyFactors (depth + 1) (.rightParen :: ks) = onlyFactors depth ks := rfl

/-- Inside of parentheses all but the parentheses is passed over. -/
theorem onlyFactors_succ (hk : k ≠ .leftParen) (hk' : k ≠ .rightParen) :
    onlyFactors (depth + 1) (k :: ks) = onlyFactors (depth + 1) ks := by
  cases k <;> first | rfl | exact absurd rfl hk | exact absurd rfl hk'

@[simp]
theorem onlyFactors_number (depth : Nat) (x : Float) (ks : List TokenKind) :
    onlyFactors depth (.number x :: ks) = onlyFactors depth ks := by
  cases depth <;> rfl

@[simp]
theorem onlyFactors_name (depth : Nat) (name : String) (ks : List TokenKind) :
    onlyFactors depth (.name name :: ks) = onlyFactors depth ks := by
  cases depth <;> rfl

/-- Only factors are behind an operator where there are only factors from it on. -/
theorem onlyFactors_of_cons (hk : k.binding ≠ 0) (h : onlyFactors 0 (k :: ks) = true) :
    onlyFactors 0 ks = true := by
  cases k with
  | star => exact h
  | slash => exact h
  | caret => exact h
  | plus => cases h
  | minus => cases h
  | percent => cases h
  | _ => exact absurd rfl hk

/-- What is scanned alike from a token on is scanned alike with the token. -/
theorem onlyFactors_congr (h : ∀ depth, onlyFactors depth ks = onlyFactors depth ks') :
    onlyFactors depth (k :: ks) = onlyFactors depth (k :: ks') := by
  cases k <;> cases depth <;> simp [onlyFactors, h]

end Scan

section Derivations

variable {scope : Scope} {levels : Nat} {r : Rank} {k : TokenKind} {ks rest : List TokenKind}
  {t : Term}

theorem onlyFactors_operator {c : Chain} {op : BinaryOp} {depth : Nat}
    (hop : c.operator? k = some op) (ks : List TokenKind) :
    onlyFactors (depth + 1) (k :: ks) = onlyFactors (depth + 1) ks := by
  refine onlyFactors_succ ?_ ?_
  · rintro rfl
    cases c <;> cases hop
  · rintro rfl
    cases c <;> cases hop

/-- Inside of parentheses a phrase is passed over. -/
theorem Derives.onlyFactors_succ (h : Derives scope levels r ks t rest) (depth : Nat) :
    onlyFactors (depth + 1) ks = onlyFactors (depth + 1) rest := by
  induction h generalizing depth with
  | operand _ ih => exact ih depth
  | join _ hop _ ihl ihr => rw [ihl, onlyFactors_operator hop, ihr]
  | number => rfl
  | name => rfl
  | random => rfl
  | call _ _ ih => exact ih (depth + 1)
  | call2 _ _ _ ihf ihs => exact (ihf (depth + 1)).trans (ihs (depth + 1))
  | minus _ _ ih => exact ih depth
  | plus _ _ ih => exact ih depth
  | paren _ ih => exact (onlyFactors_leftParen _ _).trans (ih (depth + 1))

/-- Behind a phrase there are only factors where there are only factors from the phrase on. -/
theorem Derives.onlyFactors_rest (h : Derives scope levels r ks t rest)
    (hfactors : onlyFactors 0 ks = true) : onlyFactors 0 rest = true := by
  induction h with
  | operand _ ih => exact ih hfactors
  | @join _ c _ _ _ k _ _ _ _ hop _ ihl ihr =>
    have hbinding : k.binding ≠ 0 := by
      rw [Chain.binding_of_operator? hop]
      exact Nat.ne_of_gt c.level_pos
    exact ihr (onlyFactors_of_cons hbinding (ihl hfactors))
  | number => exact hfactors
  | name => exact hfactors
  | random => exact hfactors
  | call _ h _ => exact (h.onlyFactors_succ 0).symm.trans hfactors
  | call2 _ h₁ h₂ _ _ =>
    exact ((h₁.onlyFactors_succ 0).trans (h₂.onlyFactors_succ 0)).symm.trans hfactors
  | minus => cases hfactors
  | plus => cases hfactors
  | paren h _ => exact (h.onlyFactors_succ 0).symm.trans hfactors

/-- A number that what follows does not reach into is all of a phrase. -/
theorem Derives.number_eq {x : Float} (h : Derives scope levels r (.number x :: ks) t rest)
    (hbinding : bindingOf ks < r.level) : t = .number x ∧ rest = ks := by
  generalize hfront : TokenKind.number x :: ks = front at h
  induction h with
  | @operand _ c _ _ _ _ ih =>
    refine ih ?_ hfront
    rw [c.level_operand]
    exact Nat.lt_succ_of_lt hbinding
  | @join _ c _ behind rest k _ _ _ _ hop _ ihl _ =>
    -- the operator would stand directly behind the number
    obtain ⟨-, hrest⟩ := ihl hbinding hfront
    rw [← hrest, bindingOf_cons, Chain.binding_of_operator? hop] at hbinding
    exact absurd hbinding (Nat.lt_irrefl _)
  | number =>
    cases hfront
    exact ⟨rfl, rfl⟩
  | _ => cases hfront

/-- The operators behind a number that leads factors are products and quotients. -/
theorem Derives.operator_of_leadsFactors {c : Chain} {x : Float} {op : BinaryOp} {left : Term}
    {behind : List TokenKind}
    (h : Derives scope levels (.chain c) (.number x :: ks) left (k :: behind))
    (hop : c.operator? k = some op) (hlead : LeadsFactors ks) : op = .mul ∨ op = .div := by
  have hfactors := (onlyFactors_number 0 x ks).trans hlead.2
  have hk := h.onlyFactors_rest hfactors
  cases c with
  | sum =>
    cases k with
    | plus => cases hk
    | minus => cases hk
    | _ => cases hop
  | product =>
    cases k with
    | star => exact .inl (Option.some.inj hop).symm
    | slash => exact .inr (Option.some.inj hop).symm
    | percent => cases hk
    | _ => cases hop
  | power =>
    -- the number is no base
    have hlt : bindingOf ks < (Rank.chain .power).level :=
      Nat.lt_of_le_of_ne (binding_le_three ks) hlead.1
    obtain ⟨-, rfl⟩ := h.number_eq hlt
    exact absurd (Chain.binding_of_operator? hop) hlead.1

/-- With the number that leads it negated, a product derives with a tree that opposes its own. -/
theorem Derives.oppose {x : Float} (h : Derives scope levels r (.number x :: ks) t rest)
    (hlead : LeadsFactors ks) :
    ∃ t', Derives scope levels r (.number (-x) :: ks) t' rest ∧ t'.Opposes scope t := by
  generalize hfront : TokenKind.number x :: ks = front at h
  induction h with
  | operand _ ih =>
    obtain ⟨t', hderives, hopposes⟩ := ih hfront
    exact ⟨t', .operand hderives, hopposes⟩
  | join hl hop hr ihl _ =>
    subst hfront
    obtain ⟨left', hderives, hopposes⟩ := ihl rfl
    exact ⟨_, .join hderives hop hr, hopposes.binary (hl.operator_of_leadsFactors hop hlead) _⟩
  | number =>
    cases hfront
    exact ⟨_, .number, .number scope x⟩
  | _ => cases hfront

end Derivations

end LengthFormula
