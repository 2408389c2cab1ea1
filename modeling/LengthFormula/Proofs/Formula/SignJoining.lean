import LengthFormula.Proofs.Formula.Factors
import LengthFormula.Token.Lexer

/-!
# Joining signs to numbers

Where the start of the text, a `(` or a `,` comes before it, a sign in front of a number belongs to
the literal.  `joinSigns` joins them.  What derives before derives after it, with a tree that agrees
(`Derives.joinSigns`), if the number of each minus that is joined leads a product: a prefix minus
reaches as far as it can, and a literal's own sign does not.
-/

namespace LengthFormula

/-! ## Joining -/

/-- The value of a sign with the number behind it. -/
def signedValue? : TokenKind → TokenKind → Option Float
  | .plus, .number x => some x
  | .minus, .number x => some (-x)
  | _, _ => none

/-- The tokens with signs joined to numbers; `admits` says whether a sign in front may be. -/
def joinSigns : (admits : Bool) → List TokenKind → List TokenKind
  | _, [] => []
  | _, [k] => [k]
  | admits, k :: l :: ks =>
    match if admits then signedValue? k l else none with
    | some x => .number x :: joinSigns false ks
    | none => k :: joinSigns (admitsSign (some k)) (l :: ks)

/-- The number of each minus that is joined leads a product. -/
def SignsBound : (admits : Bool) → List TokenKind → Prop
  | _, [] => True
  | admits, k :: ks =>
    (admits = true → k = .minus → ∀ x behind, ks = .number x :: behind → LeadsFactors behind) ∧
      SignsBound (admitsSign (some k)) ks

section JoinSigns

variable {admits : Bool} {k : TokenKind} {ks rest : List TokenKind}

theorem joinSigns_false (k : TokenKind) (ks : List TokenKind) :
    joinSigns false (k :: ks) = k :: joinSigns (admitsSign (some k)) ks := by
  cases ks <;> rfl

/-- What is no sign stays. -/
theorem joinSigns_cons (h : ∀ l, signedValue? k l = none) :
    joinSigns admits (k :: ks) = k :: joinSigns (admitsSign (some k)) ks := by
  cases ks with
  | nil => rfl
  | cons l ks => cases admits <;> simp [joinSigns, h]

theorem joinSigns_of_signedValue? {l : TokenKind} {x : Float} (h : signedValue? k l = some x) :
    joinSigns true (k :: l :: ks) = .number x :: joinSigns false ks := by
  simp [joinSigns, h]

/-- A sign is joined to a number, or stays. -/
theorem joinSigns_sign (hk : admitsSign (some k) = false) (admits : Bool) (ks : List TokenKind) :
    (admits = true ∧ ∃ x rest, ks = .number x :: rest) ∨
      joinSigns admits (k :: ks) = k :: joinSigns false ks := by
  cases admits with
  | false => exact .inr (by rw [joinSigns_false, hk])
  | true =>
    cases ks with
    | nil => exact .inr rfl
    | cons l ks =>
      cases hl : signedValue? k l with
      | none => exact .inr (by simp [joinSigns, hl, hk])
      | some x =>
        cases l with
        | number y => exact .inl ⟨rfl, y, ks, rfl⟩
        | _ => cases k <;> cases hl

theorem head?_joinSigns_false (ks : List TokenKind) : (joinSigns false ks).head? = ks.head? := by
  cases ks with
  | nil => rfl
  | cons k ks => rw [joinSigns_false, List.head?_cons, List.head?_cons]

theorem bindingOf_joinSigns_false (ks : List TokenKind) :
    bindingOf (joinSigns false ks) = bindingOf ks := by
  cases ks with
  | nil => rfl
  | cons k ks => rw [joinSigns_false, bindingOf_cons, bindingOf_cons]

/-- Joining signs keeps what follows a number. -/
theorem onlyFactors_joinSigns {depth : Nat} (h : depth = 0 → admits = false) :
    onlyFactors depth (joinSigns admits ks) = onlyFactors depth ks := by
  induction admits, ks using joinSigns.induct generalizing depth with
  | case1 => rfl
  | case2 => rfl
  | case3 admits k l ks x hx ih =>
    cases admits with
    | false => cases hx
    | true =>
      cases depth with
      | zero => cases h rfl
      | succ depth =>
        rw [if_pos rfl] at hx
        rw [joinSigns_of_signedValue? hx, onlyFactors_number, ih fun _ => rfl]
        cases k <;> cases l <;> first | rfl | cases hx
  | case4 admits k l ks hx ih =>
    simp only [joinSigns, hx]
    cases k with
    | leftParen => simp only [onlyFactors_leftParen, ih fun h => absurd h (Nat.succ_ne_zero _)]
    | rightParen =>
      cases depth with
      | zero => rfl
      | succ depth => exact ih fun _ => rfl
    | comma =>
      cases depth with
      | zero => rfl
      | succ depth => exact ih fun h => absurd h (Nat.succ_ne_zero _)
    | _ =>
      cases depth <;> simp only [onlyFactors, ih fun _ => rfl]

theorem LeadsFactors.joinSigns (h : LeadsFactors ks) :
    LeadsFactors (LengthFormula.joinSigns false ks) := by
  refine ⟨?_, ?_⟩
  · rw [bindingOf_joinSigns_false]
    exact h.1
  · rw [onlyFactors_joinSigns fun _ => rfl]
    exact h.2

theorem SignsBound.weaken (h : SignsBound admits ks) : SignsBound false ks := by
  cases ks with
  | nil => trivial
  | cons k ks => exact ⟨fun hfalse => absurd hfalse Bool.false_ne_true, h.2⟩

theorem SignsBound.of_isSuffix (h : SignsBound admits ks) (hsuffix : rest <:+ ks) :
    SignsBound false rest := by
  induction ks generalizing admits with
  | nil =>
    rw [List.suffix_nil.1 hsuffix]
    trivial
  | cons k ks ih =>
    rcases List.suffix_cons_iff.1 hsuffix with rfl | hsuffix
    · exact h.weaken
    · exact ih h.2 hsuffix

end JoinSigns

/-! ## Derivations -/

section Derivations

variable {scope : Scope} {levels : Nat} {r : Rank} {ks rest : List TokenKind} {t : Term}

theorem admitsSign_of_operator? {c : Chain} {k : TokenKind} {op : BinaryOp}
    (h : c.operator? k = some op) : admitsSign (some k) = false := by
  cases c <;> cases k <;> first | rfl | cases h

/-- What a phrase of rank `r` is with signs joined: a sign that is joined leaves the sum behind it,
where no operator follows. -/
def JoinedRank (admits : Bool) (rest : List TokenKind) (r r' : Rank) : Prop :=
  r' = r ∨ admits = true ∧ r' = .chain .sum ∧ bindingOf rest = 0

namespace JoinedRank

variable {admits : Bool} {r' : Rank}

theorem eq_sum (h : JoinedRank admits rest (.chain .sum) r') : r' = .chain .sum :=
  h.elim id fun hjoined => hjoined.2.1

theorem eq_of_false (h : JoinedRank false rest r r') : r' = r :=
  h.resolve_right fun hjoined => Bool.false_ne_true hjoined.1

theorem eq_of_bindingOf (h : JoinedRank admits rest r r') (hrest : bindingOf rest ≠ 0) : r' = r :=
  h.resolve_right fun hjoined => hrest hjoined.2.2

end JoinedRank

/-- With signs joined to numbers a phrase derives with a tree that agrees. -/
theorem Derives.joinSigns {admits : Bool} (h : Derives scope levels r ks t rest)
    (hbound : SignsBound admits ks) :
    ∃ r' t', Derives scope levels r' (LengthFormula.joinSigns admits ks) t'
        (LengthFormula.joinSigns false rest) ∧ t'.Agrees scope t ∧ JoinedRank admits rest r r' := by
  induction h generalizing admits with
  | operand _ ih =>
    obtain ⟨r', t', hderives, hagrees, rfl | hsum⟩ := ih hbound
    · exact ⟨_, t', .operand hderives, hagrees, .inl rfl⟩
    · exact ⟨r', t', hderives, hagrees, .inr hsum⟩
  | @join levels c ks behind rest k op left right hl hop hr ihl ihr =>
    have hk := admitsSign_of_operator? hop
    obtain ⟨r₁, left', hleft, hagrees, hrank⟩ := ihl hbound
    have hbehind := (hbound.of_isSuffix hl.isSuffix).2
    rw [hk] at hbehind
    obtain ⟨r₂, right', hright, hagrees', hrank'⟩ := ihr hbehind
    have hoperator : bindingOf (k :: behind) ≠ 0 := by
      rw [bindingOf_cons, Chain.binding_of_operator? hop]
      exact Nat.ne_of_gt c.level_pos
    obtain rfl := hrank.eq_of_bindingOf hoperator
    obtain rfl := hrank'.eq_of_false
    rw [joinSigns_false, hk] at hleft
    exact ⟨_, _, .join hleft hop hright, hagrees.binary op hagrees', .inl rfl⟩
  | number =>
    rw [joinSigns_cons fun _ => rfl]
    exact ⟨_, _, .number, .refl _ _, .inl rfl⟩
  | @name _ name rest hhead =>
    rw [joinSigns_cons fun _ => rfl]
    refine ⟨_, _, .name ?_, .refl _ _, .inl rfl⟩
    show (LengthFormula.joinSigns false rest).head? ≠ some .leftParen
    rw [head?_joinSigns_false]
    exact hhead
  | random =>
    rw [joinSigns_cons fun _ => rfl, joinSigns_cons fun _ => rfl, joinSigns_cons fun _ => rfl]
    exact ⟨_, _, .random, .refl _ _, .inl rfl⟩
  | call hf _ ih =>
    obtain ⟨r', t', hderives, hagrees, hrank⟩ := ih hbound.2.2
    obtain rfl := hrank.eq_sum
    rw [joinSigns_cons fun _ => rfl, joinSigns_cons fun _ => rfl]
    rw [joinSigns_false] at hderives
    exact ⟨_, _, .call hf hderives, hagrees.call _, .inl rfl⟩
  | call2 hf h₁ _ ihf ihs =>
    obtain ⟨r₁, first, hfirst, hagrees, hrank⟩ := ihf hbound.2.2
    obtain ⟨r₂, second, hsecond, hagrees', hrank'⟩ :=
      ihs (hbound.2.2.of_isSuffix h₁.isSuffix).2
    obtain rfl := hrank.eq_sum
    obtain rfl := hrank'.eq_sum
    rw [joinSigns_cons fun _ => rfl, joinSigns_cons fun _ => rfl]
    rw [joinSigns_false] at hfirst hsecond
    exact ⟨_, _, .call2 hf hfirst hsecond, hagrees.call2 _ hagrees', .inl rfl⟩
  | @minus levels ks rest t h hrest ih =>
    obtain ⟨r', t', hderives, hagrees, hrank⟩ := ih hbound.2
    obtain rfl := hrank.eq_sum
    rcases joinSigns_sign (k := .minus) rfl admits ks with ⟨rfl, x, behind, rfl⟩ | heq
    · -- the number leads what is negated
      have hlead := hbound.1 rfl rfl x behind rfl
      have hminus : LengthFormula.joinSigns (admitsSign (some .minus)) (.number x :: behind)
          = .number x :: LengthFormula.joinSigns false behind := joinSigns_false _ _
      rw [hminus] at hderives
      obtain ⟨t'', hderives, hopposes⟩ := hderives.oppose hlead.joinSigns
      rw [joinSigns_of_signedValue? rfl]
      exact ⟨_, t'', hderives.mono (Nat.le_succ _), hopposes.agrees.trans hagrees.negate,
        .inr ⟨rfl, rfl, hrest⟩⟩
    · rw [heq]
      rw [← bindingOf_joinSigns_false] at hrest
      exact ⟨_, _, .minus hderives hrest, hagrees.negate, .inl rfl⟩
  | @plus levels ks rest t h hrest ih =>
    obtain ⟨r', t', hderives, hagrees, hrank⟩ := ih hbound.2
    obtain rfl := hrank.eq_sum
    rcases joinSigns_sign (k := .plus) rfl admits ks with ⟨rfl, x, behind, rfl⟩ | heq
    · rw [joinSigns_of_signedValue? rfl]
      have hplus : LengthFormula.joinSigns (admitsSign (some .plus)) (.number x :: behind)
          = .number x :: LengthFormula.joinSigns false behind := joinSigns_false _ _
      rw [hplus] at hderives
      exact ⟨_, _, hderives.mono (Nat.le_succ _), hagrees, .inr ⟨rfl, rfl, hrest⟩⟩
    · rw [heq]
      rw [← bindingOf_joinSigns_false] at hrest
      exact ⟨_, _, .plus hderives hrest, hagrees, .inl rfl⟩
  | paren _ ih =>
    obtain ⟨r', t', hderives, hagrees, hrank⟩ := ih hbound.2
    obtain rfl := hrank.eq_sum
    rw [joinSigns_cons fun _ => rfl]
    rw [joinSigns_false] at hderives
    exact ⟨_, _, .paren hderives, hagrees, .inl rfl⟩

end Derivations

end LengthFormula
