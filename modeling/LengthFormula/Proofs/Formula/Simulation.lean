import LengthFormula.Formula.Phrase

/-!
# One text against two scopes

The parser uses its scope only where it reads a name.  So a relation between phrases that the names
keep and that every construction of a phrase respects holds between all that two scopes make of one
token list, and their errors are the same (`matched_sumAt`).
-/

namespace LengthFormula

/-- Two parses give related phrases in front of the same tokens, or the same error. -/
inductive Matched (R : Phrase → Phrase → Prop) : Parsed → Parsed → Prop
  | ok {p q : Phrase} {rest : List Token} : R p q → Matched R (.ok (p, rest)) (.ok (q, rest))
  | error {e : ParseError} : Matched R (.error e) (.error e)

/-- A relation between phrases of one height that passes from the parts of a phrase to the whole. -/
structure Respectful (R : Phrase → Phrase → Prop) : Prop where
  height_eq : ∀ {p q : Phrase}, R p q → p.height = q.height
  number : ∀ value : Float, R (.leaf (.number value)) (.leaf (.number value))
  random : R (.leaf .random) (.leaf .random)
  join : ∀ {p p' q q' : Phrase} (op : BinaryOp), R p q → R p' q' → R (p.join op p') (q.join op q')
  negated : ∀ {p q : Phrase}, R p q → R p.negated q.negated
  called : ∀ {p q : Phrase} (name : String), R p q → R (p.called name) (q.called name)
  called2 : ∀ {p p' q q' : Phrase} (name : String), R p q → R p' q' →
    R (p.called2 name p') (q.called2 name q')

section Matched

variable {R : Phrase → Phrase → Prop}

theorem Matched.andThen {p q : Parsed} (h : Matched R p q)
    {next next' : Phrase → List Token → Parsed}
    (hnext : ∀ {a b : Phrase} (rest : List Token), R a b → Matched R (next a rest) (next' b rest)) :
    Matched R (p.andThen next) (q.andThen next') := by
  cases h with
  | ok hphrase => exact hnext _ hphrase
  | error => exact .error

theorem matched_expectThen {kind : TokenKind} {tokens : List Token}
    {next next' : List Token → Parsed} (hnext : ∀ rest, Matched R (next rest) (next' rest)) :
    Matched R (expectThen kind tokens next) (expectThen kind tokens next') := by
  rw [expectThen, expectThen]
  cases expect kind tokens with
  | ok rest => exact hnext rest
  | error e => exact .error

theorem matched_withinHeight (hR : Respectful R) {p q : Phrase} (h : R p q) (rest : List Token) :
    Matched R (withinHeight p rest) (withinHeight q rest) := by
  rw [withinHeight, withinHeight, hR.height_eq h]
  split
  · exact .error
  · exact .ok h

theorem matched_chainFrom (hR : Respectful R) {operator? : TokenKind → Option BinaryOp}
    {operand operand' : Parser} (hoperand : ∀ tokens, Matched R (operand tokens) (operand' tokens))
    {bound : Nat} {p q : Phrase} (h : R p q) (tokens : List Token) :
    Matched R (chainFrom operator? operand bound p tokens)
      (chainFrom operator? operand' bound q tokens) := by
  induction bound generalizing p q tokens with
  | zero => cases tokens <;> exact .ok h
  | succ bound ih =>
    cases tokens with
    | nil => exact .ok h
    | cons token rest =>
      rw [chainFrom, chainFrom]
      cases operator? token.kind with
      | none => exact .ok h
      | some op =>
        refine (hoperand rest).andThen fun behind hright => ?_
        refine (matched_withinHeight hR (hR.join op h hright) behind).andThen ?_
        intro _ _ behind hjoined
        exact ih hjoined behind

theorem matched_chain (hR : Respectful R) {operator? : TokenKind → Option BinaryOp}
    {operand operand' : Parser} (hoperand : ∀ tokens, Matched R (operand tokens) (operand' tokens))
    (tokens : List Token) :
    Matched R (chain operator? operand tokens) (chain operator? operand' tokens) :=
  (hoperand tokens).andThen fun rest h => matched_chainFrom hR hoperand h rest

theorem matched_callOf (hR : Respectful R) (name : String) {sum sum' : Parser}
    (hsum : ∀ tokens, Matched R (sum tokens) (sum' tokens)) (tokens : List Token) :
    Matched R (callOf name sum tokens) (callOf name sum' tokens) := by
  rw [callOf, callOf]
  split
  · exact matched_expectThen fun _ => .ok hR.random
  · split
    · refine (hsum tokens).andThen fun _ hargument => matched_expectThen fun rest => ?_
      exact matched_withinHeight hR (hR.called name hargument) rest
    · split
      · refine (hsum tokens).andThen fun _ hfirst => matched_expectThen fun rest => ?_
        refine (hsum rest).andThen fun _ hsecond => matched_expectThen fun rest => ?_
        exact matched_withinHeight hR (hR.called2 name hfirst hsecond) rest
      · exact .error

/-- Related parsers one level down, or none on either side. -/
def MatchedInner (R : Phrase → Phrase → Prop) : Option Parser → Option Parser → Prop
  | none, none => True
  | some sum, some sum' => ∀ tokens, Matched R (sum tokens) (sum' tokens)
  | _, _ => False

theorem matched_descend {inner inner' : Option Parser} (hinner : MatchedInner R inner inner')
    {next next' : Parser → Parser} {tokens : List Token}
    (hnext : ∀ {sum sum' : Parser}, (∀ tokens, Matched R (sum tokens) (sum' tokens)) →
      Matched R (next sum tokens) (next' sum' tokens)) :
    Matched R (descend inner next tokens) (descend inner' next' tokens) := by
  match inner, inner', hinner with
  | none, none, _ => exact .error
  | some _, some _, hsum => exact hnext hsum

theorem matched_atomWith (hR : Respectful R) {scope scope' : Scope} {inner inner' : Option Parser}
    (hname : ∀ name span, R (reference scope name span) (reference scope' name span))
    (hinner : MatchedInner R inner inner') (tokens : List Token) :
    Matched R (atomWith scope inner tokens) (atomWith scope' inner' tokens) := by
  have hsum : ∀ rest, Matched R (descend inner id rest) (descend inner' id rest) :=
    fun rest => matched_descend hinner fun hsum => hsum rest
  cases tokens with
  | nil => exact .error
  | cons token rest =>
    obtain ⟨kind, span⟩ := token
    cases kind with
    | number value => exact .ok (hR.number value)
    | name name =>
      rw [atomWith.eq_def, atomWith.eq_def]
      simp only
      split
      · exact matched_descend hinner fun hsum => matched_callOf hR name hsum _
      · exact .ok (hname name span)
    | minus =>
      exact (hsum rest).andThen fun behind h => matched_withinHeight hR (hR.negated h) behind
    | plus => exact hsum rest
    | leftParen =>
      exact (hsum rest).andThen fun _ h => matched_expectThen fun _ => .ok h
    | _ => exact .error

/-- What two scopes make of one token list is related where what they make of names is. -/
theorem matched_sumAt (hR : Respectful R) {scope scope' : Scope}
    (hname : ∀ name span, R (reference scope name span) (reference scope' name span))
    (levels : Nat) (tokens : List Token) :
    Matched R (sumAt scope levels tokens) (sumAt scope' levels tokens) := by
  have hsum : ∀ inner inner', MatchedInner R inner inner' → ∀ tokens,
      Matched R (sumOf (atomWith scope inner) tokens) (sumOf (atomWith scope' inner') tokens) := by
    intro inner inner' hinner
    exact matched_chain hR (matched_chain hR (matched_chain hR (matched_atomWith hR hname hinner)))
  induction levels generalizing tokens with
  | zero => exact hsum none none trivial tokens
  | succ levels ih => exact hsum (some _) (some _) ih tokens

/-- So are whole formulas. -/
theorem matched_parseTokens (hR : Respectful R) {scope scope' : Scope}
    (hname : ∀ name span, R (reference scope name span) (reference scope' name span))
    (tokens : List Token) :
    (∃ p q, parseTokens scope tokens = .ok p ∧ parseTokens scope' tokens = .ok q ∧ R p q) ∨
      ∃ e, parseTokens scope tokens = .error e ∧ parseTokens scope' tokens = .error e := by
  have hsum := matched_sumAt hR hname maxDepth tokens
  rw [parseTokens, parseTokens]
  generalize sumAt scope maxDepth tokens = parsed at hsum ⊢
  generalize sumAt scope' maxDepth tokens = parsed' at hsum ⊢
  cases hsum with
  | error => exact .inr ⟨_, rfl, rfl⟩
  | @ok p q rest h =>
    cases rest with
    | nil => exact .inr ⟨_, rfl, rfl⟩
    | cons token rest =>
      simp only
      split
      · exact .inl ⟨p, q, rfl, rfl, h⟩
      · exact .inr ⟨_, rfl, rfl⟩

end Matched

end LengthFormula
