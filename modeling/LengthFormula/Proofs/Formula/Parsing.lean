import LengthFormula.Proofs.Formula.Reference
import LengthFormula.Proofs.Token.Lexeme

/-!
# What the parser takes derives from the grammar

`parserAt` names the parser of each rank, and `Parsed.andThen_eq_ok_iff` and its companions say when
the parts of a parser succeed.  With them, what a parser takes off the front of a token list derives
from the grammar, reaches as far as it can and makes the edits of its tokens (`takesOnly_parserAt`).
-/

namespace LengthFormula

/-! ## Parsers by rank -/

/-- The parser one level down, if there is a level left. -/
def innerAt (scope : Scope) : (levels : Nat) → Option Parser
  | 0 => none
  | levels + 1 => some (sumAt scope levels)

/-- The parser of the phrases of a rank, with so many levels left. -/
def parserAt (scope : Scope) (levels : Nat) : Rank → Parser
  | .chain .sum => sumOf (atomWith scope (innerAt scope levels))
  | .chain .product =>
    chain productOperator? (chain powerOperator? (atomWith scope (innerAt scope levels)))
  | .chain .power => chain powerOperator? (atomWith scope (innerAt scope levels))
  | .atom => atomWith scope (innerAt scope levels)

theorem sumAt_eq_parserAt (scope : Scope) (levels : Nat) :
    sumAt scope levels = parserAt scope levels (.chain .sum) := by
  cases levels <;> rfl

theorem parserAt_chain (scope : Scope) (levels : Nat) (c : Chain) :
    parserAt scope levels (.chain c) = chain c.operator? (parserAt scope levels c.operand) := by
  cases c <;> rfl

/-! ## When the parts of a parser succeed -/

theorem Parsed.andThen_eq_ok_iff {p : Parsed} {next : Phrase → List Token → Parsed}
    {r : Phrase × List Token} : p.andThen next = .ok r ↔
      ∃ phrase rest, p = .ok (phrase, rest) ∧ next phrase rest = .ok r := by
  cases p with
  | error e => simp [Parsed.andThen]
  | ok q =>
    obtain ⟨phrase, rest⟩ := q
    constructor
    · intro h
      exact ⟨phrase, rest, rfl, h⟩
    · rintro ⟨_, _, hsame, h⟩
      cases hsame
      exact h

theorem expect_eq_ok_iff {kind : TokenKind} {tokens rest : List Token} :
    expect kind tokens = .ok rest ↔ ∃ span, tokens = ⟨kind, span⟩ :: rest := by
  cases tokens with
  | nil => simp [expect]
  | cons token tokens =>
    obtain ⟨k, span⟩ := token
    by_cases hk : k = kind <;> simp [expect, hk]

theorem expectThen_eq_ok_iff {kind : TokenKind} {tokens : List Token} {next : List Token → Parsed}
    {r : Phrase × List Token} : expectThen kind tokens next = .ok r ↔
      ∃ span rest, tokens = ⟨kind, span⟩ :: rest ∧ next rest = .ok r := by
  rw [expectThen]
  cases h : expect kind tokens with
  | ok rest =>
    obtain ⟨span, rfl⟩ := expect_eq_ok_iff.1 h
    constructor
    · intro hnext
      exact ⟨span, rest, rfl, hnext⟩
    · rintro ⟨_, _, hsame, hnext⟩
      cases hsame
      exact hnext
  | error e =>
    simp only [reduceCtorEq, false_iff, not_exists, not_and]
    rintro span rest rfl
    simp [expect] at h

theorem withinHeight_eq_ok_iff {phrase : Phrase} {rest : List Token} {r : Phrase × List Token} :
    withinHeight phrase rest = .ok r ↔ phrase.height ≤ maxDepth ∧ (phrase, rest) = r := by
  unfold withinHeight
  split
  · next h => simp [Nat.not_le.2 h]
  · next h => simp [Nat.not_lt.1 h]

theorem descend_eq_ok_iff {inner : Option Parser} {next : Parser → Parser} {tokens : List Token}
    {r : Phrase × List Token} : descend inner next tokens = .ok r ↔
      ∃ parser, inner = some parser ∧ next parser tokens = .ok r := by
  cases inner <;> simp [descend]

/-! ## What the parser takes derives from the grammar -/

/-- The edits that a token makes in front of `rest`: only a name that is not called makes any. -/
def bareEdits (scope : Scope) (token : Token) (rest : List Token) : List Edit :=
  match token.kind with
  | .name name =>
    if (kindsOf rest).head? = some .leftParen then [] else (reference scope name token.span).edits
  | _ => []

/-- The edits that the tokens of a list make, in the order of the list. -/
def editsOf (scope : Scope) : List Token → List Edit
  | [] => []
  | token :: rest => bareEdits scope token rest ++ editsOf scope rest

/-- `phrase` is what the grammar takes off the front of `tokens`, of an allowed height and with the
edits of its tokens. -/
structure Taken (scope : Scope) (levels : Nat) (r : Rank) (tokens : List Token) (phrase : Phrase)
    (rest : List Token) : Prop where
  derives : Derives scope levels r (kindsOf tokens) phrase.term (kindsOf rest)
  height_eq : phrase.height = phrase.term.height
  height_le : phrase.height ≤ maxDepth
  edits_eq : editsOf scope tokens = phrase.edits ++ editsOf scope rest

/-- All that a parser takes are phrases of a rank, as long as they can get. -/
def TakesOnly (scope : Scope) (levels : Nat) (r : Rank) (parser : Parser) : Prop :=
  ∀ tokens phrase rest, parser tokens = .ok (phrase, rest) →
    Taken scope levels r tokens phrase rest ∧ bindingOf (kindsOf rest) < r.level

theorem Chain.operator?_eq_none_iff {c : Chain} {k : TokenKind} :
    c.operator? k = none ↔ k.binding ≠ c.level := by
  cases c <;> cases k <;> simp [Chain.operator?, sumOperator?, productOperator?, powerOperator?,
    Chain.level, TokenKind.binding]

section Soundness

variable {scope : Scope} {levels : Nat}

/-- The loop of a chain goes on with the phrase on its left until no operator of the chain
follows. -/
theorem takesOnly_chainFrom {c : Chain} {operand : Parser}
    (hoperand : TakesOnly scope levels c.operand operand) {bound : Nat} {left phrase : Phrase}
    {tokens behind rest : List Token} (hbound : behind.length ≤ bound)
    (hleft : Taken scope levels (.chain c) tokens left behind)
    (hbinding : bindingOf (kindsOf behind) ≤ c.level)
    (h : chainFrom c.operator? operand bound left behind = .ok (phrase, rest)) :
    Taken scope levels (.chain c) tokens phrase rest ∧ bindingOf (kindsOf rest) < c.level := by
  induction bound generalizing left behind with
  | zero =>
    obtain rfl := List.eq_nil_of_length_eq_zero (Nat.le_zero.1 hbound)
    rw [chainFrom] at h
    cases h
    exact ⟨hleft, c.level_pos⟩
  | succ bound ih =>
    cases behind with
    | nil =>
      rw [chainFrom] at h
      cases h
      exact ⟨hleft, c.level_pos⟩
    | cons token more =>
      rw [chainFrom] at h
      cases hop : c.operator? token.kind with
      | none =>
        rw [hop] at h
        cases h
        exact ⟨hleft, Nat.lt_of_le_of_ne hbinding (Chain.operator?_eq_none_iff.1 hop)⟩
      | some op =>
        rw [hop] at h
        obtain ⟨right, behind, hright, h⟩ := Parsed.andThen_eq_ok_iff.1 h
        obtain ⟨joined, behind', hjoined, h⟩ := Parsed.andThen_eq_ok_iff.1 h
        obtain ⟨hheight, hsame⟩ := withinHeight_eq_ok_iff.1 hjoined
        cases hsame
        obtain ⟨hright, hclosed⟩ := hoperand _ _ _ hright
        have hlength := hright.derives.length_lt
        rw [length_kindsOf, length_kindsOf] at hlength
        rw [Chain.level_operand] at hclosed
        refine ih (by simp only [List.length_cons] at hbound; omega) ⟨?_, ?_, hheight, ?_⟩
          (by omega) h
        · exact .join hleft.derives hop hright.derives
        · simp [Phrase.join, Term.height, hleft.height_eq, hright.height_eq]
        · have hbare : bareEdits scope token more = [] := by
            unfold bareEdits
            split
            · next hname => cases c <;> rw [hname] at hop <;> cases hop
            · rfl
          rw [hleft.edits_eq, editsOf, hbare, List.nil_append, hright.edits_eq]
          simp [Phrase.join]

theorem takesOnly_chain {c : Chain} {operand : Parser}
    (hoperand : TakesOnly scope levels c.operand operand) :
    TakesOnly scope levels (.chain c) (chain c.operator? operand) := by
  intro tokens phrase rest h
  obtain ⟨first, behind, hfirst, h⟩ := Parsed.andThen_eq_ok_iff.1 h
  obtain ⟨hfirst, hclosed⟩ := hoperand _ _ _ hfirst
  rw [Chain.level_operand] at hclosed
  exact takesOnly_chainFrom hoperand (Nat.le_refl _)
    ⟨.operand hfirst.derives, hfirst.height_eq, hfirst.height_le, hfirst.edits_eq⟩ (by omega) h

theorem takesOnly_parserAt_of_atom
    (hatom : TakesOnly scope levels .atom (parserAt scope levels .atom)) (r : Rank) :
    TakesOnly scope levels r (parserAt scope levels r) := by
  have hpower : TakesOnly scope levels (.chain .power) (parserAt scope levels (.chain .power)) :=
    takesOnly_chain (c := .power) hatom
  have hproduct :
      TakesOnly scope levels (.chain .product) (parserAt scope levels (.chain .product)) :=
    takesOnly_chain (c := .product) hpower
  cases r with
  | atom => exact hatom
  | chain c =>
    cases c with
    | power => exact hpower
    | product => exact hproduct
    | sum => exact takesOnly_chain (c := .sum) hproduct

/-- All that the parser one level down takes are sums within one level less. -/
def InnerTakesOnly (scope : Scope) (levels : Nat) : Prop :=
  ∀ parser, innerAt scope levels = some parser →
    ∃ below, levels = below + 1 ∧ TakesOnly scope below (.chain .sum) parser

/-- A parser that went one level down took sums within one level less. -/
theorem exists_of_descend (hinner : InnerTakesOnly scope levels) {next : Parser → Parser}
    {tokens : List Token} {r : Phrase × List Token}
    (h : descend (innerAt scope levels) next tokens = .ok r) :
    ∃ below sum, levels = below + 1 ∧ TakesOnly scope below (.chain .sum) sum ∧
      next sum tokens = .ok r := by
  obtain ⟨sum, hsum, hnext⟩ := descend_eq_ok_iff.1 h
  obtain ⟨below, hlevels, htakes⟩ := hinner sum hsum
  exact ⟨below, sum, hlevels, htakes, hnext⟩

theorem one_le_maxDepth : 1 ≤ maxDepth := by decide

/-- The edits of tokens that are no names, or names that are called. -/
theorem editsOf_cons {token : Token} {rest : List Token} (h : bareEdits scope token rest = []) :
    editsOf scope (token :: rest) = editsOf scope rest := by
  rw [editsOf, h, List.nil_append]

/-- What a call takes behind its parenthesis makes it an atom. -/
theorem taken_of_callOf {below : Nat} {sum : Parser}
    (hsum : TakesOnly scope below (.chain .sum) sum) {name : String} {span parenSpan : Span}
    {tokens rest : List Token} {phrase : Phrase}
    (h : callOf name sum tokens = .ok (phrase, rest)) :
    Taken scope (below + 1) .atom (⟨.name name, span⟩ :: ⟨.leftParen, parenSpan⟩ :: tokens)
      phrase rest := by
  have hedits : editsOf scope (⟨.name name, span⟩ :: ⟨.leftParen, parenSpan⟩ :: tokens)
      = editsOf scope tokens := by
    rw [editsOf_cons (by simp [bareEdits]), editsOf_cons (by simp [bareEdits])]
  unfold callOf at h
  split at h
  · -- a random draw
    next hname =>
    obtain ⟨span', rest', rfl, h⟩ := expectThen_eq_ok_iff.1 h
    cases h
    subst hname
    exact ⟨.random, rfl, one_le_maxDepth, by rw [hedits, editsOf_cons (by simp [bareEdits])]; rfl⟩
  · split at h
    · -- one argument
      next hunary =>
      obtain ⟨argument, behind, hargument, h⟩ := Parsed.andThen_eq_ok_iff.1 h
      obtain ⟨span', rest', rfl, h⟩ := expectThen_eq_ok_iff.1 h
      obtain ⟨hheight, hsame⟩ := withinHeight_eq_ok_iff.1 h
      cases hsame
      obtain ⟨hargument, -⟩ := hsum _ _ _ hargument
      refine ⟨.call hunary hargument.derives, ?_, hheight, ?_⟩
      · simp [Phrase.called, Term.height, hargument.height_eq]
      · rw [hedits, hargument.edits_eq, editsOf_cons (by simp [bareEdits])]
        rfl
    · split at h
      · -- two arguments
        next hbinary =>
        obtain ⟨first, behind, hfirst, h⟩ := Parsed.andThen_eq_ok_iff.1 h
        obtain ⟨span', behind', rfl, h⟩ := expectThen_eq_ok_iff.1 h
        obtain ⟨second, behind'', hsecond, h⟩ := Parsed.andThen_eq_ok_iff.1 h
        obtain ⟨span'', rest', rfl, h⟩ := expectThen_eq_ok_iff.1 h
        obtain ⟨hheight, hsame⟩ := withinHeight_eq_ok_iff.1 h
        cases hsame
        obtain ⟨hfirst, -⟩ := hsum _ _ _ hfirst
        obtain ⟨hsecond, -⟩ := hsum _ _ _ hsecond
        refine ⟨.call2 hbinary hfirst.derives hsecond.derives, ?_, hheight, ?_⟩
        · simp [Phrase.called2, Term.height, hfirst.height_eq, hsecond.height_eq]
        · rw [hedits, hfirst.edits_eq, editsOf_cons (by simp [bareEdits]), hsecond.edits_eq,
            editsOf_cons (by simp [bareEdits])]
          simp [Phrase.called2]
      · cases h

theorem takesOnly_atom (hinner : InnerTakesOnly scope levels) :
    TakesOnly scope levels .atom (parserAt scope levels .atom) := by
  intro tokens phrase rest h
  refine ⟨?_, Nat.lt_succ_of_le (binding_le_three _)⟩
  rw [parserAt] at h
  cases tokens with
  | nil => cases h
  | cons token tokens =>
    obtain ⟨kind, span⟩ := token
    cases kind with
    | number value =>
      cases h
      exact ⟨.number, rfl, one_le_maxDepth, by rw [editsOf_cons (by simp [bareEdits])]; rfl⟩
    | name name =>
      rw [atomWith.eq_def] at h
      simp only at h
      split at h
      · next hkind =>
        obtain ⟨below, sum, rfl, hsum, h⟩ := exists_of_descend hinner h
        exact taken_of_callOf hsum h
      · next hrest =>
        have hhead : (kindsOf tokens).head? ≠ some .leftParen := by
          cases tokens with
          | nil => simp
          | cons token tokens =>
            obtain ⟨kind, span⟩ := token
            simp only [kindsOf_cons, List.head?_cons, ne_eq, Option.some.injEq]
            rintro rfl
            exact hrest span tokens rfl
        cases h
        refine ⟨?_, ?_, ?_, ?_⟩
        · rw [reference_term]
          exact .name hhead
        · rw [reference_term, reference_height, height_nameTerm]
        · rw [reference_height]
          exact one_le_maxDepth
        · rw [editsOf]
          simp [bareEdits, hhead]
    | minus =>
      obtain ⟨operand, behind, hoperand, h⟩ := Parsed.andThen_eq_ok_iff.1 h
      obtain ⟨hheight, hsame⟩ := withinHeight_eq_ok_iff.1 h
      cases hsame
      obtain ⟨below, sum, rfl, hsum, hoperand⟩ := exists_of_descend hinner hoperand
      obtain ⟨hoperand, hclosed⟩ := hsum _ _ _ hoperand
      refine ⟨.minus hoperand.derives (Nat.lt_one_iff.1 hclosed), ?_, hheight, ?_⟩
      · simp [Phrase.negated, Term.height, hoperand.height_eq]
      · rw [editsOf_cons (by simp [bareEdits]), hoperand.edits_eq]
        rfl
    | plus =>
      obtain ⟨below, sum, rfl, hsum, h⟩ := exists_of_descend hinner h
      obtain ⟨hoperand, hclosed⟩ := hsum _ _ _ h
      exact ⟨.plus hoperand.derives (Nat.lt_one_iff.1 hclosed), hoperand.height_eq,
        hoperand.height_le, by rw [editsOf_cons (by simp [bareEdits]), hoperand.edits_eq]⟩
    | leftParen =>
      obtain ⟨operand, behind, hoperand, h⟩ := Parsed.andThen_eq_ok_iff.1 h
      obtain ⟨span', rest', rfl, h⟩ := expectThen_eq_ok_iff.1 h
      cases h
      obtain ⟨below, sum, rfl, hsum, hoperand⟩ := exists_of_descend hinner hoperand
      obtain ⟨hoperand, -⟩ := hsum _ _ _ hoperand
      refine ⟨.paren hoperand.derives, hoperand.height_eq, hoperand.height_le, ?_⟩
      rw [editsOf_cons (by simp [bareEdits]), hoperand.edits_eq,
        editsOf_cons (by simp [bareEdits])]
    | _ => cases h

/-- All that the parser of a rank takes derives from the grammar. -/
theorem takesOnly_parserAt (scope : Scope) (levels : Nat) (r : Rank) :
    TakesOnly scope levels r (parserAt scope levels r) := by
  have hinner : InnerTakesOnly scope levels := by
    cases levels with
    | zero =>
      intro parser h
      cases h
    | succ levels =>
      intro parser h
      cases h
      refine ⟨levels, rfl, ?_⟩
      rw [sumAt_eq_parserAt]
      exact takesOnly_parserAt scope levels (.chain .sum)
  exact takesOnly_parserAt_of_atom (takesOnly_atom hinner) r

end Soundness

end LengthFormula
