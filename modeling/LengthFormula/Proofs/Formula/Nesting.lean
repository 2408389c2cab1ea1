import LengthFormula.Proofs.Formula.Acceptance

/-!
# How deeply a formula nests

`nesting` counts in one pass how many parentheses, calls and prefix signs are open at once in a row
of tokens.  What derives from the grammar at all derives within just so many levels
(`Derives.of_nesting`), so a row that keeps the limits on nesting and height is a formula
(`Formula.parse_of_nesting`).
-/

namespace LengthFormula

/-! ## Counting -/

/-- The most parentheses, calls and prefix signs that are open at once in these tokens.  `operand`
says that an operand is due, where a sign is a prefix sign.  `opened` are open already, and `outer`
are those that stay open at the next closing parentheses, innermost first: a sign is open as far as
its operand reaches, so it closes together with the parenthesis or the argument around it. -/
def deepestFrom (operand : Bool) (opened : Nat) (outer : List Nat) : List TokenKind → Nat
  | [] | .finish :: _ => opened
  | .number _ :: ks | .name _ :: ks => deepestFrom false opened outer ks
  | .plus :: ks | .minus :: ks =>
    deepestFrom true (if operand then opened + 1 else opened) outer ks
  | .star :: ks | .slash :: ks | .percent :: ks | .caret :: ks | .doubledSign :: ks =>
    deepestFrom true opened outer ks
  | .leftParen :: ks => deepestFrom true (opened + 1) (opened :: outer) ks
  | .comma :: ks => max opened (deepestFrom true (outer.headD 0 + 1) outer ks)
  | .rightParen :: ks => max opened (deepestFrom false (outer.headD 0) outer.tail ks)

/-- The most parentheses, calls and prefix signs that are open at once. -/
def nesting (ks : List TokenKind) : Nat := deepestFrom true 0 [] ks

/-- What is open already counts. -/
theorem le_deepestFrom (operand : Bool) (opened : Nat) (outer : List Nat) (ks : List TokenKind) :
    opened ≤ deepestFrom operand opened outer ks := by
  induction ks generalizing operand opened outer with
  | nil => exact Nat.le_refl _
  | cons k ks ih =>
    have hmore := ih true (opened + 1) outer
    have hdeeper := ih true (opened + 1) (opened :: outer)
    cases k with
    | plus | minus =>
      cases operand with
      | false => exact ih true opened outer
      | true => exact Nat.le_of_succ_le hmore
    | leftParen => exact Nat.le_of_succ_le hdeeper
    | comma | rightParen => exact Nat.le_max_left _ _
    | finish => exact Nat.le_refl _
    | number | name => exact ih false opened outer
    | star | slash | percent | caret | doubledSign => exact ih true opened outer

/-- An operator asks for an operand and opens nothing. -/
theorem deepestFrom_operator {c : Chain} {k : TokenKind} {op : BinaryOp}
    (h : c.operator? k = some op) (opened : Nat) (outer : List Nat) (ks : List TokenKind) :
    deepestFrom false opened outer (k :: ks) = deepestFrom true opened outer ks := by
  cases c <;> cases k <;> first | rfl | cases h

/-! ## Nesting of derivations -/

/-- These tokens cannot continue a phrase, or continue it with an operator. -/
def endsPhrase : List TokenKind → Bool
  | [] | .rightParen :: _ | .comma :: _ | .finish :: _ => true
  | k :: _ => 0 < k.binding

theorem endsPhrase_of_operator? {c : Chain} {k : TokenKind} {op : BinaryOp} {ks : List TokenKind}
    (h : c.operator? k = some op) : endsPhrase (k :: ks) = true := by
  cases c <;> cases k <;> first | rfl | cases h

/-- Where no operator follows a phrase, one more open sign makes no difference behind it. -/
theorem deepestFrom_succ {ks : List TokenKind} (hends : endsPhrase ks = true)
    (hbinding : bindingOf ks = 0) (opened : Nat) (outer : List Nat) :
    max (opened + 1) (deepestFrom false (opened + 1) outer ks)
      = max (opened + 1) (deepestFrom false opened outer ks) := by
  cases ks with
  | nil =>
    simp only [deepestFrom]
    omega
  | cons k ks =>
    cases k with
    | finish | comma | rightParen =>
      simp only [deepestFrom]
      omega
    | number | name | leftParen | doubledSign => cases hends
    | plus | minus | percent | star | slash | caret => cases hbinding

section Nesting

variable {scope : Scope} {levels : Nat} {r : Rank} {ks rest : List TokenKind} {t : Term}

/-- A phrase derives within the levels that are counted in it. -/
theorem Derives.exists_needed (h : Derives scope levels r ks t rest)
    (hends : endsPhrase rest = true) :
    ∃ needed ≤ levels, Derives scope needed r ks t rest ∧ ∀ opened outer,
      deepestFrom true opened outer ks
        = max (opened + needed) (deepestFrom false opened outer rest) := by
  induction h with
  | operand _ ih =>
    obtain ⟨needed, hle, hderives, hcount⟩ := ih hends
    exact ⟨needed, hle, .operand hderives, hcount⟩
  | @join _ _ _ behind _ k _ _ _ _ hop _ ihl ihr =>
    obtain ⟨neededl, hlel, hderivesl, hcountl⟩ := ihl (endsPhrase_of_operator? hop)
    obtain ⟨neededr, hler, hderivesr, hcountr⟩ := ihr hends
    refine ⟨max neededl neededr, Nat.max_le.2 ⟨hlel, hler⟩,
      .join (hderivesl.mono (Nat.le_max_left _ _)) hop (hderivesr.mono (Nat.le_max_right _ _)), ?_⟩
    intro opened outer
    rw [hcountl, deepestFrom_operator hop, hcountr]
    omega
  | @number _ value rest =>
    refine ⟨0, Nat.zero_le _, .number, ?_⟩
    intro opened outer
    have := le_deepestFrom false opened outer rest
    simp only [deepestFrom]
    omega
  | @name _ name rest hhead =>
    refine ⟨0, Nat.zero_le _, .name hhead, ?_⟩
    intro opened outer
    have := le_deepestFrom false opened outer rest
    simp only [deepestFrom]
    omega
  | random =>
    refine ⟨1, Nat.le_add_left _ _, .random, ?_⟩
    intro opened outer
    rfl
  | call hname _ ih =>
    obtain ⟨needed, hle, hderives, hcount⟩ := ih rfl
    refine ⟨needed + 1, Nat.succ_le_succ hle, .call hname hderives, ?_⟩
    intro opened outer
    simp only [deepestFrom, hcount, List.headD_cons, List.tail_cons]
    omega
  | call2 hname _ _ ihf ihs =>
    obtain ⟨neededf, hlef, hderivesf, hcountf⟩ := ihf rfl
    obtain ⟨neededs, hles, hderivess, hcounts⟩ := ihs rfl
    refine ⟨max neededf neededs + 1, Nat.succ_le_succ (Nat.max_le.2 ⟨hlef, hles⟩),
      .call2 hname (hderivesf.mono (Nat.le_max_left _ _))
        (hderivess.mono (Nat.le_max_right _ _)), ?_⟩
    intro opened outer
    simp only [deepestFrom, hcountf, hcounts, List.headD_cons, List.tail_cons]
    omega
  | minus _ hrest ih =>
    obtain ⟨needed, hle, hderives, hcount⟩ := ih hends
    refine ⟨needed + 1, Nat.succ_le_succ hle, .minus hderives hrest, ?_⟩
    intro opened outer
    have := deepestFrom_succ hends hrest opened outer
    simp only [deepestFrom, if_true, hcount]
    omega
  | plus _ hrest ih =>
    obtain ⟨needed, hle, hderives, hcount⟩ := ih hends
    refine ⟨needed + 1, Nat.succ_le_succ hle, .plus hderives hrest, ?_⟩
    intro opened outer
    have := deepestFrom_succ hends hrest opened outer
    simp only [deepestFrom, if_true, hcount]
    omega
  | paren _ ih =>
    obtain ⟨needed, hle, hderives, hcount⟩ := ih rfl
    refine ⟨needed + 1, Nat.succ_le_succ hle, .paren hderives, ?_⟩
    intro opened outer
    simp only [deepestFrom, hcount, List.headD_cons, List.tail_cons]
    omega

/-- What derives at all derives within its nesting, and within no fewer levels. -/
theorem Derives.of_nesting (h : Derives scope levels r ks t [.finish]) :
    nesting ks ≤ levels ∧ Derives scope (nesting ks) r ks t [.finish] := by
  obtain ⟨needed, hle, hderives, hcount⟩ := h.exists_needed rfl
  have hneeded : nesting ks = needed := by
    rw [nesting, hcount]
    simp [deepestFrom]
  rw [hneeded]
  exact ⟨hle, hderives⟩

/-- A sign stays open to the end of the sum, and a chain of operators opens nothing. -/
example : nesting [.minus, .leftParen, .name "a", .rightParen, .star, .leftParen, .plus, .number 1,
    .rightParen, .finish] = 3 := rfl

end Nesting

/-! ## Formulas within the limits -/

namespace Formula

/-- The most parentheses, calls and prefix signs that are open at once in a text; a text without
tokens opens none. -/
def nestingOf (convert : Converter) (text : String) : Nat :=
  match tokenize convert text.toList with
  | .ok tokens => nesting (kindsOf tokens)
  | .error _ => 0

/-- A text whose lexemes derive from the grammar is a formula if it keeps the limits on nesting and
height.  Its translation has the replacements put in. -/
theorem parse_of_nesting {scope : Scope} {convert : Converter} {text : String} {ls : List Lexeme}
    {trail : List Char} {levels : Nat} {t : Term} (htext : text.toList = textOf ls trail)
    (hcut : Cut convert none ls trail)
    (h : Derives scope levels (.chain .sum) (ls.map Lexeme.kind ++ [.finish]) t [.finish])
    (hnesting : nestingOf convert text ≤ maxDepth) (hheight : t.height ≤ maxDepth) :
    parse scope convert text = .ok ⟨t, String.ofList (written scope ls trail)⟩ := by
  have hcount : nestingOf convert text = nesting (ls.map Lexeme.kind ++ [.finish]) := by
    rw [nestingOf, htext, tokenize_of_cut hcut]
    simp only [kindsOf_tokensFrom]
  rw [hcount] at hnesting
  rcases parse_of_derives htext hcut h.of_nesting.2 with ⟨f, hf, rfl⟩ | ⟨hlimits, -⟩
  · obtain ⟨ls', trail', htext', hcut', -, -, htranslated⟩ := exists_of_parse hf
    obtain ⟨rfl, rfl⟩ := cut_unique hcut hcut' (htext.symm.trans htext')
    rw [hf, ← htranslated]
  · exact absurd ⟨hnesting, hheight⟩ hlimits

end Formula

end LengthFormula
