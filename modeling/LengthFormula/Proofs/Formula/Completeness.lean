import LengthFormula.Proofs.Formula.Parsing

/-!
# What derives from the grammar the parser takes

A phrase that derives from the grammar is taken by the parser of its rank, unless it nests too
deeply or its tree is too high (`reaches_of_derives`).  So a token list is a formula exactly when it
derives from the grammar within the limits (`derives_of_parseTokens`, `parseTokens_of_derives`).
-/

namespace LengthFormula

/-! ## What derives from the grammar the parser takes -/

/-- How the parser of a rank goes on behind a phrase: a chain looks for more operators. -/
def goOn (scope : Scope) (levels : Nat) : Rank → (bound : Nat) → Phrase → Parser
  | .chain c, bound => chainFrom c.operator? (parserAt scope levels c.operand) bound
  | .atom, _ => fun phrase rest => .ok (phrase, rest)

/-- The parser has refused the tokens because of their nesting, and `limits` does not hold. -/
def TooDeep (limits : Prop) (p : Parsed) : Prop :=
  ¬ limits ∧ ∃ position, p = .error ⟨.nestedTooDeeply, position⟩

/-- The parser reaches `rest` behind a phrase with the tree `t` and goes on from there, or the
phrase does not keep the limits on nesting and height. -/
def Reaches (scope : Scope) (levels needed : Nat) (r : Rank) (tokens : List Token) (t : Term)
    (rest : List TokenKind) : Prop :=
  (∃ phrase behind bound, kindsOf behind = rest ∧ behind.length ≤ bound ∧ phrase.term = t ∧
      phrase.height = t.height ∧ t.height ≤ maxDepth ∧
      parserAt scope levels r tokens = goOn scope levels r bound phrase behind) ∨
    TooDeep (needed ≤ levels ∧ t.height ≤ maxDepth) (parserAt scope levels r tokens)

section Completeness

variable {scope : Scope} {levels : Nat}

theorem TooDeep.mono {limits limits' : Prop} {p : Parsed} (h : TooDeep limits p)
    (himp : limits' → limits) : TooDeep limits' p :=
  ⟨fun hl => h.1 (himp hl), h.2⟩

/-- A parser that failed in its first part has failed. -/
theorem TooDeep.andThen {limits : Prop} {p : Parsed} (h : TooDeep limits p)
    (next : Phrase → List Token → Parsed) : TooDeep limits (p.andThen next) := by
  obtain ⟨hl, position, rfl⟩ := h
  exact ⟨hl, position, rfl⟩

/-- A chain ends where none of its operators follows. -/
theorem goOn_of_binding_lt {r : Rank} {bound : Nat} {phrase : Phrase} {behind : List Token}
    (hlength : behind.length ≤ bound) (h : bindingOf (kindsOf behind) < r.level) :
    goOn scope levels r bound phrase behind = .ok (phrase, behind) := by
  cases r with
  | atom => rfl
  | chain c =>
    cases behind with
    | nil => rw [goOn, chainFrom]
    | cons token more =>
      obtain ⟨bound, rfl⟩ : ∃ b, bound = b + 1 :=
        ⟨bound - 1, by simp only [List.length_cons] at hlength; omega⟩
      have hop : c.operator? token.kind = none :=
        Chain.operator?_eq_none_iff.2 (Nat.ne_of_lt h)
      rw [goOn, chainFrom, hop]

/-- Where no operator of its rank follows, the parser has a phrase when it reaches the end of it. -/
theorem Reaches.parserAt_eq {needed : Nat} {r : Rank} {tokens : List Token} {t : Term}
    {rest : List TokenKind} (h : Reaches scope levels needed r tokens t rest)
    (hclosed : bindingOf rest < r.level) :
    (∃ phrase behind, kindsOf behind = rest ∧ phrase.term = t ∧ phrase.height = t.height ∧
        t.height ≤ maxDepth ∧ parserAt scope levels r tokens = .ok (phrase, behind)) ∨
      TooDeep (needed ≤ levels ∧ t.height ≤ maxDepth) (parserAt scope levels r tokens) := by
  rcases h with ⟨phrase, behind, bound, rfl, hbound, hterm, hheight, hle, heq⟩ | h
  · exact .inl ⟨phrase, behind, rfl, hterm, hheight, hle,
      heq.trans (goOn_of_binding_lt hbound hclosed)⟩
  · exact .inr h

theorem kindsOf_eq_cons {tokens : List Token} {k : TokenKind} {ks : List TokenKind}
    (h : kindsOf tokens = k :: ks) :
    ∃ span rest, tokens = ⟨k, span⟩ :: rest ∧ kindsOf rest = ks := by
  cases tokens with
  | nil => cases h
  | cons token rest =>
    obtain ⟨kind, span⟩ := token
    cases h
    exact ⟨span, rest, rfl, rfl⟩

/-- A phrase that is high enough for the tree is let through, or the tree is too high. -/
theorem withinHeight_eq (phrase : Phrase) (rest : List Token) {t : Term}
    (h : phrase.height = t.height) (limits : Prop) :
    (t.height ≤ maxDepth ∧ withinHeight phrase rest = .ok (phrase, rest)) ∨
      TooDeep (limits ∧ t.height ≤ maxDepth) (withinHeight phrase rest) := by
  rw [withinHeight, h]
  split
  · next hlt => exact .inr ⟨fun hlimits => Nat.not_le.2 hlt hlimits.2, _, rfl⟩
  · next hle => exact .inl ⟨Nat.not_lt.1 hle, rfl⟩

/-- An atom that is read is followed by nothing that could belong to it. -/
theorem Reaches.of_ok {needed : Nat} {tokens behind : List Token} {phrase : Phrase}
    (h : parserAt scope levels .atom tokens = .ok (phrase, behind))
    (hheight : phrase.height = phrase.term.height) (hle : phrase.height ≤ maxDepth) :
    Reaches scope levels needed .atom tokens phrase.term (kindsOf behind) :=
  .inl ⟨phrase, behind, behind.length, rfl, Nat.le_refl _, rfl, hheight, hheight ▸ hle, h⟩

theorem Reaches.operand {needed : Nat} {c : Chain} {tokens : List Token} {t : Term}
    {rest : List TokenKind} (h : Reaches scope levels needed c.operand tokens t rest)
    (hrest : bindingOf rest ≤ c.level) :
    Reaches scope levels needed (.chain c) tokens t rest := by
  have hclosed : bindingOf rest < c.operand.level := by
    rw [Chain.level_operand]
    omega
  rw [Reaches, parserAt_chain, chain]
  rcases h.parserAt_eq hclosed with ⟨phrase, behind, hbehind, hterm, hheight, hle, heq⟩ | hdeep
  · refine .inl ⟨phrase, behind, behind.length, hbehind, Nat.le_refl _, hterm, hheight, hle, ?_⟩
    rw [heq]
    rfl
  · exact .inr (hdeep.andThen _)

/-- The loop of a chain takes one more operator and its right operand. -/
theorem Reaches.join {needed : Nat} {c : Chain} {tokens : List Token} {left right : Term}
    {k : TokenKind} {op : BinaryOp} {behind rest : List TokenKind}
    (hleft : Reaches scope levels needed (.chain c) tokens left (k :: behind))
    (hop : c.operator? k = some op)
    (hright : ∀ tokens, kindsOf tokens = behind →
      Reaches scope levels needed c.operand tokens right rest)
    (hrest : bindingOf rest ≤ c.level) :
    Reaches scope levels needed (.chain c) tokens (.binary op left right) rest := by
  have hclosed : bindingOf rest < c.operand.level := by
    rw [Chain.level_operand]
    omega
  rw [Reaches]
  rcases hleft with ⟨phrase, more, bound, hmore, hbound, rfl, hheight, -, heq⟩ | hdeep
  · obtain ⟨span, more, rfl, hbehind⟩ := kindsOf_eq_cons hmore
    obtain ⟨bound, rfl⟩ : ∃ b, bound = b + 1 :=
      ⟨bound - 1, by simp only [List.length_cons] at hbound; omega⟩
    have hgo : goOn scope levels (.chain c) (bound + 1) phrase (⟨k, span⟩ :: more)
        = (parserAt scope levels c.operand more).andThen fun right behind =>
          (withinHeight (phrase.join op right) behind).andThen fun joined behind =>
            goOn scope levels (.chain c) bound joined behind := by
      simp only [goOn, chainFrom, hop]
    rw [heq, hgo]
    rcases (hright more hbehind).parserAt_eq hclosed with
      ⟨other, final, hfinal, rfl, hheight', -, heq'⟩ | hdeep
    · have hshort : (kindsOf final).length < (kindsOf more).length := by
        have := (takesOnly_parserAt scope levels c.operand _ _ _ heq').1.derives.length_lt
        exact this
      rw [length_kindsOf, length_kindsOf] at hshort
      rw [heq', Parsed.andThen]
      have hjoined : (phrase.join op other).height
          = (Term.binary op phrase.term other.term).height := by
        rw [Phrase.join, Term.height, hheight, hheight']
      rcases withinHeight_eq (phrase.join op other) final hjoined (needed ≤ levels) with
        ⟨hle, hok⟩ | hhigh
      · refine .inl ⟨phrase.join op other, final, bound, hfinal, ?_, rfl, hjoined, hle, ?_⟩
        · simp only [List.length_cons] at hbound
          omega
        · simp only [hok, Parsed.andThen]
      · exact .inr (hhigh.andThen _)
    · refine .inr ((hdeep.mono ?_).andThen _)
      rintro ⟨hneeded, hheight⟩
      rw [Term.height] at hheight
      exact ⟨hneeded, by omega⟩
  · refine .inr (hdeep.mono ?_)
    rintro ⟨hneeded, hheight⟩
    rw [Term.height] at hheight
    exact ⟨hneeded, by omega⟩

/-- Without a level left, what goes one level down is refused. -/
theorem Reaches.of_zero {needed position : Nat} {tokens : List Token} {t : Term}
    {rest : List TokenKind}
    (h : parserAt scope 0 .atom tokens = .error ⟨.nestedTooDeeply, position⟩) :
    Reaches scope 0 (needed + 1) .atom tokens t rest :=
  .inr ⟨fun hlimits => Nat.not_succ_le_zero needed hlimits.1, position, h⟩

/-- An operand in parentheses, behind a sign or in a call is read one level down. -/
theorem Reaches.sumAt_eq {needed : Nat} {tokens : List Token} {t : Term} {rest : List TokenKind}
    (h : Reaches scope levels needed (.chain .sum) tokens t rest) (hrest : bindingOf rest = 0) :
    (∃ phrase behind, kindsOf behind = rest ∧ phrase.term = t ∧ phrase.height = t.height ∧
        t.height ≤ maxDepth ∧ sumAt scope levels tokens = .ok (phrase, behind)) ∨
      TooDeep (needed ≤ levels ∧ t.height ≤ maxDepth) (sumAt scope levels tokens) := by
  rw [sumAt_eq_parserAt]
  refine h.parserAt_eq ?_
  rw [hrest]
  exact Chain.level_pos .sum

theorem unary?_randomName : (Builtin.unary? Builtin.randomName).isSome = false := by decide

theorem binary?_randomName : (Builtin.binary? Builtin.randomName).isSome = false := by decide

/-- No name is a function of one argument and one of two. -/
theorem unary?_of_binary? {name : String} (h : (Builtin.binary? name).isSome) :
    (Builtin.unary? name).isSome = false := by
  have htable : ∀ entry ∈ Builtin.binaryTable, (Builtin.unary? entry.1).isSome = false := by decide
  obtain ⟨entry, hentry, hname⟩ := List.lookup_isSome_iff.1 h
  rw [beq_iff_eq.1 hname]
  exact htable entry hentry

/-- An atom with parts is read where its tree is not too high. -/
theorem Reaches.of_withinHeight {needed : Nat} {tokens behind : List Token} {phrase : Phrase}
    {t : Term} (h : parserAt scope levels .atom tokens = withinHeight phrase behind)
    (hheight : phrase.height = t.height) (hterm : phrase.term = t) :
    Reaches scope levels needed .atom tokens t (kindsOf behind) := by
  subst hterm
  rcases withinHeight_eq phrase behind hheight (needed ≤ levels) with ⟨hle, hok⟩ | hdeep
  · exact .of_ok (h.trans hok) hheight (hheight ▸ hle)
  · rw [← h] at hdeep
    exact .inr hdeep

/-- Where an operand one level down is refused, the atom around it is refused. -/
theorem Reaches.of_tooDeep {needed : Nat} {tokens : List Token} {t operand : Term}
    {rest : List TokenKind} {p : Parsed} {next : Phrase → List Token → Parsed}
    (h : parserAt scope (levels + 1) .atom tokens = p.andThen next)
    (hdeep : TooDeep (needed ≤ levels ∧ operand.height ≤ maxDepth) p)
    (hheight : operand.height ≤ t.height) :
    Reaches scope (levels + 1) (needed + 1) .atom tokens t rest := by
  refine .inr ?_
  rw [h]
  refine (hdeep.mono ?_).andThen next
  rintro ⟨hneeded, hle⟩
  exact ⟨Nat.le_of_succ_le_succ hneeded, Nat.le_trans hheight hle⟩

theorem Reaches.call {needed : Nat} {name : String} {span span' : Span} {tokens : List Token}
    {t : Term} {rest : List TokenKind} (hunary : (Builtin.unary? name).isSome)
    (h : Reaches scope levels needed (.chain .sum) tokens t (.rightParen :: rest)) :
    Reaches scope (levels + 1) (needed + 1) .atom
      (⟨.name name, span⟩ :: ⟨.leftParen, span'⟩ :: tokens) (.call name t) rest := by
  have hname : name ≠ Builtin.randomName := by
    rintro rfl
    rw [unary?_randomName] at hunary
    cases hunary
  have hcall : parserAt scope (levels + 1) .atom
        (⟨.name name, span⟩ :: ⟨.leftParen, span'⟩ :: tokens)
      = (sumAt scope levels tokens).andThen fun phrase rest =>
          expectThen .rightParen rest fun rest => withinHeight (phrase.called name) rest := by
    change callOf name (sumAt scope levels) tokens = _
    rw [callOf, if_neg hname, if_pos hunary]
  rcases h.sumAt_eq rfl with ⟨phrase, behind, hbehind, rfl, hheight, -, heq⟩ | hdeep
  · obtain ⟨span'', behind, rfl, rfl⟩ := kindsOf_eq_cons hbehind
    rw [heq] at hcall
    have hhigher : (phrase.called name).height = (Term.call name phrase.term).height := by
      rw [Phrase.called, Term.height, hheight]
    exact .of_withinHeight hcall hhigher rfl
  · exact .of_tooDeep hcall hdeep (Nat.le_succ _)

theorem Reaches.call2 {needed : Nat} {name : String} {span span' : Span} {tokens : List Token}
    {first second : Term} {behind rest : List TokenKind} (hbinary : (Builtin.binary? name).isSome)
    (hfirst : Reaches scope levels needed (.chain .sum) tokens first (.comma :: behind))
    (hsecond : ∀ tokens, kindsOf tokens = behind →
      Reaches scope levels needed (.chain .sum) tokens second (.rightParen :: rest)) :
    Reaches scope (levels + 1) (needed + 1) .atom
      (⟨.name name, span⟩ :: ⟨.leftParen, span'⟩ :: tokens) (.call2 name first second) rest := by
  have hname : name ≠ Builtin.randomName := by
    rintro rfl
    rw [binary?_randomName] at hbinary
    cases hbinary
  have hcall : parserAt scope (levels + 1) .atom
        (⟨.name name, span⟩ :: ⟨.leftParen, span'⟩ :: tokens)
      = (sumAt scope levels tokens).andThen fun first rest =>
          expectThen .comma rest fun rest =>
            (sumAt scope levels rest).andThen fun second rest =>
              expectThen .rightParen rest fun rest =>
                withinHeight (first.called2 name second) rest := by
    change callOf name (sumAt scope levels) tokens = _
    rw [callOf, if_neg hname, unary?_of_binary? hbinary, if_neg Bool.false_ne_true, if_pos hbinary]
  rcases hfirst.sumAt_eq rfl with ⟨phrase, more, hmore, rfl, hheight, -, heq⟩ | hdeep
  · obtain ⟨comma, more, rfl, hbehind⟩ := kindsOf_eq_cons hmore
    have hcall' : parserAt scope (levels + 1) .atom
          (⟨.name name, span⟩ :: ⟨.leftParen, span'⟩ :: tokens)
        = (sumAt scope levels more).andThen fun second rest =>
            expectThen .rightParen rest fun rest =>
              withinHeight (phrase.called2 name second) rest := by
      rw [hcall, heq]
      rfl
    rcases (hsecond more hbehind).sumAt_eq rfl with
      ⟨other, final, hfinal, rfl, hheight', -, heq'⟩ | hdeep
    · obtain ⟨close, final, rfl, rfl⟩ := kindsOf_eq_cons hfinal
      rw [heq'] at hcall'
      have hhigher : (phrase.called2 name other).height
          = (Term.call2 name phrase.term other.term).height := by
        rw [Phrase.called2, Term.height, hheight, hheight']
      exact .of_withinHeight hcall' hhigher rfl
    · refine .of_tooDeep hcall' hdeep ?_
      rw [Term.height]
      omega
  · refine .of_tooDeep hcall hdeep ?_
    rw [Term.height]
    omega

theorem Reaches.minus {needed : Nat} {span : Span} {tokens : List Token} {t : Term}
    {rest : List TokenKind} (h : Reaches scope levels needed (.chain .sum) tokens t rest)
    (hrest : bindingOf rest = 0) :
    Reaches scope (levels + 1) (needed + 1) .atom (⟨.minus, span⟩ :: tokens) (.negate t) rest := by
  have hsign : parserAt scope (levels + 1) .atom (⟨.minus, span⟩ :: tokens)
      = (sumAt scope levels tokens).andThen fun operand behind =>
          withinHeight operand.negated behind := rfl
  rcases h.sumAt_eq hrest with ⟨phrase, behind, rfl, rfl, hheight, -, heq⟩ | hdeep
  · rw [heq] at hsign
    have hhigher : phrase.negated.height = phrase.term.negate.height := by
      rw [Phrase.negated, Term.height, hheight]
    exact .of_withinHeight hsign hhigher rfl
  · exact .of_tooDeep hsign hdeep (Nat.le_succ _)

theorem Reaches.plus {needed : Nat} {span : Span} {tokens : List Token} {t : Term}
    {rest : List TokenKind} (h : Reaches scope levels needed (.chain .sum) tokens t rest)
    (hrest : bindingOf rest = 0) :
    Reaches scope (levels + 1) (needed + 1) .atom (⟨.plus, span⟩ :: tokens) t rest := by
  have hsign : parserAt scope (levels + 1) .atom (⟨.plus, span⟩ :: tokens)
      = sumAt scope levels tokens := rfl
  rcases h.sumAt_eq hrest with ⟨phrase, behind, rfl, rfl, hheight, hle, heq⟩ | hdeep
  · exact .of_ok (hsign.trans heq) hheight (hheight ▸ hle)
  · refine .inr ?_
    rw [hsign]
    exact hdeep.mono fun hl => ⟨Nat.le_of_succ_le_succ hl.1, hl.2⟩

theorem Reaches.paren {needed : Nat} {span : Span} {tokens : List Token} {t : Term}
    {rest : List TokenKind}
    (h : Reaches scope levels needed (.chain .sum) tokens t (.rightParen :: rest)) :
    Reaches scope (levels + 1) (needed + 1) .atom (⟨.leftParen, span⟩ :: tokens) t rest := by
  have hparen : parserAt scope (levels + 1) .atom (⟨.leftParen, span⟩ :: tokens)
      = (sumAt scope levels tokens).andThen fun phrase behind =>
          expectThen .rightParen behind fun behind => .ok (phrase, behind) := rfl
  rcases h.sumAt_eq rfl with ⟨phrase, behind, hbehind, rfl, hheight, hle, heq⟩ | hdeep
  · obtain ⟨close, behind, rfl, rfl⟩ := kindsOf_eq_cons hbehind
    rw [heq] at hparen
    exact .of_ok hparen hheight (hheight ▸ hle)
  · exact .of_tooDeep hparen hdeep (Nat.le_refl _)

/-- What derives from the grammar the parser of its rank reaches the end of. -/
theorem reaches_of_derives {needed : Nat} {r : Rank} {ks rest : List TokenKind} {t : Term}
    (h : Derives scope needed r ks t rest) (hrest : bindingOf rest ≤ r.level) {tokens : List Token}
    (hks : kindsOf tokens = ks) : Reaches scope levels needed r tokens t rest := by
  induction h generalizing levels tokens with
  | @operand _ c _ _ _ _ ih =>
    exact (ih (by rw [Chain.level_operand]; exact Nat.le_succ_of_le hrest) hks).operand hrest
  | @join _ c _ _ _ _ _ _ _ _ hop _ ihl ihr =>
    refine (ihl (Nat.le_of_eq (Chain.binding_of_operator? hop)) hks).join hop ?_ hrest
    intro behind hbehind
    exact ihr (by rw [Chain.level_operand]; exact Nat.le_succ_of_le hrest) hbehind
  | @number _ value =>
    obtain ⟨span, behind, rfl, rfl⟩ := kindsOf_eq_cons hks
    have hok : parserAt scope levels .atom (⟨.number value, span⟩ :: behind)
        = .ok (.leaf (.number value), behind) := rfl
    exact .of_ok hok rfl one_le_maxDepth
  | @name _ name _ hhead =>
    obtain ⟨span, behind, rfl, rfl⟩ := kindsOf_eq_cons hks
    have hok : parserAt scope levels .atom (⟨.name name, span⟩ :: behind)
        = .ok (reference scope name span, behind) := by
      rw [parserAt, atomWith.eq_def]
      simp only
      split
      · simp at hhead
      · rfl
    rw [← reference_term scope name span]
    refine Reaches.of_ok hok ?_ ?_
    · rw [reference_term, reference_height, height_nameTerm]
    · rw [reference_height]
      exact one_le_maxDepth
  | random =>
    obtain ⟨span, behind, rfl, hparen⟩ := kindsOf_eq_cons hks
    obtain ⟨span', behind, rfl, hclose⟩ := kindsOf_eq_cons hparen
    obtain ⟨span'', behind, rfl, rfl⟩ := kindsOf_eq_cons hclose
    cases levels with
    | zero => exact .of_zero rfl
    | succ levels =>
      have hok : parserAt scope (levels + 1) .atom
            (⟨.name Builtin.randomName, span⟩ :: ⟨.leftParen, span'⟩
              :: ⟨.rightParen, span''⟩ :: behind)
          = .ok (.leaf .random, behind) := rfl
      exact .of_ok hok rfl one_le_maxDepth
  | @call _ name _ rest t hunary _ ih =>
    obtain ⟨span, behind, rfl, hparen⟩ := kindsOf_eq_cons hks
    obtain ⟨span', behind, rfl, hargument⟩ := kindsOf_eq_cons hparen
    cases levels with
    | zero => exact .of_zero rfl
    | succ levels => exact .call hunary (ih (Nat.zero_le _) hargument)
  | @call2 _ name _ behind rest first second hbinary _ _ ihf ihs =>
    obtain ⟨span, behind, rfl, hparen⟩ := kindsOf_eq_cons hks
    obtain ⟨span', behind, rfl, hfirst⟩ := kindsOf_eq_cons hparen
    cases levels with
    | zero => exact .of_zero rfl
    | succ levels =>
      exact Reaches.call2 hbinary (ihf (Nat.zero_le _) hfirst)
        fun _ hsecond => ihs (Nat.zero_le _) hsecond
  | @minus _ _ rest t _ hclosed ih =>
    obtain ⟨span, behind, rfl, hoperand⟩ := kindsOf_eq_cons hks
    cases levels with
    | zero => exact .of_zero rfl
    | succ levels => exact .minus (ih (hclosed ▸ Nat.zero_le _) hoperand) hclosed
  | @plus _ _ rest t _ hclosed ih =>
    obtain ⟨span, behind, rfl, hoperand⟩ := kindsOf_eq_cons hks
    cases levels with
    | zero => exact .of_zero rfl
    | succ levels => exact .plus (ih (hclosed ▸ Nat.zero_le _) hoperand) hclosed
  | @paren _ _ rest t _ ih =>
    obtain ⟨span, behind, rfl, hoperand⟩ := kindsOf_eq_cons hks
    cases levels with
    | zero => exact .of_zero rfl
    | succ levels => exact .paren (ih (Nat.zero_le _) hoperand)

end Completeness

/-! ## Whole token lists -/

section Whole

variable {scope : Scope} {tokens : List Token}

/-- A token that occurs only at the end of a list has nothing behind it. -/
theorem eq_singleton_of_isSuffix {α : Type} {x : α} {init rest : List α} (hinit : x ∉ init)
    (hsuffix : rest <:+ init ++ [x]) (hhead : rest.head? = some x) : rest = [x] := by
  obtain ⟨front, hfront⟩ := hsuffix
  rcases List.append_eq_append_iff.1 hfront with ⟨more, rfl, hmore⟩ | ⟨more, -, hmore⟩
  · cases more with
    | nil => exact hmore
    | cons y more =>
      rw [hmore] at hhead
      cases hhead
      simp at hinit
  · cases more with
    | nil => exact hmore.symm
    | cons y more =>
      obtain ⟨-, hrest⟩ := List.append_eq_nil_iff.1 (List.cons.inj hmore).2.symm
      rw [hrest] at hhead
      cases hhead

/-- The tokens of a formula are a sum within the limits, and the edits are those of its tokens. -/
theorem derives_of_parseTokens {init : List TokenKind} (hkinds : kindsOf tokens = init ++ [.finish])
    (hinit : TokenKind.finish ∉ init) {phrase : Phrase}
    (h : parseTokens scope tokens = .ok phrase) :
    Derives scope maxDepth (.chain .sum) (kindsOf tokens) phrase.term [.finish] ∧
      phrase.term.height ≤ maxDepth ∧ phrase.edits = editsOf scope tokens := by
  rw [parseTokens, sumAt_eq_parserAt] at h
  cases hsum : parserAt scope maxDepth (.chain .sum) tokens with
  | error e =>
    rw [hsum] at h
    cases h
  | ok r =>
    obtain ⟨found, rest⟩ := r
    rw [hsum] at h
    obtain ⟨⟨hderives, hheight, hle, hedits⟩, -⟩ := takesOnly_parserAt _ _ _ _ _ _ hsum
    cases rest with
    | nil => cases h
    | cons token rest =>
      simp only at h
      split at h
      · next hfinish =>
        cases h
        have hrest : kindsOf (token :: rest) = [.finish] := by
          refine eq_singleton_of_isSuffix hinit ?_ (by rw [kindsOf_cons, hfinish]; rfl)
          rw [← hkinds]
          exact hderives.isSuffix
        have hnil : rest = [] := by
          have := congrArg List.length hrest
          rw [length_kindsOf, List.length_cons, List.length_singleton] at this
          exact List.eq_nil_of_length_eq_zero (by omega)
        subst hnil
        refine ⟨hrest ▸ hderives, hheight ▸ hle, ?_⟩
        rw [hedits, editsOf, bareEdits, hfinish]
        simp [editsOf]
      · cases h

/-- A sum is a formula, unless it nests too deeply or its tree is too high. -/
theorem parseTokens_of_derives {needed : Nat} {t : Term}
    (h : Derives scope needed (.chain .sum) (kindsOf tokens) t [.finish]) :
    (∃ phrase, parseTokens scope tokens = .ok phrase ∧ phrase.term = t) ∨
      ¬ (needed ≤ maxDepth ∧ t.height ≤ maxDepth) ∧
        ∃ position, parseTokens scope tokens = .error ⟨.nestedTooDeeply, position⟩ := by
  have hreaches : Reaches scope maxDepth needed (.chain .sum) tokens t [.finish] :=
    reaches_of_derives h (Nat.zero_le _) rfl
  rw [parseTokens]
  rcases hreaches.sumAt_eq rfl with ⟨phrase, behind, hbehind, hterm, -, -, heq⟩ | hdeep
  · obtain ⟨span, behind, rfl, -⟩ := kindsOf_eq_cons hbehind
    rw [heq]
    exact .inl ⟨phrase, if_pos rfl, hterm⟩
  · obtain ⟨hlimits, position, heq⟩ := hdeep
    rw [heq]
    exact .inr ⟨hlimits, position, rfl⟩

end Whole

end LengthFormula
