import LengthFormula.Proofs.Formula.Nesting
import LengthFormula.Proofs.Formula.Renaming
import LengthFormula.Proofs.Token.Closing

/-!
# Formulas made of formulas

In parentheses a formula keeps its tokens, its tree and its translation, whatever stands around.  So
formulas can be put together with operators, signs and calls, as long as the whole keeps the limits
on nesting and height (`Formula.parse_compound`).
-/

namespace LengthFormula

/-! ## Derivations in front of other tokens -/

section Derivations

variable {scope : Scope} {levels : Nat} {r : Rank} {ks rest : List TokenKind} {t : Term}

/-- A phrase derives in the same way in front of other tokens, if no operator and no parenthesis
comes where none was. -/
theorem Derives.exists_front (h : Derives scope levels r ks t rest) :
    ∃ front, ks = front ++ rest ∧ ∀ rest' : List TokenKind,
      (bindingOf rest = 0 → bindingOf rest' = 0) →
      (rest'.head? = some .leftParen → rest.head? = some .leftParen) →
      Derives scope levels r (front ++ rest') t rest' := by
  induction h with
  | operand _ ih =>
    obtain ⟨front, hks, hfront⟩ := ih
    exact ⟨front, hks, fun rest' hbinding hhead => .operand (hfront rest' hbinding hhead)⟩
  | @join _ _ _ _ _ k _ _ _ _ hop _ ihl ihr =>
    obtain ⟨frontl, rfl, hfrontl⟩ := ihl
    obtain ⟨frontr, rfl, hfrontr⟩ := ihr
    refine ⟨frontl ++ k :: frontr, by simp, ?_⟩
    intro rest' hbinding hhead
    have hleft := hfrontl (k :: (frontr ++ rest')) id id
    rw [List.append_assoc, List.cons_append]
    exact .join hleft hop (hfrontr rest' hbinding hhead)
  | @number _ value _ => exact ⟨[.number value], rfl, fun rest' _ _ => .number⟩
  | @name _ name _ hname =>
    refine ⟨[.name name], rfl, ?_⟩
    intro rest' _ hhead
    exact .name fun hparen => hname (hhead hparen)
  | random => exact ⟨[.name Builtin.randomName, .leftParen, .rightParen], rfl, fun _ _ _ => .random⟩
  | @call _ name _ _ _ hname _ ih =>
    obtain ⟨front, rfl, hfront⟩ := ih
    refine ⟨.name name :: .leftParen :: front ++ [.rightParen], by simp, ?_⟩
    intro rest' _ _
    have harg := hfront (.rightParen :: rest') id id
    simpa using Derives.call hname harg
  | @call2 _ name _ _ _ _ _ hname _ _ ihf ihs =>
    obtain ⟨frontf, rfl, hfrontf⟩ := ihf
    obtain ⟨fronts, rfl, hfronts⟩ := ihs
    refine ⟨.name name :: .leftParen :: frontf ++ .comma :: fronts ++ [.rightParen], by simp, ?_⟩
    intro rest' _ _
    have hfirst := hfrontf (.comma :: (fronts ++ .rightParen :: rest')) id id
    have hsecond := hfronts (.rightParen :: rest') id id
    simpa using Derives.call2 hname hfirst hsecond
  | minus _ hrest ih =>
    obtain ⟨front, rfl, hfront⟩ := ih
    refine ⟨.minus :: front, rfl, ?_⟩
    intro rest' hbinding hhead
    exact .minus (hfront rest' hbinding hhead) (hbinding hrest)
  | plus _ hrest ih =>
    obtain ⟨front, rfl, hfront⟩ := ih
    refine ⟨.plus :: front, rfl, ?_⟩
    intro rest' hbinding hhead
    exact .plus (hfront rest' hbinding hhead) (hbinding hrest)
  | paren _ ih =>
    obtain ⟨front, rfl, hfront⟩ := ih
    refine ⟨.leftParen :: front ++ [.rightParen], by simp, ?_⟩
    intro rest' _ _
    have hinner := hfront (.rightParen :: rest') id id
    simpa using Derives.paren hinner

/-- The tokens of a whole formula derive in front of a closing parenthesis and of a comma. -/
theorem Derives.before (h : Derives scope levels r (ks ++ [.finish]) t [.finish]) {k : TokenKind}
    (hbinding : k.binding = 0) (hparen : k ≠ .leftParen) (behind : List TokenKind) :
    Derives scope levels r (ks ++ k :: behind) t (k :: behind) := by
  obtain ⟨front, hfront, hderives⟩ := h.exists_front
  obtain rfl := List.append_cancel_right hfront
  refine hderives (k :: behind) (fun _ => hbinding) ?_
  intro hhead
  exact absurd (Option.some.inj hhead) hparen

/-- An atom is an operand of every chain. -/
theorem Derives.operand_of_atom (h : Derives scope levels .atom ks t rest) (c : Chain) :
    Derives scope levels c.operand ks t rest := by
  cases c with
  | sum => exact .operand (.operand h)
  | product => exact .operand h
  | power => exact h

/-- Every chain is a sum. -/
theorem Derives.sum_of_chain {c : Chain} (h : Derives scope levels (.chain c) ks t rest) :
    Derives scope levels (.chain .sum) ks t rest := by
  cases c with
  | sum => exact h
  | product => exact .operand h
  | power => exact .operand (.operand h)

/-- An atom is a sum. -/
theorem Derives.sum_of_atom (h : Derives scope levels .atom ks t rest) :
    Derives scope levels (.chain .sum) ks t rest :=
  .operand (h.operand_of_atom .sum)

end Derivations

/-! ## Operators -/

namespace BinaryOp

/-- The character that writes an operator. -/
def symbol : BinaryOp → Char
  | add => '+'
  | sub => '-'
  | mod => '%'
  | mul => '*'
  | div => '/'
  | pow => '^'

/-- The token of an operator. -/
def kind : BinaryOp → TokenKind
  | add => .plus
  | sub => .minus
  | mod => .percent
  | mul => .star
  | div => .slash
  | pow => .caret

/-- The chain that an operator belongs to. -/
def chain : BinaryOp → Chain
  | add | sub => .sum
  | mod | mul | div => .product
  | pow => .power

theorem operator?_kind (op : BinaryOp) : op.chain.operator? op.kind = some op := by
  cases op <;> rfl

/-- Behind a closing parenthesis the character is the operator. -/
theorem punctuation?_symbol (op : BinaryOp) :
    punctuation? (some .rightParen) op.symbol = some op.kind := by
  cases op <;> rfl

theorem isLeaf_kind (op : BinaryOp) : op.kind.isLeaf = false := by
  cases op <;> rfl

end BinaryOp

/-! ## Translations of rows -/

section Rows

variable {scope : Scope}

theorem written_append_trail (scope : Scope) (ls : List Lexeme) (trail x : List Char) :
    written scope ls (trail ++ x) = written scope ls trail ++ x := by
  induction ls with
  | nil => rfl
  | cons l ls ih => simp only [written, ih, List.append_assoc]

/-- What stands behind a row does not change its translation, unless it makes a call of a name. -/
theorem written_append {b : List Lexeme} (hb : (b.map Lexeme.kind).head? ≠ some .leftParen)
    (a : List Lexeme) (trail : List Char) :
    written scope (a ++ b) trail = written scope a (written scope b trail) := by
  induction a with
  | nil => rfl
  | cons l a ih =>
    have hsame : l.replacement? scope (a ++ b) = l.replacement? scope a := by
      cases a with
      | nil =>
        unfold Lexeme.replacement?
        cases l.kind with
        | name name =>
          show (if (b.map Lexeme.kind).head? = some .leftParen then none else _) = _
          rw [if_neg hb]
          rfl
        | _ => rfl
      | cons l' a => rfl
    rw [List.cons_append, written, written, hsame, ih]

/-- No mark is replaced. -/
theorem written_mark {kind : TokenKind} (hkind : kind.isLeaf = false) (gap : List Char) (c : Char)
    (ls : List Lexeme) (trail : List Char) :
    written scope (Lexeme.mark gap kind c :: ls) trail = gap ++ c :: written scope ls trail := by
  have hnone : (Lexeme.mark gap kind c).replacement? scope ls = none := by
    unfold Lexeme.replacement? Lexeme.mark
    cases kind <;> first | rfl | cases hkind
  rw [written, hnone]
  rfl

/-- The name of a call is not replaced. -/
theorem written_called {text : String} (h : IsWordText text) {ls : List Lexeme} (gap : List Char)
    (hcalled : (ls.map Lexeme.kind).head? = some .leftParen) (trail : List Char) :
    written scope (Lexeme.ofWord gap text :: ls) trail
      = gap ++ (text.toList ++ written scope ls trail) := by
  have hnone : (Lexeme.ofWord gap text).replacement? scope ls = none := by
    unfold Lexeme.replacement? Lexeme.ofWord
    simp only [hcalled, if_true]
  rw [written, hnone]
  simp only [Option.map_none, Option.getD_none, Lexeme.chars_ofWord gap h]
  rfl

/-- A row, a mark with the white space that ended the row, and more behind it. -/
theorem written_append_mark {kind : TokenKind} (hkind : kind.isLeaf = false)
    (hparen : kind ≠ .leftParen) (a : List Lexeme) (gap : List Char) (c : Char) (ls : List Lexeme)
    (trail : List Char) :
    written scope (a ++ Lexeme.mark gap kind c :: ls) trail
      = written scope a gap ++ c :: written scope ls trail := by
  have hhead : ((Lexeme.mark gap kind c :: ls).map Lexeme.kind).head? ≠ some .leftParen := by
    simpa [Lexeme.mark] using hparen
  rw [written_append hhead, written_mark hkind, written_append_trail]

end Rows

/-! ## Words in a row -/

section Words

variable {convert : Converter} {previous : Option TokenKind} {text : String} {ls : List Lexeme}
  {trail : List Char}

theorem textOf_word (h : IsWordText text) :
    textOf (.ofWord [] text :: ls) trail = text.toList ++ textOf ls trail := by
  rw [← Lexeme.chars_ofWord [] h]
  rfl

/-- A name is cut off in front of a character that no name holds. -/
theorem cut_word (h : IsWordText text) (hbehind : startsWith isWord (textOf ls trail) = false)
    (hrest : Cut convert (some (.name (lowerCase text))) ls trail) :
    Cut convert previous (.ofWord [] text :: ls) trail := by
  have hfirst := Lexeme.opensWord_first_ofWord [] h
  refine cut_cons_iff.2 ⟨by simp [Lexeme.ofWord], ?_, Lexeme.stands_ofWord [] h hbehind, hrest⟩
  exact isBlank_of_isWord (opensWord_iff.1 hfirst).1

end Words

/-! ## Parts in parentheses -/

/-- A row in parentheses, with more behind it. -/
def enclosed (ls : List Lexeme) (trail : List Char) (behind : List Lexeme) : List Lexeme :=
  .mark [] .leftParen '(' :: (ls ++ .mark trail .rightParen ')' :: behind)

section Enclosed

variable {scope : Scope} {convert : Converter} {ls behind : List Lexeme} {trail rest : List Char}

theorem textOf_enclosed :
    textOf (enclosed ls trail behind) rest
      = '(' :: (textOf ls trail ++ ')' :: textOf behind rest) := by
  rw [enclosed, textOf_mark, textOf_append_mark, List.nil_append]

theorem written_enclosed :
    written scope (enclosed ls trail behind) rest
      = '(' :: (written scope ls trail ++ ')' :: written scope behind rest) := by
  rw [enclosed, written_mark rfl, written_append_mark rfl (by decide), List.nil_append]

theorem map_kind_enclosed :
    (enclosed ls trail behind).map Lexeme.kind
      = .leftParen :: (ls.map Lexeme.kind ++ .rightParen :: behind.map Lexeme.kind) := by
  simp [enclosed, Lexeme.mark]

/-- A parenthesis is cut off wherever it stands. -/
theorem cut_leftParen {previous : Option TokenKind} (h : Cut convert (some .leftParen) ls trail) :
    Cut convert previous (.mark [] .leftParen '(' :: ls) trail :=
  cut_mark (by simp) rfl (fun hsign => absurd hsign (by decide)) h

/-- A text keeps its lexemes in parentheses. -/
theorem cut_enclosed {previous : Option TokenKind} (h : Cut convert none ls trail)
    (hbehind : Cut convert (some .rightParen) behind rest) :
    Cut convert previous (enclosed ls trail behind) rest :=
  cut_leftParen (cut_append_closing h ⟨rfl, rfl⟩ isClosing_rightParen (fun _ => rfl) hbehind)

/-- A formula in parentheses is an atom with its tree. -/
theorem derives_enclosed {levels : Nat} {t : Term}
    (h : Derives scope levels (.chain .sum) (ls.map Lexeme.kind ++ [.finish]) t [.finish])
    (trail : List Char) (behind : List Lexeme) (ks : List TokenKind) :
    Derives scope (levels + 1) .atom ((enclosed ls trail behind).map Lexeme.kind ++ ks) t
      (behind.map Lexeme.kind ++ ks) := by
  rw [map_kind_enclosed, List.cons_append, List.append_assoc]
  exact .paren (h.before rfl (by decide) _)

end Enclosed

/-! ## Names of functions -/

/-- The names of the built-in functions are names of the formula language, in lower case. -/
theorem isWordText_of_builtin {name : String}
    (h : (Builtin.unary? name).isSome ∨ (Builtin.binary? name).isSome) :
    IsWordText name ∧ lowerCase name = name := by
  have htable : ∀ entry ∈ Builtin.unaryTable.map Prod.fst ++ Builtin.binaryTable.map Prod.fst,
      (entry.toList.head?.any opensWord = true ∧ entry.toList.tail.all isWord = true) ∧
        lowerCase entry = entry := by
    decide +kernel
  have hmem : name ∈ Builtin.unaryTable.map Prod.fst ++ Builtin.binaryTable.map Prod.fst := by
    rw [List.mem_append]
    refine h.imp (fun hname => ?_) (fun hname => ?_)
    · obtain ⟨entry, hentry, heq⟩ := List.lookup_isSome_iff.1 hname
      rw [beq_iff_eq.1 heq]
      exact List.mem_map_of_mem hentry
    · obtain ⟨entry, hentry, heq⟩ := List.lookup_isSome_iff.1 hname
      rw [beq_iff_eq.1 heq]
      exact List.mem_map_of_mem hentry
  obtain ⟨⟨hfirst, hothers⟩, hlower⟩ := htable name hmem
  refine ⟨?_, hlower⟩
  cases hname : name.toList with
  | nil =>
    rw [hname] at hfirst
    cases hfirst
  | cons c cs =>
    rw [hname] at hfirst hothers
    exact ⟨c, cs, hname, by simpa using hfirst, List.all_eq_true.1 hothers⟩

/-! ## Compounds -/

namespace Formula

/-- The text is this formula, provided it keeps the limits on nesting and height. -/
def ParsesWithin (scope : Scope) (convert : Converter) (text : String) (f : Formula) : Prop :=
  nestingOf convert text ≤ maxDepth → f.term.height ≤ maxDepth →
    parse scope convert text = .ok f

section Compounds

variable {scope : Scope} {convert : Converter}

/-- A row whose text and translation are known is a formula within the limits. -/
theorem parsesWithin_of_row {text translated : String} {row : List Lexeme} {t : Term}
    (hcut : Cut convert none row []) (htext : text.toList = textOf row [])
    (hderives : DerivesFormula scope (row.map Lexeme.kind ++ [.finish]) t)
    (htranslated : translated.toList = written scope row []) :
    ParsesWithin scope convert text ⟨t, translated⟩ := by
  intro hnesting hheight
  obtain ⟨levels, hderives⟩ := hderives
  rw [parse_of_nesting htext hcut hderives hnesting hheight, ← htranslated, String.ofList_toList]

variable {a b : String} {f g : Formula}

/-- A formula in parentheses is the formula. -/
theorem parsesWithin_enclosed (ha : parse scope convert a = .ok f) :
    ParsesWithin scope convert ("(" ++ a ++ ")") ⟨f.term, "(" ++ f.translated ++ ")"⟩ := by
  obtain ⟨ls, gap, htext, hcut, hderives, -, htranslated⟩ := exists_of_parse ha
  have hrow : Cut convert none (enclosed ls gap []) [] := cut_enclosed hcut (by simp [Cut])
  refine parsesWithin_of_row hrow ?_ ⟨_, (derives_enclosed hderives gap [] _).sum_of_atom⟩ ?_
  · rw [textOf_enclosed, ← htext]
    simp [textOf]
  · rw [written_enclosed, htranslated]
    simp [written]

/-- A minus in front of the parentheses negates the formula. -/
theorem parsesWithin_negated (ha : parse scope convert a = .ok f) :
    ParsesWithin scope convert ("-(" ++ a ++ ")")
      ⟨.negate f.term, "-(" ++ f.translated ++ ")"⟩ := by
  obtain ⟨ls, gap, htext, hcut, hderives, -, htranslated⟩ := exists_of_parse ha
  have hinner : Cut convert (some .minus) (enclosed ls gap []) [] :=
    cut_enclosed hcut (by simp [Cut])
  -- the parenthesis opens no number, so the sign stands alone
  have hopens : opensNumber ((textOf (enclosed ls gap []) []).dropWhile isBlank) = false := by
    rw [textOf_enclosed]
    rfl
  have hrow : Cut convert none (.mark [] .minus '-' :: enclosed ls gap []) [] :=
    cut_mark (by simp) rfl (fun _ _ => hopens) hinner
  refine parsesWithin_of_row hrow ?_ ?_ ?_
  · rw [textOf_mark, textOf_enclosed, ← htext]
    simp [textOf]
  · exact ⟨_, (Derives.minus (derives_enclosed hderives gap [] _).sum_of_atom rfl).sum_of_atom⟩
  · rw [written_mark rfl, written_enclosed, htranslated]
    simp [written]

/-- An operator between parentheses joins two formulas. -/
theorem parsesWithin_joined (ha : parse scope convert a = .ok f)
    (hb : parse scope convert b = .ok g) (op : BinaryOp) :
    ParsesWithin scope convert ("(" ++ a ++ ")" ++ op.symbol.toString ++ "(" ++ b ++ ")")
      ⟨.binary op f.term g.term,
        "(" ++ f.translated ++ ")" ++ op.symbol.toString ++ "(" ++ g.translated ++ ")"⟩ := by
  obtain ⟨as, gapa, htexta, hcuta, hderivesa, -, htransa⟩ := exists_of_parse ha
  obtain ⟨bs, gapb, htextb, hcutb, hderivesb, -, htransb⟩ := exists_of_parse hb
  have hright : Cut convert (some op.kind) (enclosed bs gapb []) [] :=
    cut_enclosed hcutb (by simp [Cut])
  have hbehind : Cut convert (some .rightParen)
      (.mark [] op.kind op.symbol :: enclosed bs gapb []) [] :=
    cut_mark (by simp) op.punctuation?_symbol (fun _ hadmits => absurd hadmits Bool.false_ne_true)
      hright
  have hrow : Cut convert none
      (enclosed as gapa (.mark [] op.kind op.symbol :: enclosed bs gapb [])) [] :=
    cut_enclosed hcuta hbehind
  refine parsesWithin_of_row hrow ?_ ?_ ?_
  · rw [textOf_enclosed, textOf_mark, textOf_enclosed, ← htexta, ← htextb]
    simp [textOf]
  · -- both operands are atoms, so the operator's chain takes them
    have hleft := derives_enclosed hderivesa gapa
      (.mark [] op.kind op.symbol :: enclosed bs gapb []) [.finish]
    have hright := derives_enclosed hderivesb gapb [] [.finish]
    have hjoined := Derives.join (.operand (hleft.operand_of_atom op.chain)) op.operator?_kind
      (hright.operand_of_atom op.chain)
    exact ⟨_, hjoined.sum_of_chain⟩
  · rw [written_enclosed, written_mark op.isLeaf_kind, written_enclosed, htransa, htransb]
    simp [written]

/-- A function of one argument is called with the formula. -/
theorem parsesWithin_called (ha : parse scope convert a = .ok f) {name : String}
    (hname : (Builtin.unary? name).isSome) :
    ParsesWithin scope convert (name ++ "(" ++ a ++ ")")
      ⟨.call name f.term, name ++ "(" ++ f.translated ++ ")"⟩ := by
  obtain ⟨ls, gap, htext, hcut, hderives, -, htranslated⟩ := exists_of_parse ha
  obtain ⟨hword, hlower⟩ := isWordText_of_builtin (.inl hname)
  have hinner : Cut convert (some (.name (lowerCase name))) (enclosed ls gap []) [] :=
    cut_enclosed hcut (by simp [Cut])
  have hbehind : startsWith isWord (textOf (enclosed ls gap []) []) = false := by
    rw [textOf_enclosed]
    rfl
  have hrow : Cut convert none (.ofWord [] name :: enclosed ls gap []) [] :=
    cut_word hword hbehind hinner
  refine parsesWithin_of_row hrow ?_ ?_ ?_
  · rw [textOf_word hword, textOf_enclosed, ← htext]
    simp [textOf]
  · have hcall := Derives.call hname (hderives.before rfl (by decide) [.finish])
    refine ⟨maxDepth + 1, ?_⟩
    rw [List.map_cons, map_kind_enclosed, Lexeme.ofWord, hlower]
    simpa using hcall.sum_of_atom
  · rw [written_called hword [] rfl, written_enclosed, htranslated]
    simp [written]

/-- A function of two arguments is called with two formulas. -/
theorem parsesWithin_called2 (ha : parse scope convert a = .ok f)
    (hb : parse scope convert b = .ok g) {name : String} (hname : (Builtin.binary? name).isSome) :
    ParsesWithin scope convert (name ++ "(" ++ a ++ "," ++ b ++ ")")
      ⟨.call2 name f.term g.term,
        name ++ "(" ++ f.translated ++ "," ++ g.translated ++ ")"⟩ := by
  obtain ⟨as, gapa, htexta, hcuta, hderivesa, -, htransa⟩ := exists_of_parse ha
  obtain ⟨bs, gapb, htextb, hcutb, hderivesb, -, htransb⟩ := exists_of_parse hb
  obtain ⟨hword, hlower⟩ := isWordText_of_builtin (.inr hname)
  have hsecond : Cut convert (some .comma) (bs ++ [.mark gapb .rightParen ')']) [] :=
    cut_append_closing hcutb ⟨rfl, rfl⟩ isClosing_rightParen (fun _ => rfl) (by simp [Cut])
  have hfirst : Cut convert (some .leftParen)
      (as ++ .mark gapa .comma ',' :: (bs ++ [.mark gapb .rightParen ')'])) [] :=
    cut_append_closing hcuta ⟨rfl, rfl⟩ isClosing_comma (fun _ => rfl) hsecond
  have hrow : Cut convert none (.ofWord [] name :: .mark [] .leftParen '(' ::
      (as ++ .mark gapa .comma ',' :: (bs ++ [.mark gapb .rightParen ')']))) [] :=
    cut_word hword rfl (cut_leftParen hfirst)
  refine parsesWithin_of_row hrow ?_ ?_ ?_
  · rw [textOf_word hword, textOf_mark, textOf_append_mark, textOf_append_mark, ← htexta, ← htextb]
    simp [textOf]
  · have hcall := Derives.call2 hname (hderivesa.before rfl (by decide) _)
      (hderivesb.before rfl (by decide) [.finish])
    refine ⟨maxDepth + 1, ?_⟩
    rw [List.map_cons, Lexeme.ofWord, hlower]
    simpa [Lexeme.mark] using hcall.sum_of_atom
  · rw [written_called hword [] rfl, written_mark rfl, written_append_mark rfl (by decide),
      written_append_mark rfl (by decide), htransa, htransb]
    simp [written]

/-- Accepted texts make up new ones.  In parentheses a formula is itself, with a minus in front it
is negated, an operator joins two formulas in parentheses, and each built-in function is called with
one or two of them.  The terms and the translated texts are put together in the same way, provided
the whole keeps the limits on nesting and height. -/
theorem parse_compound (ha : parse scope convert a = .ok f) (hb : parse scope convert b = .ok g) :
    ParsesWithin scope convert ("(" ++ a ++ ")") ⟨f.term, "(" ++ f.translated ++ ")"⟩ ∧
      ParsesWithin scope convert ("-(" ++ a ++ ")")
        ⟨.negate f.term, "-(" ++ f.translated ++ ")"⟩ ∧
      (∀ op : BinaryOp,
        ParsesWithin scope convert ("(" ++ a ++ ")" ++ op.symbol.toString ++ "(" ++ b ++ ")")
          ⟨.binary op f.term g.term,
            "(" ++ f.translated ++ ")" ++ op.symbol.toString ++ "(" ++ g.translated ++ ")"⟩) ∧
      (∀ name, (Builtin.unary? name).isSome →
        ParsesWithin scope convert (name ++ "(" ++ a ++ ")")
          ⟨.call name f.term, name ++ "(" ++ f.translated ++ ")"⟩) ∧
      (∀ name, (Builtin.binary? name).isSome →
        ParsesWithin scope convert (name ++ "(" ++ a ++ "," ++ b ++ ")")
          ⟨.call2 name f.term g.term,
            name ++ "(" ++ f.translated ++ "," ++ g.translated ++ ")"⟩) := by
  refine ⟨parsesWithin_enclosed ha, parsesWithin_negated ha, parsesWithin_joined ha hb, ?_, ?_⟩
  · intro name hname
    exact parsesWithin_called ha hname
  · intro name hname
    exact parsesWithin_called2 ha hb hname

end Compounds

/-- A sign stays inside its parentheses. -/
theorem parse_compound_power :
    parse Scope.empty readLength? "(x)^(-y)"
      = .ok ⟨.binary .pow (.var "x") (.negate (.var "y")), "(x)^(-y)"⟩ := by
  have hx : parse Scope.empty readLength? "x" = .ok ⟨.var "x", "x"⟩ :=
    eq_ok_of_toOption (by decide +kernel)
  have hy : parse Scope.empty readLength? "-y" = .ok ⟨.negate (.var "y"), "-y"⟩ :=
    eq_ok_of_toOption (by decide +kernel)
  have htext : "(" ++ "x" ++ ")" ++ BinaryOp.pow.symbol.toString ++ "(" ++ "-y" ++ ")"
      = "(x)^(-y)" := by decide
  have hpower := (parse_compound hx hy).2.2.1 .pow
  rw [htext] at hpower
  exact hpower (by decide +kernel) (by decide)

end Formula

end LengthFormula
