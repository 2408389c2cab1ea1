import LengthFormula.Proofs.Formula.Acceptance
import LengthFormula.Proofs.Length.Spacing
import LengthFormula.Proofs.Token.OneNumber

/-!
# White space between tokens

A blank put into a text anywhere but inside a token leaves the tokens as they are and moves those
behind it (`tokenize_insert_blank`).  No lexeme sees the blank, however far behind it is
(`Lexeme.Stands.spaced`), so the row of lexemes is cut off as before with the blank in one of its
gaps.
-/

namespace LengthFormula

/-! ## Lexemes in front of a blank -/

/-- Behind its sign a number literal opens with a digit or a point. -/
theorem startsWith_drop_signPart {previous : Option TokenKind} {cs : List Char}
    (h : atNumber previous cs = true) :
    startsWith isNumberLead (cs.drop (signPart cs).length) = true := by
  cases cs with
  | nil => cases h
  | cons c cs =>
    by_cases hlead : isNumberLead c = true
    · rwa [signPart_of_isNumberLead hlead]
    · simp only [atNumber, startsWith_cons, hlead, Bool.false_eq_true, if_false, Bool.and_eq_true,
        List.tail_cons] at h
      rw [signPart_of_isSign h.1.1, List.length_cons, List.drop_succ_cons, drop_length_takeWhile]
      obtain ⟨d, ds, hds⟩ := List.exists_cons_of_ne_nil (ne_nil_of_opensNumber h.2)
      rw [hds] at h ⊢
      exact isNumberLead_of_opensNumber h.2

/-- A number literal is taken with the same value in front of another text if its body is. -/
theorem scanNumber_of_read {convert : Converter} {previous : Option TokenKind} {kind : TokenKind}
    {taken x x' : List Char} (hat : atNumber previous (taken ++ x) = true)
    (h : scanNumber convert (taken ++ x) = .ok (kind, taken))
    (hbody : ∀ body v, startsWith isNumberLead (body ++ x) = true →
      (Literal.scan (body ++ x)).read convert = (body, some v) →
      (Literal.scan (body ++ x')).read convert = (body, some v)) :
    scanNumber convert (taken ++ x') = .ok (kind, taken) := by
  have hlead := startsWith_drop_signPart hat
  obtain ⟨body, v, hread, htaken, hkind⟩ := scanNumber_eq_ok_iff.1 h
  obtain ⟨sign, hsign⟩ : ∃ sign, signPart (taken ++ x) = sign := ⟨_, rfl⟩
  rw [hsign] at hread hlead htaken hkind
  subst htaken
  rw [List.append_assoc, List.drop_left] at hread hlead
  -- the literal takes its first character, so the sign is followed by no blank and no sign
  have hopens := Literal.startsWith_of_read hlead hread
  obtain ⟨c, body, rfl⟩ : ∃ c cs, body = c :: cs := by
    cases body with
    | nil => cases hopens
    | cons c cs => exact ⟨c, cs, rfl⟩
  have hc : isNumberLead c = true := hopens
  have hsigns : ∀ z, signPart (sign ++ c :: body ++ z) = signPart sign := by
    intro z
    rw [List.append_assoc]
    exact signPart_append_stop (isSign_of_isNumberLead hc) (isBlank_of_isNumberLead hc)
  rw [hsigns] at hsign
  refine scanNumber_eq_ok_iff.2 ⟨c :: body, v, ?_, ?_, ?_⟩
  · rw [hsigns, hsign, List.append_assoc, List.drop_left]
    exact hbody (c :: body) v hc hread
  · rw [hsigns, hsign]
  · rw [hsigns, hsign, hkind]

/-- A number literal is taken with the same value in front of a text with a blank put in. -/
theorem scanNumber_spaced {previous : Option TokenKind} {kind : TokenKind} {taken x x' : List Char}
    (hat : atNumber previous (taken ++ x) = true)
    (h : scanNumber readLength? (taken ++ x) = .ok (kind, taken))
    (hfoot : startsWith isFootMark x = false) (hs : Spaced x x') :
    scanNumber readLength? (taken ++ x') = .ok (kind, taken) :=
  scanNumber_of_read hat h fun _ _ hlead hread => Literal.read_spaced hlead hread hfoot hs

section Stands

variable {previous : Option TokenKind} {l : Lexeme} {behind behind' : List Char}

/-- A lexeme does not see a blank that is put into the text behind it. -/
theorem Lexeme.Stands.spaced (h : l.Stands readLength? previous behind)
    (hfoot : startsWith isFootMark behind = false) (hs : Spaced behind behind') :
    l.Stands readLength? previous behind' := by
  cases hkind : l.kind with
  | number x =>
    refine h.of_number hkind (SameSide.refl _) ?_
    rw [Stands] at h
    simp only [hkind] at h ⊢
    exact scanNumber_spaced h.1 h.2 hfoot hs
  | name name =>
    refine h.of_name hkind (hs.startsWith_eq_false isWord_of_isBlank ?_)
    rw [Stands] at h
    simp only [hkind] at h
    exact h.2.2.2
  | _ =>
    refine h.of_mark (by rw [hkind]; rfl) (SameSide.refl _) ?_
    exact fun _ _ => hs.opensNumber_dropWhile_eq_false

/-- No token opens with a foot mark. -/
theorem scanToken_footMark (convert : Converter) (cs : List Char) :
    scanToken convert previous '\x27' cs = .error (.unexpectedChar '\x27') := by
  have hat : atNumber previous ('\x27' :: cs) = false := rfl
  rw [scanToken, hat]
  rfl

theorem startsWith_isFootMark_textOf {convert : Converter} {ls : List Lexeme} {trail : List Char}
    (h : Cut convert previous ls trail) : startsWith isFootMark (textOf ls trail) = false := by
  have hblanks : ∀ {gap cs : List Char}, (∀ c ∈ gap, isBlank c = true) →
      startsWith isFootMark cs = false → startsWith isFootMark (gap ++ cs) = false := by
    intro gap cs hgap hcs
    cases gap with
    | nil => exact hcs
    | cons c gap => exact isFootMark_of_isBlank (hgap c List.mem_cons_self)
  cases ls with
  | nil =>
    rw [textOf, ← List.append_nil trail]
    exact hblanks h rfl
  | cons l ls =>
    obtain ⟨hgap, -, hscan, -⟩ := h
    refine hblanks hgap ?_
    rw [startsWith_cons, Bool.eq_false_iff]
    intro hfoot
    rw [isFootMark, beq_iff_eq] at hfoot
    rw [hfoot, scanToken_footMark] at hscan
    cases hscan

end Stands

/-! ## Rows with a blank put in -/

theorem utf8Length_pos {cs : List Char} (h : cs ≠ []) : 0 < utf8Length cs := by
  obtain ⟨c, cs, rfl⟩ := List.exists_cons_of_ne_nil h
  exact Nat.lt_of_lt_of_le (Char.utf8Size_pos c) (Nat.le_add_right _ _)

/-- The second row is the first one with the blank `w` put into one of its gaps, or into the white
space at its end; `a` is the text in front of the blank. -/
inductive Widened (w : Char) :
    List Char → List Lexeme → List Char → List Lexeme → List Char → Prop
  | trail {a b : List Char} : Widened w a [] (a ++ b) [] (a ++ w :: b)
  | gap {a b trail : List Char} {l : Lexeme} {ls : List Lexeme} : l.gap = a ++ b →
      Widened w a (l :: ls) trail ({ l with gap := a ++ w :: b } :: ls) trail
  | behind {a trail trail' : List Char} {l : Lexeme} {ls ls' : List Lexeme} :
      Widened w a ls trail ls' trail' →
      Widened w (l.gap ++ (l.chars ++ a)) (l :: ls) trail (l :: ls') trail'

/-- The token, moved on by so many bytes if it does not start before the position. -/
def Token.movedFrom (position bytes : Nat) (token : Token) : Token :=
  if position ≤ token.span.start then
    ⟨token.kind, ⟨token.span.start + bytes, token.span.stop + bytes⟩⟩
  else token

@[simp]
theorem Token.kind_movedFrom (position bytes : Nat) (token : Token) :
    (token.movedFrom position bytes).kind = token.kind := by
  unfold movedFrom
  split <;> rfl

@[simp]
theorem kindsOf_map_movedFrom (position bytes : Nat) (tokens : List Token) :
    kindsOf (tokens.map (Token.movedFrom position bytes)) = kindsOf tokens := by
  simp [kindsOf, Function.comp_def]

/-- A row that starts further behind has all its tokens moved. -/
theorem tokensFrom_add {start position : Nat} (hle : start ≤ position) (bytes : Nat)
    (ls : List Lexeme) (trail : List Char) :
    tokensFrom (position + bytes) ls trail
      = (tokensFrom position ls trail).map (Token.movedFrom start bytes) := by
  induction ls generalizing position with
  | nil =>
    have hstart : start ≤ position + utf8Length trail := by omega
    simp only [tokensFrom, List.map_cons, List.map_nil, Token.movedFrom, if_pos hstart]
    congr 3 <;> omega
  | cons l ls ih =>
    have hstart : start ≤ position + utf8Length l.gap := by omega
    have hstop : start ≤ position + utf8Length l.gap + utf8Length l.chars := by omega
    simp only [tokensFrom, List.map_cons, Token.movedFrom, if_pos hstart]
    rw [← ih hstop, Nat.add_right_comm position bytes,
      Nat.add_right_comm (position + utf8Length l.gap) bytes]

namespace Widened

variable {w : Char} {a b trail trail' : List Char} {ls ls' : List Lexeme}

theorem textOf_eq (h : Widened w a ls trail ls' trail') :
    ∃ b, textOf ls trail = a ++ b ∧ textOf ls' trail' = a ++ w :: b := by
  induction h with
  | @trail a b => exact ⟨b, rfl, rfl⟩
  | @gap a b trail l ls hgap =>
    exact ⟨b ++ l.first :: (l.others ++ textOf ls trail), by simp [textOf, hgap], by simp [textOf]⟩
  | @behind a trail trail' l ls ls' _ ih =>
    obtain ⟨b, hb, hb'⟩ := ih
    exact ⟨b, by simp [textOf, Lexeme.chars, hb], by simp [textOf, Lexeme.chars, hb']⟩

theorem spaced (h : Widened w a ls trail ls' trail') (hw : isBlank w = true) :
    Spaced (textOf ls trail) (textOf ls' trail') := by
  obtain ⟨b, hb, hb'⟩ := h.textOf_eq
  rw [hb, hb']
  exact .insert hw a b

/-- The lexemes are cut off as before. -/
theorem cut (h : Widened w a ls trail ls' trail') (hw : isBlank w = true)
    {previous : Option TokenKind} (hcut : Cut readLength? previous ls trail) :
    Cut readLength? previous ls' trail' := by
  have hwiden : ∀ {a b : List Char}, (∀ c ∈ a ++ b, isBlank c = true) →
      ∀ c ∈ a ++ w :: b, isBlank c = true := by
    intro a b hall
    obtain ⟨ha, hb⟩ := List.forall_mem_append.1 hall
    exact List.forall_mem_append.2 ⟨ha, List.forall_mem_cons.2 ⟨hw, hb⟩⟩
  induction h generalizing previous with
  | trail => exact hwiden hcut
  | gap hgap =>
    obtain ⟨hblanks, hrest⟩ := hcut
    rw [hgap] at hblanks
    exact ⟨hwiden hblanks, hrest⟩
  | behind h ih =>
    obtain ⟨hgap, hfirst, hstands, hrest⟩ := cut_cons_iff.1 hcut
    exact cut_cons_iff.2 ⟨hgap, hfirst,
      hstands.spaced (startsWith_isFootMark_textOf hrest) (h.spaced hw), ih hrest⟩

/-- The tokens behind the blank are moved, and the others stay. -/
theorem tokensFrom_eq (h : Widened w a ls trail ls' trail') (position : Nat) :
    tokensFrom position ls' trail'
      = (tokensFrom position ls trail).map
          (Token.movedFrom (position + utf8Length a) w.utf8Size) := by
  induction h generalizing position with
  | @trail a b =>
    have hle : position + utf8Length a ≤ position + utf8Length (a ++ b) := by simp
    simp only [tokensFrom, List.map_cons, List.map_nil, Token.movedFrom, if_pos hle]
    congr 3 <;> simp <;> omega
  | @gap a b trail l ls hgap =>
    have hlength : utf8Length (a ++ w :: b) = utf8Length l.gap + w.utf8Size := by
      rw [hgap]
      simp
      omega
    have hle : position + utf8Length a ≤ position + utf8Length l.gap := by
      rw [hgap]
      simp
    simp only [tokensFrom, List.map_cons, Token.movedFrom, if_pos hle, hlength]
    rw [← tokensFrom_add (Nat.le_add_right_of_le hle), ← Nat.add_assoc,
      Nat.add_right_comm _ w.utf8Size]
    rfl
  | @behind a trail trail' l ls ls' _ ih =>
    have hpos : 0 < utf8Length l.chars := utf8Length_pos (List.cons_ne_nil _ _)
    have hlt : ¬ position + utf8Length (l.gap ++ (l.chars ++ a)) ≤ position + utf8Length l.gap := by
      simp only [utf8Length_append]
      omega
    have hsum : position + utf8Length l.gap + utf8Length l.chars + utf8Length a
        = position + utf8Length (l.gap ++ (l.chars ++ a)) := by
      simp only [utf8Length_append]
      omega
    simp only [tokensFrom, List.map_cons, Token.movedFrom, if_neg hlt]
    rw [ih, hsum]

/-- Between tokens there is a gap for every blank. -/
theorem exists_of_append (htext : textOf ls trail = a ++ b) (position : Nat)
    (hplace : ∀ token ∈ tokensFrom position ls trail,
      ¬ (token.span.start < position + utf8Length a ∧
        position + utf8Length a < token.span.stop)) :
    ∃ ls' trail', Widened w a ls trail ls' trail' := by
  induction ls generalizing a position with
  | nil =>
    rw [textOf] at htext
    exact ⟨[], a ++ w :: b, htext ▸ .trail⟩
  | cons l ls ih =>
    have hhead := hplace _ List.mem_cons_self
    have hrec : ∀ a', a = l.gap ++ (l.chars ++ a') → textOf ls trail = a' ++ b →
        ∃ ls' trail', Widened w a (l :: ls) trail ls' trail' := by
      rintro a' rfl hrest
      obtain ⟨ls', trail', h⟩ := ih hrest (position + utf8Length l.gap +
          utf8Length l.chars) fun token htoken => by
        have := hplace token (List.mem_cons_of_mem _ htoken)
        simpa only [utf8Length_append, Nat.add_assoc] using this
      exact ⟨l :: ls', trail', .behind h⟩
    rw [textOf, ← List.cons_append] at htext
    rcases List.append_eq_append_iff.1 htext with ⟨behind, rfl, hbehind⟩ | ⟨back, hgap, -⟩
    · rcases List.append_eq_append_iff.1 hbehind with ⟨a', rfl, hrest⟩ | ⟨back, hchars, rfl⟩
      · exact hrec a' rfl hrest
      · -- the place lies in the lexeme, so it is one of its ends
        by_cases hfront : behind = []
        · exact ⟨_, _, .gap (b := []) (by simp [hfront])⟩
        · by_cases hback : back = []
          · refine hrec [] ?_ (by simp [hback])
            rw [hback, List.append_nil] at hchars
            rw [List.append_nil, ← hchars]
            rfl
          · refine absurd ?_ hhead
            have hlength := congrArg utf8Length hchars
            have := utf8Length_pos hfront
            have := utf8Length_pos hback
            simp only [utf8Length_append, Lexeme.chars] at hlength ⊢
            omega
    · exact ⟨_, _, .gap hgap⟩

end Widened

/-! ## White space and formulas -/

/-- A tree of a text is the tree of every text with tokens of the same kinds. -/
theorem Formula.exists_of_kindsOf {scope : Scope} {convert : Converter} {cs cs' : List Char}
    {tokens tokens' : List Token} (h : tokenize convert cs = .ok tokens)
    (h' : tokenize convert cs' = .ok tokens') (hkinds : kindsOf tokens' = kindsOf tokens)
    {f : Formula} (hf : parse scope convert (String.ofList cs) = .ok f) :
    ∃ f', parse scope convert (String.ofList cs') = .ok f' ∧ f'.term = f.term := by
  obtain ⟨ls, trail, htext, hcut, hderives, hheight, -⟩ := exists_of_parse hf
  obtain ⟨ls', trail', htext', hcut', rfl⟩ := tokenize_eq_ok_iff.1 h'
  rw [String.toList_ofList] at htext
  rw [htext, tokenize_of_cut hcut] at h
  rw [← Except.ok.inj h, kindsOf_tokensFrom, kindsOf_tokensFrom] at hkinds
  rw [← hkinds] at hderives
  have htoList : (String.ofList cs').toList = textOf ls' trail' := by rwa [String.toList_ofList]
  rcases parse_of_derives htoList hcut' hderives with hok | ⟨hlimits, -⟩
  · exact hok
  · exact absurd ⟨Nat.le_refl _, hheight⟩ hlimits

/-- Texts with tokens of the same kinds have the same tree, or neither is a formula. -/
theorem Formula.term_eq_of_kindsOf (scope : Scope) {convert : Converter} {cs cs' : List Char}
    {tokens tokens' : List Token} (h : tokenize convert cs = .ok tokens)
    (h' : tokenize convert cs' = .ok tokens') (hkinds : kindsOf tokens' = kindsOf tokens) :
    (parse scope convert (String.ofList cs')).toOption.map term
      = (parse scope convert (String.ofList cs)).toOption.map term := by
  cases hparse : parse scope convert (String.ofList cs) with
  | ok f =>
    obtain ⟨f', hf', hterm⟩ := exists_of_kindsOf h h' hkinds hparse
    rw [hf']
    exact congrArg some hterm
  | error e =>
    cases hparse' : parse scope convert (String.ofList cs') with
    | error e' => rfl
    | ok f' =>
      obtain ⟨f, hf, -⟩ := exists_of_kindsOf h' h hkinds.symm hparse'
      rw [hf] at hparse
      cases hparse

/-- A blank put in anywhere but inside a token changes nothing but the places of the tokens behind
it; so the text stays the formula that it is. -/
theorem tokenize_insert_blank {a b : List Char} {w : Char} {tokens : List Token}
    (h : tokenize readLength? (a ++ b) = .ok tokens) (hw : isBlank w = true)
    (hplace : ∀ token ∈ tokens,
      ¬ (token.span.start < utf8Length a ∧ utf8Length a < token.span.stop)) :
    tokenize readLength? (a ++ w :: b)
        = .ok (tokens.map (Token.movedFrom (utf8Length a) w.utf8Size)) ∧
      ∀ scope, (Formula.parse scope readLength? (String.ofList (a ++ w :: b))).toOption.map
          Formula.term
        = (Formula.parse scope readLength? (String.ofList (a ++ b))).toOption.map Formula.term := by
  have hmoved : tokenize readLength? (a ++ w :: b)
      = .ok (tokens.map (Token.movedFrom (utf8Length a) w.utf8Size)) := by
    obtain ⟨ls, trail, htext, hcut, rfl⟩ := tokenize_eq_ok_iff.1 h
    obtain ⟨ls', trail', hwidened⟩ :=
      Widened.exists_of_append (w := w) htext.symm 0 (by simpa using hplace)
    obtain ⟨b', hb, hb'⟩ := hwidened.textOf_eq
    rw [← htext] at hb
    obtain rfl := List.append_cancel_left hb
    rw [← hb', tokenize_of_cut (hwidened.cut hw hcut), hwidened.tokensFrom_eq, Nat.zero_add]
  exact ⟨hmoved, fun scope => Formula.term_eq_of_kindsOf scope h hmoved (by simp)⟩

/-- In `6-1/2` a space between the number and the minus leaves a subtraction, although the scanner
of literals looks for a whole number and a fraction there. -/
theorem tokenize_insert_blank_fraction :
    tokenize readLength? "6 -1/2".toList = .ok
        [⟨.number 6, ⟨0, 1⟩⟩, ⟨.minus, ⟨2, 3⟩⟩, ⟨.number 1, ⟨3, 4⟩⟩, ⟨.slash, ⟨4, 5⟩⟩,
          ⟨.number 2, ⟨5, 6⟩⟩, ⟨.finish, ⟨6, 6⟩⟩] := by
  have htokens : tokenize readLength? (['6'] ++ "-1/2".toList) = .ok
      [⟨.number 6, ⟨0, 1⟩⟩, ⟨.minus, ⟨1, 2⟩⟩, ⟨.number 1, ⟨2, 3⟩⟩, ⟨.slash, ⟨3, 4⟩⟩,
        ⟨.number 2, ⟨4, 5⟩⟩, ⟨.finish, ⟨5, 5⟩⟩] := eq_ok_of_toOption (by decide +kernel)
  exact (tokenize_insert_blank (w := ' ') htokens (by decide) (by decide)).1

end LengthFormula
