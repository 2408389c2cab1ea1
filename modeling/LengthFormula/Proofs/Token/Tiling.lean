import LengthFormula.Proofs.Token.Front
import LengthFormula.Proofs.Token.Spacing
import Mathlib.Logic.ExistsUnique

/-!
# Tokens tile the text

A span splits its text into what is in front of it, what it covers and what is behind it
(`Span.Splits`); so it starts and stops between characters.  The tokens of a text cover it in order:
each covers a text of its kind, and every character that is no white space lies in just one of them
(`Tiles`, `tokenize_tiles`).
-/

namespace LengthFormula

/-! ## Spans -/

/-- The span covers `inside`, which stands between `before` and `behind` in the text. -/
structure Span.Splits (span : Span) (text before inside behind : List Char) : Prop where
  text_eq : text = before ++ (inside ++ behind)
  start_eq : span.start = utf8Length before
  stop_eq : span.stop = utf8Length before + utf8Length inside

/-- The byte lies in the span. -/
def Span.Covers (span : Span) (position : Nat) : Prop :=
  span.start ≤ position ∧ position < span.stop

theorem Span.Splits.start_lt_stop {span : Span} {text before inside behind : List Char}
    (h : span.Splits text before inside behind) (hne : inside ≠ []) : span.start < span.stop := by
  have hpos := utf8Length_pos hne
  rw [h.start_eq, h.stop_eq]
  omega

section Rows

variable {convert : Converter} {previous : Option TokenKind} {l : Lexeme} {as bs ls : List Lexeme}
  {front trail : List Char} {position : Nat} {token : Token} {before after : List Token}

/-! ## The place of a token in its row -/

/-- A token that is not the end of the text comes from a lexeme, whose characters it covers. -/
theorem exists_lexeme_of_tokensFrom (htokens : tokensFrom (utf8Length front) ls trail
      = before ++ token :: after) (hkind : token.kind ≠ .finish) :
    ∃ as l bs, ls = as ++ l :: bs ∧ before = placed (utf8Length front) as ∧ token.kind = l.kind ∧
      after = tokensFrom token.span.stop bs trail ∧
      token.span.Splits (front ++ textOf ls trail) (front ++ textOf as l.gap) l.chars
        (textOf bs trail) := by
  induction before generalizing front ls with
  | nil =>
    cases ls with
    | nil =>
      rw [tokensFrom, List.nil_append] at htokens
      exact absurd (congrArg Token.kind (List.cons.inj htokens).1).symm hkind
    | cons l ls =>
      obtain ⟨rfl, rfl⟩ := List.cons.inj htokens
      refine ⟨[], l, ls, rfl, rfl, rfl, rfl, ?_, ?_, ?_⟩
      · simp [textOf, Lexeme.chars]
      · simp [textOf]
      · simp [textOf]
  | cons first before ih =>
    cases ls with
    | nil =>
      rw [tokensFrom, List.cons_append] at htokens
      exact absurd (List.cons.inj htokens).2 (by simp)
    | cons l ls =>
      obtain ⟨rfl, hlater⟩ := List.cons.inj htokens
      have hfront : utf8Length (front ++ (l.gap ++ l.chars))
          = utf8Length front + utf8Length l.gap + utf8Length l.chars := by
        rw [utf8Length_append, utf8Length_append, Nat.add_assoc]
      rw [← hfront] at hlater
      obtain ⟨as, l', bs, rfl, rfl, hl', rfl, hsplits⟩ := ih hlater
      have htext : front ++ (l.gap ++ l.chars) ++ textOf (as ++ l' :: bs) trail
          = front ++ textOf (l :: (as ++ l' :: bs)) trail := by
        simp [textOf, Lexeme.chars]
      have hbefore : front ++ (l.gap ++ l.chars) ++ textOf as l'.gap
          = front ++ textOf (l :: as) l'.gap := by
        simp [textOf, Lexeme.chars]
      rw [htext, hbefore] at hsplits
      refine ⟨l :: as, l', bs, rfl, ?_, hl', rfl, hsplits⟩
      rw [placed, ← hfront]

theorem exists_lexeme_of_tokens (htokens : tokensFrom 0 ls trail = before ++ token :: after)
    (hkind : token.kind ≠ .finish) :
    ∃ as l bs, ls = as ++ l :: bs ∧ before = placed 0 as ∧ token.kind = l.kind ∧
      after = tokensFrom token.span.stop bs trail ∧
      token.span.Splits (textOf ls trail) (textOf as l.gap) l.chars (textOf bs trail) := by
  have hfront : tokensFrom (utf8Length []) ls trail = before ++ token :: after := htokens
  exact exists_lexeme_of_tokensFrom hfront hkind

/-- A row goes on behind its first lexemes. -/
theorem cut_behind (h : Cut convert previous (as ++ ls) trail) :
    Cut convert (lastKind previous as) ls trail := by
  induction as generalizing previous with
  | nil => exact h
  | cons l as ih => exact ih (cut_cons_iff.1 h).2.2.2

/-- A lexeme of a row stands behind the lexemes in front of it. -/
theorem stands_of_cut (h : Cut convert previous (as ++ l :: bs) trail) :
    l.Stands convert (lastKind previous as) (textOf bs trail) :=
  (cut_cons_iff.1 (cut_behind h)).2.2.1

/-- The tokens of a row start where the row does or behind it. -/
theorem le_start_of_mem_tokensFrom (h : token ∈ tokensFrom position ls trail) :
    position ≤ token.span.start ∧ token.span.start ≤ token.span.stop := by
  induction ls generalizing position with
  | nil =>
    rw [List.mem_singleton.1 h]
    exact ⟨Nat.le_add_right _ _, Nat.le_refl _⟩
  | cons l ls ih =>
    rcases List.mem_cons.1 h with rfl | h
    · exact ⟨Nat.le_add_right _ _, Nat.le_add_right _ _⟩
    · obtain ⟨hstart, hstop⟩ := ih h
      exact ⟨by omega, hstop⟩

/-- Every token stops before the next one starts. -/
theorem pairwise_tokensFrom (position : Nat) (ls : List Lexeme) (trail : List Char) :
    (tokensFrom position ls trail).Pairwise fun a b => a.span.stop ≤ b.span.start := by
  induction ls generalizing position with
  | nil => exact List.pairwise_singleton _ _
  | cons l ls ih =>
    refine List.pairwise_cons.2 ⟨fun token htoken => ?_, ih _⟩
    exact (le_start_of_mem_tokensFrom htoken).1

/-- A character of a text in two parts is in the first or in the second one. -/
theorem append_eq_append_cons {x y a b : List Char} {c : Char} (h : x ++ y = a ++ c :: b) :
    (∃ b', x = a ++ c :: b') ∨ ∃ a', a = x ++ a' ∧ y = a' ++ c :: b := by
  rcases List.append_eq_append_iff.1 h with hbehind | ⟨back, rfl, hback⟩
  · exact .inr hbehind
  · cases back with
    | nil => exact .inr ⟨[], by simp, hback.symm⟩
    | cons d back =>
      obtain ⟨rfl, -⟩ := List.cons.inj hback
      exact .inl ⟨back, rfl⟩

/-- Every character that is no white space is covered by a token. -/
theorem exists_covers_of_cut (h : Cut convert previous ls trail) {a b : List Char} {c : Char}
    (htext : textOf ls trail = a ++ c :: b) (hc : isBlank c = false) (position : Nat) :
    ∃ token ∈ tokensFrom position ls trail, token.span.Covers (position + utf8Length a) := by
  have hnot : ∀ {gap x y : List Char}, (∀ d ∈ gap, isBlank d = true) → gap ≠ x ++ c :: y := by
    rintro _ x y hgap rfl
    rw [hgap c (by simp)] at hc
    cases hc
  induction ls generalizing previous position a with
  | nil => exact absurd htext (hnot h)
  | cons l ls ih =>
    obtain ⟨hgap, -, -, hrest⟩ := h
    have hparts : l.gap ++ (l.chars ++ textOf ls trail) = a ++ c :: b := htext
    rcases append_eq_append_cons hparts with ⟨b', hin⟩ | ⟨a', rfl, hbehind⟩
    · exact absurd hin (hnot hgap)
    rcases append_eq_append_cons hbehind with ⟨b', hin⟩ | ⟨a'', rfl, hlater⟩
    · have hlength := congrArg utf8Length hin
      have hpos := c.utf8Size_pos
      refine ⟨_, List.mem_cons_self, ?_, ?_⟩
      · simp only [utf8Length_append]
        omega
      · simp only [utf8Length_append, utf8Length_cons] at hlength ⊢
        omega
    · obtain ⟨token, htoken, hcovers⟩ := ih hrest hlater
        (position + utf8Length l.gap + utf8Length l.chars)
      refine ⟨token, List.mem_cons_of_mem _ htoken, ?_⟩
      rwa [utf8Length_append, utf8Length_append, ← Nat.add_assoc, ← Nat.add_assoc]

end Rows

/-! ## Tilings -/

/-- The characters that write a mark. -/
def TokenKind.symbols : TokenKind → List Char
  | plus => ['+']
  | minus => ['-']
  | percent => ['%']
  | star => ['*']
  | slash => ['/']
  | caret => ['^']
  | leftParen => ['(']
  | comma => [',']
  | rightParen => [')']
  | doubledSign => ['+', '-']
  | _ => []

/-- In front of the text `behind`, the token is written `inside`: a number in at least one
character, a name as a whole word in any letter case, and a mark by its one character. -/
def TokenKind.Spelled (kind : TokenKind) (inside behind : List Char) : Prop :=
  match kind with
  | .number _ => inside ≠ []
  | .name word => inside ≠ [] ∧ (∀ c ∈ inside, isWord c = true) ∧ startsWith isWord behind = false ∧
      word = lowerCase (String.ofList inside)
  | .finish => inside = [] ∧ behind = []
  | kind => ∃ c ∈ kind.symbols, inside = [c]

/-- The tokens cover the text in order, each a text of its kind, and leave out nothing but white
space. -/
structure Tiles (text : List Char) (tokens : List Token) : Prop where
  finish_last : ∃ front, .finish ∉ kindsOf front ∧
    tokens = front ++ [⟨.finish, ⟨utf8Length text, utf8Length text⟩⟩]
  nonempty : ∀ token ∈ tokens, token.kind ≠ .finish → token.span.start < token.span.stop
  ordered : tokens.Pairwise fun a b => a.span.stop ≤ b.span.start
  spelled : ∀ token ∈ tokens, ∃ before inside behind,
    token.span.Splits text before inside behind ∧ token.kind.Spelled inside behind
  covered : ∀ before c behind, text = before ++ c :: behind → isBlank c = false →
    ∃! token, token ∈ tokens ∧ token.span.Covers (utf8Length before)

theorem TokenKind.Spelled.ne_nil {kind : TokenKind} {inside behind : List Char}
    (h : kind.Spelled inside behind) (hkind : kind ≠ .finish) : inside ≠ [] := by
  cases kind with
  | number value => exact h
  | name word => exact h.1
  | finish => exact absurd rfl hkind
  | _ =>
    obtain ⟨c, -, rfl⟩ := h
    exact List.cons_ne_nil c []

theorem mem_symbols_of_punctuation? {previous : Option TokenKind} {c : Char} {kind : TokenKind}
    (h : punctuation? previous c = some kind) : c ∈ kind.symbols := by
  unfold punctuation? at h
  split at h <;> cases h <;> first | decide | (split <;> decide)

/-- What a lexeme is cut off as is written by its characters. -/
theorem Lexeme.Stands.spelled {convert : Converter} {previous : Option TokenKind} {l : Lexeme}
    {behind : List Char} (h : l.Stands convert previous behind) (hkind : l.kind ≠ .finish) :
    l.kind.Spelled l.chars behind := by
  rw [Stands] at h
  cases hl : l.kind with
  | number x => exact List.cons_ne_nil _ _
  | name name =>
    simp only [hl] at h
    obtain ⟨hfirst, hothers, hname, hbehind⟩ := h
    refine ⟨List.cons_ne_nil _ _, ?_, hbehind, hname⟩
    exact List.forall_mem_cons.2 ⟨(opensWord_iff.1 hfirst).1, hothers⟩
  | finish => exact absurd hl hkind
  | _ =>
    simp only [hl] at h
    exact ⟨l.first, mem_symbols_of_punctuation? h.2.1, by rw [chars, h.1]⟩

/-- Of two tokens in order one stops before the other starts, so they cover no byte together. -/
theorem eq_of_covers {tokens : List Token} {a b : Token} {position : Nat}
    (h : tokens.Pairwise fun a b => a.span.stop ≤ b.span.start) (ha : a ∈ tokens) (hb : b ∈ tokens)
    (hcovers : a.span.Covers position) (hcovers' : b.span.Covers position) : a = b := by
  have hapart : ∀ {x y : Token}, x.span.stop ≤ y.span.start → x.span.Covers position →
      ¬ y.span.Covers position := by
    intro x y hstop hx hy
    exact absurd (Nat.lt_of_lt_of_le hx.2 hstop) (Nat.not_lt.2 hy.1)
  have hsame : ∀ x ∈ tokens, ∀ y ∈ tokens, x.span.Covers position → y.span.Covers position →
      x = y := by
    refine List.Pairwise.forall_of_forall_of_flip (fun x _ _ _ => rfl) ?_ ?_
    · exact h.imp fun hstop hx hy => absurd hy (hapart hstop hx)
    · exact h.imp fun hstop hy hx => absurd hy (hapart hstop hx)
  exact hsame a ha b hb hcovers hcovers'

section Tilings

variable {convert : Converter} {ls : List Lexeme} {trail : List Char} {token : Token}

theorem finish_notMem_placed (h : Cut convert none ls trail) :
    .finish ∉ kindsOf (placed 0 ls) := by
  have hkinds := kindsOf_tokensFrom 0 ls trail
  rw [tokensFrom_eq_placed, kindsOf, List.map_append] at hkinds
  rw [kindsOf, List.append_cancel_right hkinds]
  exact kind_ne_finish_of_cut h

/-- Every token of a row is written by the text that it covers. -/
theorem exists_spelled (h : Cut convert none ls trail) (htoken : token ∈ tokensFrom 0 ls trail) :
    ∃ before inside behind, token.span.Splits (textOf ls trail) before inside behind ∧
      token.kind.Spelled inside behind := by
  by_cases hkind : token.kind = .finish
  · rw [tokensFrom_eq_placed, Nat.zero_add] at htoken
    rcases List.mem_append.1 htoken with hplaced | hlast
    · exact absurd (hkind ▸ List.mem_map.2 ⟨token, hplaced, rfl⟩) (finish_notMem_placed h)
    · rw [List.mem_singleton.1 hlast]
      exact ⟨textOf ls trail, [], [], ⟨by simp, rfl, rfl⟩, rfl, rfl⟩
  · obtain ⟨before, after, htokens⟩ := List.append_of_mem htoken
    obtain ⟨as, l, bs, rfl, -, hl, -, hsplits⟩ := exists_lexeme_of_tokens htokens hkind
    rw [hl] at hkind ⊢
    exact ⟨_, _, _, hsplits, (stands_of_cut h).spelled hkind⟩

/-- A row of lexemes tiles its text. -/
theorem tiles_of_cut (h : Cut convert none ls trail) :
    Tiles (textOf ls trail) (tokensFrom 0 ls trail) := by
  have hordered := pairwise_tokensFrom 0 ls trail
  refine ⟨⟨placed 0 ls, finish_notMem_placed h, ?_⟩, fun token htoken hkind => ?_, hordered,
    fun token htoken => exists_spelled h htoken, ?_⟩
  · simpa using tokensFrom_eq_placed 0 ls trail
  · obtain ⟨before, inside, behind, hsplits, hspelled⟩ := exists_spelled h htoken
    exact hsplits.start_lt_stop (hspelled.ne_nil hkind)
  · intro before c behind htext hc
    obtain ⟨token, htoken, hcovers⟩ := exists_covers_of_cut h htext hc 0
    rw [Nat.zero_add] at hcovers
    refine ⟨token, ⟨htoken, hcovers⟩, fun other hother => ?_⟩
    exact eq_of_covers hordered hother.1 htoken hother.2 hcovers

end Tilings

/-- Tokenizing ends for every text and every converter: it cuts off tokens, at most one for each
character, until white space is left or no token can be read.  If it succeeds, its tokens tile the
text, so no character is lost and none is read twice. -/
theorem tokenize_tiles (convert : Converter) (text : List Char) :
    (∃ ls rest, text = textOf ls rest ∧ CutFront convert none ls rest ∧ ls.length ≤ text.length ∧
      (tokenize convert text = .ok (tokensFrom 0 ls rest) ∨
        ∃ gap fault, Stuck convert (lastKind none ls) gap fault rest ∧
          tokenize convert text = .error ⟨fault, utf8Length (textOf ls []) + utf8Length gap⟩)) ∧
      ∀ tokens, tokenize convert text = .ok tokens → Tiles text tokens := by
  refine ⟨tokenize_stops convert text, fun tokens htokens => ?_⟩
  obtain ⟨ls, trail, rfl, hcut, rfl⟩ := tokenize_eq_ok_iff.1 htokens
  exact tiles_of_cut hcut

/-- The tokens of `- 6-1/2*Ä` tile it: the first one goes back from the fraction to the minus behind
the `6`, and the name has two bytes. -/
theorem tokenize_tiles_sum :
    Tiles "- 6-1/2*Ä".toList
      [⟨.number (-6), ⟨0, 3⟩⟩, ⟨.minus, ⟨3, 4⟩⟩, ⟨.number 1, ⟨4, 5⟩⟩, ⟨.slash, ⟨5, 6⟩⟩,
        ⟨.number 2, ⟨6, 7⟩⟩, ⟨.star, ⟨7, 8⟩⟩, ⟨.name "ä", ⟨8, 10⟩⟩, ⟨.finish, ⟨10, 10⟩⟩] :=
  (tokenize_tiles readLength? "- 6-1/2*Ä".toList).2 _ (eq_ok_of_toOption (by decide +kernel))

end LengthFormula
