import LengthFormula.Proofs.Length.LiteralText
import LengthFormula.Token.Lexer

/-!
# A text as a row of lexemes

A lexeme is a token together with the characters it takes and the white space in front of it.
`Cut` says that a row of lexemes is what a text is cut into, one lexeme at a time and each in sight
of the text behind it.  Tokenizing a text succeeds exactly when it can be cut, and its tokens are
those of the row (`tokenize_eq_ok_iff`).
-/

namespace LengthFormula

/-- A token with the characters it takes, of which there is at least one, and the white space in
front of it. -/
structure Lexeme where
  gap : List Char
  kind : TokenKind
  first : Char
  others : List Char
  deriving DecidableEq, Repr

/-- The characters of a lexeme. -/
def Lexeme.chars (l : Lexeme) : List Char := l.first :: l.others

/-- The text of a row of lexemes with the white space `trail` at its end. -/
def textOf : List Lexeme → List Char → List Char
  | [], trail => trail
  | l :: ls, trail => l.gap ++ l.first :: (l.others ++ textOf ls trail)

/-- Behind the token `previous`, the text of these lexemes is cut into just these lexemes. -/
def Cut (convert : Converter) : Option TokenKind → List Lexeme → List Char → Prop
  | _, [], trail => ∀ c ∈ trail, isBlank c = true
  | previous, l :: ls, trail =>
    (∀ c ∈ l.gap, isBlank c = true) ∧ isBlank l.first = false ∧
      scanToken convert previous l.first (l.others ++ textOf ls trail) = .ok (l.kind, l.chars) ∧
      Cut convert (some l.kind) ls trail

/-- The tokens of a row of lexemes whose text starts at the byte `position`. -/
def tokensFrom (position : Nat) : List Lexeme → List Char → List Token
  | [], trail => [⟨.finish, ⟨position + utf8Length trail, position + utf8Length trail⟩⟩]
  | l :: ls, trail =>
    let start := position + utf8Length l.gap
    let stop := start + utf8Length l.chars
    ⟨l.kind, ⟨start, stop⟩⟩ :: tokensFrom stop ls trail

/-- The kinds of tokens. -/
def kindsOf (tokens : List Token) : List TokenKind := tokens.map Token.kind

@[simp]
theorem kindsOf_nil : kindsOf [] = [] := rfl

@[simp]
theorem kindsOf_cons (token : Token) (tokens : List Token) :
    kindsOf (token :: tokens) = token.kind :: kindsOf tokens := rfl

@[simp]
theorem length_kindsOf (tokens : List Token) : (kindsOf tokens).length = tokens.length := by
  simp [kindsOf]

@[simp]
theorem kindsOf_tokensFrom (position : Nat) (ls : List Lexeme) (trail : List Char) :
    kindsOf (tokensFrom position ls trail) = ls.map Lexeme.kind ++ [.finish] := by
  induction ls generalizing position with
  | nil => rfl
  | cons l ls ih => simp [tokensFrom, ih]

/-! ## What one token takes -/

theorem signPart_of_isNumberLead {c : Char} {cs : List Char} (h : isNumberLead c = true) :
    signPart (c :: cs) = [] := by
  simp [signPart, isSign_of_isNumberLead h]

theorem signPart_of_isSign {c : Char} {cs : List Char} (h : isSign c = true) :
    signPart (c :: cs) = c :: cs.takeWhile isBlank := by
  simp [signPart, h]

theorem signPart_isPrefix (cs : List Char) : signPart cs <+: cs := by
  unfold signPart
  split
  · cases cs with
    | nil => exact List.nil_prefix
    | cons c cs => exact List.cons_prefix_cons.2 ⟨rfl, List.takeWhile_prefix _⟩
  · exact List.nil_prefix

/-- A sign does not see past a character that is no sign and no white space. -/
theorem signPart_append_stop {a x : List Char} {c : Char} (hsign : isSign c = false)
    (hblank : isBlank c = false) : signPart (a ++ c :: x) = signPart a := by
  cases a with
  | nil => simp [signPart, hsign]
  | cons b a => simp [signPart, takeWhile_append_stop hblank]

theorem drop_length_takeWhile (p : Char → Bool) (cs : List Char) :
    cs.drop (cs.takeWhile p).length = cs.dropWhile p := by
  induction cs with
  | nil => rfl
  | cons c cs ih =>
    rw [List.takeWhile_cons, List.dropWhile_cons]
    split
    · simpa using ih
    · rfl

/-- A number literal is its sign and the text that the scanned literal takes. -/
theorem scanNumber_eq_ok_iff {convert : Converter} {cs taken : List Char} {kind : TokenKind} :
    scanNumber convert cs = .ok (kind, taken) ↔ ∃ body x,
      (Literal.scan (cs.drop (signPart cs).length)).read convert = (body, some x) ∧
        taken = signPart cs ++ body ∧
        kind = .number (if startsWith isMinus (signPart cs) then -x else x) := by
  obtain ⟨⟨body, value⟩, hread⟩ :
      ∃ r, (Literal.scan (cs.drop (signPart cs).length)).read convert = r := ⟨_, rfl⟩
  unfold scanNumber
  simp only [hread]
  cases value with
  | none => simp only [reduceCtorEq, Prod.mk.injEq, and_false, false_and, exists_false]
  | some x =>
    simp only [Except.ok.injEq, Prod.mk.injEq, Option.some.injEq]
    constructor
    · rintro ⟨rfl, rfl⟩
      exact ⟨body, x, ⟨rfl, rfl⟩, rfl, rfl⟩
    · rintro ⟨_, _, ⟨rfl, rfl⟩, rfl, rfl⟩
      exact ⟨rfl, rfl⟩

/-- A number literal starts at the front of the text. -/
theorem cons_of_scanNumber {convert : Converter} {previous : Option TokenKind} {c : Char}
    {cs taken : List Char} {kind : TokenKind} (hat : atNumber previous (c :: cs) = true)
    (h : scanNumber convert (c :: cs) = .ok (kind, taken)) :
    ∃ others rest, taken = c :: others ∧ cs = others ++ rest := by
  obtain ⟨body, x, hread, rfl, -⟩ := scanNumber_eq_ok_iff.1 h
  by_cases hlead : isNumberLead c = true
  · -- without a sign the body holds the digit or point that is there
    rw [signPart_of_isNumberLead hlead] at hread ⊢
    rw [List.length_nil, List.drop_zero] at hread
    have hbody : body <+: c :: cs := by
      have := Literal.text_read_isPrefix convert (c :: cs)
      rwa [hread] at this
    have hstart : (Literal.scan (c :: cs)).lead <+: body := by
      have := Literal.lead_isPrefix_text_read convert (Literal.scan (c :: cs))
      rwa [hread] at this
    have hdecimal : (Literal.scan (c :: cs)).lead = c :: (cs.takeWhile isNumberLead
        ++ powerPart (cs.dropWhile isNumberLead)) := by
      simp [Literal.scan, decimalPart, hlead]
    rw [hdecimal] at hstart
    obtain ⟨more, rfl⟩ := hstart
    obtain ⟨rest, hrest⟩ := hbody
    exact ⟨_, rest, rfl, (List.cons.inj hrest).2.symm⟩
  · have hsign : isSign c = true := by
      simp only [atNumber, startsWith_cons, hlead, Bool.false_eq_true, if_false,
        Bool.and_eq_true] at hat
      exact hat.1.1
    rw [signPart_of_isSign hsign] at hread ⊢
    have hbody : body <+: cs.dropWhile isBlank := by
      have := Literal.text_read_isPrefix convert
        ((c :: cs).drop (c :: cs.takeWhile isBlank).length)
      rw [hread] at this
      rwa [List.length_cons, List.drop_succ_cons, drop_length_takeWhile] at this
    obtain ⟨rest, hrest⟩ := hbody
    refine ⟨cs.takeWhile isBlank ++ body, rest, rfl, ?_⟩
    rw [List.append_assoc, hrest, List.takeWhile_append_dropWhile]

/-- A token starts at the front of the text. -/
theorem cons_of_scanToken {convert : Converter} {previous : Option TokenKind} {c : Char}
    {cs taken : List Char} {kind : TokenKind}
    (h : scanToken convert previous c cs = .ok (kind, taken)) :
    ∃ others rest, taken = c :: others ∧ cs = others ++ rest := by
  unfold scanToken at h
  split at h
  · next hat => exact cons_of_scanNumber hat h
  · split at h
    · cases h
      exact ⟨cs.takeWhile isWord, cs.dropWhile isWord, rfl,
        List.takeWhile_append_dropWhile.symm⟩
    · split at h
      · cases h
        exact ⟨[], cs, rfl, rfl⟩
      · cases h

theorem punctuation?_ne_finish (previous : Option TokenKind) (c : Char) :
    punctuation? previous c ≠ some .finish := by
  unfold punctuation?
  split <;> try simp
  all_goals split <;> simp

theorem kind_ne_finish_of_scanToken {convert : Converter} {previous : Option TokenKind} {c : Char}
    {cs taken : List Char} {kind : TokenKind}
    (h : scanToken convert previous c cs = .ok (kind, taken)) : kind ≠ .finish := by
  unfold scanToken at h
  split at h
  · obtain ⟨body, x, -, -, rfl⟩ := scanNumber_eq_ok_iff.1 h
    simp
  · split at h
    · cases h
      simp
    · split at h
      · next hp =>
        cases h
        rintro rfl
        exact punctuation?_ne_finish previous c hp
      · cases h

/-! ## Tokenizing and cutting -/

section Tokenize

variable {convert : Converter} {previous : Option TokenKind} {position : Nat} {found : List Token}

/-- The characters that a token has taken are passed over. -/
theorem tokenizeFrom_append_skip (taken rest : List Char) :
    tokenizeFrom convert previous position taken.length found (taken ++ rest)
      = tokenizeFrom convert previous (position + utf8Length taken) 0 found rest := by
  induction taken generalizing position with
  | nil => simp
  | cons c taken ih =>
    rw [List.length_cons, List.cons_append, tokenizeFrom, ih, utf8Length_cons, Nat.add_assoc]

/-- White space is passed over. -/
theorem tokenizeFrom_append_gap {gap : List Char} (h : ∀ c ∈ gap, isBlank c = true)
    (rest : List Char) :
    tokenizeFrom convert previous position 0 found (gap ++ rest)
      = tokenizeFrom convert previous (position + utf8Length gap) 0 found rest := by
  induction gap generalizing position with
  | nil => simp
  | cons c gap ih =>
    rw [List.cons_append, tokenizeFrom, if_pos (h c List.mem_cons_self),
      ih fun d hd => h d (List.mem_cons_of_mem _ hd), utf8Length_cons, Nat.add_assoc]

/-- A token is put in front of the tokens found. -/
theorem tokenizeFrom_append_token {kind : TokenKind} {c : Char} {others rest : List Char}
    (hc : isBlank c = false)
    (h : scanToken convert previous c (others ++ rest) = .ok (kind, c :: others)) :
    tokenizeFrom convert previous position 0 found (c :: (others ++ rest))
      = tokenizeFrom convert (some kind) (position + utf8Length (c :: others)) 0
          (⟨kind, ⟨position, position + utf8Length (c :: others)⟩⟩ :: found) rest := by
  rw [tokenizeFrom]
  simp only [hc, Bool.false_eq_true, if_false, h, List.length_cons, Nat.add_sub_cancel]
  rw [tokenizeFrom_append_skip, utf8Length_cons, Nat.add_assoc]

/-- A text that is cut into lexemes has their tokens. -/
theorem tokenizeFrom_of_cut {ls : List Lexeme} {trail : List Char}
    (h : Cut convert previous ls trail) :
    tokenizeFrom convert previous position 0 found (textOf ls trail)
      = .ok (found.reverse ++ tokensFrom position ls trail) := by
  induction ls generalizing previous position found with
  | nil =>
    have hgap : tokenizeFrom convert previous position 0 found (trail ++ [])
        = tokenizeFrom convert previous (position + utf8Length trail) 0 found [] :=
      tokenizeFrom_append_gap h []
    rw [List.append_nil] at hgap
    rw [textOf, hgap, tokenizeFrom, tokensFrom]
  | cons l ls ih =>
    obtain ⟨hgap, hfirst, hscan, hrest⟩ := h
    rw [textOf, tokenizeFrom_append_gap hgap, tokenizeFrom_append_token hfirst hscan, ih hrest,
      tokensFrom]
    simp [Lexeme.chars]

/-- A text that has tokens is cut into lexemes. -/
theorem exists_cut_of_tokenizeFrom {text : List Char} {tokens : List Token}
    (h : tokenizeFrom convert previous position 0 found text = .ok tokens) :
    ∃ ls trail, textOf ls trail = text ∧ Cut convert previous ls trail := by
  -- a token takes several characters at once, so the induction is on the length of the text
  induction hn : text.length using Nat.strongRecOn
    generalizing text previous position found with
  | _ n ih =>
  cases text with
  | nil => exact ⟨[], [], rfl, by simp [Cut]⟩
  | cons c cs =>
    subst hn
    by_cases hc : isBlank c = true
    · rw [tokenizeFrom, if_pos hc] at h
      obtain ⟨ls, trail, rfl, hcut⟩ := ih cs.length (by simp) h rfl
      cases ls with
      | nil => exact ⟨[], c :: trail, rfl, List.forall_mem_cons.2 ⟨hc, hcut⟩⟩
      | cons l ls =>
        obtain ⟨hgap, hrest⟩ := hcut
        exact ⟨{ l with gap := c :: l.gap } :: ls, trail, rfl,
          List.forall_mem_cons.2 ⟨hc, hgap⟩, hrest⟩
    · rw [Bool.not_eq_true] at hc
      cases hscan : scanToken convert previous c cs with
      | error fault =>
        rw [tokenizeFrom] at h
        simp [hc, hscan] at h
      | ok r =>
        obtain ⟨kind, taken⟩ := r
        obtain ⟨others, rest, rfl, rfl⟩ := cons_of_scanToken hscan
        rw [tokenizeFrom_append_token hc hscan] at h
        have hshorter : rest.length < (c :: (others ++ rest)).length := by
          rw [List.length_cons, List.length_append]
          omega
        obtain ⟨ls, trail, rfl, hcut⟩ := ih rest.length hshorter h rfl
        exact ⟨⟨[], kind, c, others⟩ :: ls, trail, rfl, by simp, hc, hscan, hcut⟩

end Tokenize

/-- The tokens of a text that is cut into a row are those of the row. -/
theorem tokenize_of_cut {convert : Converter} {ls : List Lexeme} {trail : List Char}
    (h : Cut convert none ls trail) :
    tokenize convert (textOf ls trail) = .ok (tokensFrom 0 ls trail) := by
  rw [tokenize, tokenizeFrom_of_cut h]
  simp

/-- A text has tokens exactly when it can be cut into lexemes, and they are the tokens of these. -/
theorem tokenize_eq_ok_iff {convert : Converter} {text : List Char} {tokens : List Token} :
    tokenize convert text = .ok tokens ↔
      ∃ ls trail, text = textOf ls trail ∧ Cut convert none ls trail ∧
        tokens = tokensFrom 0 ls trail := by
  constructor
  · intro h
    obtain ⟨ls, trail, rfl, hcut⟩ := exists_cut_of_tokenizeFrom h
    refine ⟨ls, trail, rfl, hcut, ?_⟩
    exact Except.ok.inj (h.symm.trans (tokenize_of_cut hcut))
  · rintro ⟨ls, trail, rfl, hcut, rfl⟩
    exact tokenize_of_cut hcut

/-- A text is cut into one row of lexemes only. -/
theorem cut_unique {convert : Converter} {previous : Option TokenKind} {ls ls' : List Lexeme}
    {trail trail' : List Char} (h : Cut convert previous ls trail)
    (h' : Cut convert previous ls' trail') (htext : textOf ls trail = textOf ls' trail') :
    ls = ls' ∧ trail = trail' := by
  have blank : ∀ {l : Lexeme} {gap rest : List Char}, isBlank l.first = false →
      (∀ c ∈ gap, isBlank c = true) → (gap ++ l.first :: rest).takeWhile isBlank = gap := by
    intro l gap rest hfirst hgap
    rw [List.takeWhile_append_of_pos hgap, List.takeWhile_cons, hfirst]
    simp
  induction ls generalizing previous ls' with
  | nil =>
    cases ls' with
    | nil => exact ⟨rfl, htext⟩
    | cons l' ls' =>
      have hfirst := h l'.first (by
        have : l'.first ∈ textOf (l' :: ls') trail' := by simp [textOf]
        rwa [← htext] at this)
      rw [h'.2.1] at hfirst
      cases hfirst
  | cons l ls ih =>
    obtain ⟨hgap, hfirst, hscan, hrest⟩ := h
    cases ls' with
    | nil =>
      have hblank := h' l.first (by
        have : l.first ∈ textOf (l :: ls) trail := by simp [textOf]
        rwa [htext] at this)
      rw [hfirst] at hblank
      cases hblank
    | cons l' ls' =>
      obtain ⟨hgap', hfirst', hscan', hrest'⟩ := h'
      rw [textOf, textOf] at htext
      have hgaps : l.gap = l'.gap := by
        have := congrArg (List.takeWhile isBlank) htext
        rwa [blank hfirst hgap, blank hfirst' hgap'] at this
      rw [hgaps] at htext
      obtain ⟨hc, hbehind⟩ := List.cons.inj (List.append_cancel_left htext)
      rw [hc, hbehind, hscan'] at hscan
      obtain ⟨hkind, hchars⟩ := Prod.mk.inj (Except.ok.inj hscan)
      have hothers : l'.others = l.others := (List.cons.inj hchars).2
      rw [hothers] at hbehind
      rw [← hkind] at hrest
      obtain ⟨rfl, rfl⟩ := ih hrest hrest' (List.append_cancel_left hbehind)
      refine ⟨?_, rfl⟩
      obtain ⟨gap, kind, first, others⟩ := l
      obtain ⟨gap', kind', first', others'⟩ := l'
      simp only at hgaps hkind hc hothers
      rw [hgaps, hkind, hc, hothers]

/-- No lexeme of a text is the end of the text. -/
theorem kind_ne_finish_of_cut {convert : Converter} {previous : Option TokenKind}
    {ls : List Lexeme} {trail : List Char} (h : Cut convert previous ls trail) :
    TokenKind.finish ∉ ls.map Lexeme.kind := by
  induction ls generalizing previous with
  | nil => simp
  | cons l ls ih =>
    obtain ⟨-, -, hscan, hrest⟩ := h
    rw [List.map_cons, List.mem_cons, not_or]
    exact ⟨(kind_ne_finish_of_scanToken hscan).symm, ih hrest⟩

end LengthFormula
