import LengthFormula.Proofs.Length.Parts

/-!
# How far a text is tokenized

`CutFront` says that a row of lexemes is cut off the front of a text, whatever becomes of the rest.
Every text has such a row behind which there is nothing left to cut off: only white space, or a
character at which no token can be read (`exists_cutFront`).  The tokens of the row are those found
when tokenizing ends there (`tokenize_stops`).
-/

namespace LengthFormula

/-- Behind the token `previous`, these lexemes are cut off the front of their text, in sight of the
text `rest` behind them. -/
def CutFront (convert : Converter) : Option TokenKind → List Lexeme → List Char → Prop
  | _, [], _ => True
  | previous, l :: ls, rest =>
    (∀ c ∈ l.gap, isBlank c = true) ∧ isBlank l.first = false ∧
      scanToken convert previous l.first (l.others ++ textOf ls rest) = .ok (l.kind, l.chars) ∧
      CutFront convert (some l.kind) ls rest

/-- The kind of the last lexeme of a row, or what stands in front of an empty one. -/
def lastKind (previous : Option TokenKind) : List Lexeme → Option TokenKind
  | [] => previous
  | l :: ls => lastKind (some l.kind) ls

/-- The tokens of a row of lexemes whose text starts at the byte `position`. -/
def placed (position : Nat) : List Lexeme → List Token
  | [] => []
  | l :: ls =>
    let start := position + utf8Length l.gap
    let stop := start + utf8Length l.chars
    ⟨l.kind, ⟨start, stop⟩⟩ :: placed stop ls

/-- No token can be read behind the white space `gap` of this text. -/
def Stuck (convert : Converter) (previous : Option TokenKind) (gap : List Char) (fault : ParseFault)
    (rest : List Char) : Prop :=
  ∃ c cs, rest = gap ++ c :: cs ∧ (∀ d ∈ gap, isBlank d = true) ∧ isBlank c = false ∧
    scanToken convert previous c cs = .error fault

section Rows

variable {convert : Converter} {previous : Option TokenKind} {as bs ls : List Lexeme}
  {rest trail : List Char}

/-- A row of lexemes is what a text is cut into if white space is left behind it. -/
theorem cut_iff_cutFront : Cut convert previous ls trail ↔
    CutFront convert previous ls trail ∧ ∀ c ∈ trail, isBlank c = true := by
  induction ls generalizing previous with
  | nil => simp [Cut, CutFront]
  | cons l ls ih =>
    rw [Cut, CutFront, ih]
    constructor
    · rintro ⟨hgap, hfirst, hscan, hfront, htrail⟩
      exact ⟨⟨hgap, hfirst, hscan, hfront⟩, htrail⟩
    · rintro ⟨⟨hgap, hfirst, hscan, hfront⟩, htrail⟩
      exact ⟨hgap, hfirst, hscan, hfront, htrail⟩

theorem tokensFrom_eq_placed (position : Nat) (ls : List Lexeme) (trail : List Char) :
    tokensFrom position ls trail
      = placed position ls ++ [⟨.finish, ⟨position + utf8Length (textOf ls trail),
          position + utf8Length (textOf ls trail)⟩⟩] := by
  induction ls generalizing position with
  | nil => rfl
  | cons l ls ih =>
    have hstop : position + utf8Length l.gap + utf8Length l.chars + utf8Length (textOf ls trail)
        = position + utf8Length (textOf (l :: ls) trail) := by
      simp only [textOf, Lexeme.chars, utf8Length_append, utf8Length_cons]
      omega
    rw [tokensFrom, ih, hstop, placed, List.cons_append]

/-- Every lexeme of a row takes a character of its text. -/
theorem length_le_length_textOf (ls : List Lexeme) (rest : List Char) :
    ls.length ≤ (textOf ls rest).length := by
  induction ls with
  | nil => exact Nat.zero_le _
  | cons l ls ih =>
    simp only [textOf, List.length_append, List.length_cons]
    omega

/-! ## Tokenizing a row -/

variable {position : Nat} {found : List Token}

/-- The lexemes of a row are found one after the other. -/
theorem tokenizeFrom_of_cutFront (h : CutFront convert previous ls rest) :
    tokenizeFrom convert previous position 0 found (textOf ls rest)
      = tokenizeFrom convert (lastKind previous ls) (position + utf8Length (textOf ls [])) 0
          ((placed position ls).reverse ++ found) rest := by
  induction ls generalizing previous position found with
  | nil => simp [textOf, lastKind, placed]
  | cons l ls ih =>
    obtain ⟨hgap, hfirst, hscan, hfront⟩ := h
    have hbytes : position + utf8Length l.gap + utf8Length l.chars + utf8Length (textOf ls [])
        = position + utf8Length (textOf (l :: ls) []) := by
      simp only [textOf, Lexeme.chars, utf8Length_append, utf8Length_cons]
      omega
    have hfound : (placed position (l :: ls)).reverse ++ found
        = (placed (position + utf8Length l.gap + utf8Length l.chars) ls).reverse
          ++ ⟨l.kind, ⟨position + utf8Length l.gap,
              position + utf8Length l.gap + utf8Length l.chars⟩⟩ :: found := by
      simp [placed]
    rw [textOf, tokenizeFrom_append_gap hgap, tokenizeFrom_append_token hfirst hscan]
    show tokenizeFrom convert (some l.kind) (position + utf8Length l.gap + utf8Length l.chars) 0
      (⟨l.kind, ⟨position + utf8Length l.gap, position + utf8Length l.gap + utf8Length l.chars⟩⟩
        :: found) (textOf ls rest) = _
    rw [ih hfront, hbytes, hfound, lastKind]

/-- Where no token can be read, tokenizing ends with the fault. -/
theorem tokenizeFrom_of_stuck {gap : List Char} {fault : ParseFault}
    (h : Stuck convert previous gap fault rest) :
    tokenizeFrom convert previous position 0 found rest
      = .error ⟨fault, position + utf8Length gap⟩ := by
  obtain ⟨c, cs, rfl, hgap, hc, hscan⟩ := h
  rw [tokenizeFrom_append_gap hgap, tokenizeFrom]
  simp only [hc, Bool.false_eq_true, if_false, hscan]

/-- Every text has a row of lexemes at its front behind which none is left. -/
theorem exists_cutFront (convert : Converter) (previous : Option TokenKind) (text : List Char) :
    ∃ ls rest, text = textOf ls rest ∧ CutFront convert previous ls rest ∧
      ((∀ c ∈ rest, isBlank c = true) ∨
        ∃ gap fault, Stuck convert (lastKind previous ls) gap fault rest) := by
  -- a token takes several characters at once, so the induction is on the length of the text
  induction hn : text.length using Nat.strongRecOn generalizing text previous with
  | _ n ih =>
  by_cases hblank : ∀ c ∈ text, isBlank c = true
  · exact ⟨[], text, rfl, trivial, .inl hblank⟩
  · obtain ⟨gap, rest, rfl, hgap, hstop, -⟩ := exists_takeWhile isBlank text
    cases rest with
    | nil => exact absurd (by simpa using hgap) hblank
    | cons c cs =>
      have hc : isBlank c = false := hstop
      cases hscan : scanToken convert previous c cs with
      | error fault =>
        exact ⟨[], gap ++ c :: cs, rfl, trivial, .inr ⟨gap, fault, c, cs, rfl, hgap, hc, hscan⟩⟩
      | ok r =>
        obtain ⟨kind, taken⟩ := r
        obtain ⟨others, rest, rfl, rfl⟩ := cons_of_scanToken hscan
        have hshorter : rest.length < n := by
          rw [← hn]
          simp only [List.length_append, List.length_cons]
          omega
        obtain ⟨ls, rest, rfl, hfront, hend⟩ := ih _ hshorter (some kind) rest rfl
        exact ⟨⟨gap, kind, c, others⟩ :: ls, rest, rfl, ⟨hgap, hc, hscan, hfront⟩, hend⟩

end Rows

/-- Tokenizing any text ends: it cuts off lexemes, at most one for each character, until white space
is left, or until no token can be read.  The error is placed where that is. -/
theorem tokenize_stops (convert : Converter) (text : List Char) :
    ∃ ls rest, text = textOf ls rest ∧ CutFront convert none ls rest ∧ ls.length ≤ text.length ∧
      (tokenize convert text = .ok (tokensFrom 0 ls rest) ∨
        ∃ gap fault, Stuck convert (lastKind none ls) gap fault rest ∧
          tokenize convert text = .error ⟨fault, utf8Length (textOf ls []) + utf8Length gap⟩) := by
  obtain ⟨ls, rest, rfl, hfront, hend⟩ := exists_cutFront convert none text
  refine ⟨ls, rest, rfl, hfront, length_le_length_textOf ls rest, ?_⟩
  rcases hend with hblank | ⟨gap, fault, hstuck⟩
  · exact .inl (tokenize_of_cut (cut_iff_cutFront.2 ⟨hfront, hblank⟩))
  · refine .inr ⟨gap, fault, hstuck, ?_⟩
    rw [tokenize, tokenizeFrom_of_cutFront hfront, tokenizeFrom_of_stuck hstuck, Nat.zero_add]

end LengthFormula
