import LengthFormula.Proofs.Decimal.Parts
import LengthFormula.Proofs.Text.CharClass
import LengthFormula.Proofs.Token.Lexeme

/-!
# Lexemes in their place

`Lexeme.Stands` says for each kind of lexeme what the text around it must be like for the lexeme to
be cut off there.  A text is cut into a row of lexemes when each of them stands in its place
(`cut_cons_iff`), so a row can be changed lexeme by lexeme.
-/

namespace LengthFormula

/-- Between the token `previous` and the text `behind` the lexeme is cut off as it is. -/
def Lexeme.Stands (convert : Converter) (previous : Option TokenKind) (l : Lexeme)
    (behind : List Char) : Prop :=
  match l.kind with
  | .number _ =>
    atNumber previous (l.chars ++ behind) = true ∧
      scanNumber convert (l.chars ++ behind) = .ok (l.kind, l.chars)
  | .name name =>
    opensWord l.first = true ∧ (∀ c ∈ l.others, isWord c = true) ∧
      name = lowerCase (String.ofList l.chars) ∧ startsWith isWord behind = false
  | kind =>
    l.others = [] ∧ punctuation? previous l.first = some kind ∧
      (isSign l.first = true → admitsSign previous = true →
        opensNumber (behind.dropWhile isBlank) = false)

/-! ## Tokens by their first character -/

theorem opensNumber_of_isDigit {c : Char} {cs : List Char} (h : isDigit c = true) :
    opensNumber (c :: cs) = true := by
  simp [opensNumber, h]

theorem atNumber_of_isDigit {previous : Option TokenKind} {c : Char} {cs : List Char}
    (h : isDigit c = true) : atNumber previous (c :: cs) = true := by
  rw [atNumber, startsWith_cons, isNumberLead, h, Bool.true_or, if_pos rfl]
  exact opensNumber_of_isDigit h

/-- A name is no number. -/
theorem atNumber_of_opensWord {previous : Option TokenKind} {c : Char} {cs : List Char}
    (h : opensWord c = true) : atNumber previous (c :: cs) = false := by
  rw [atNumber, startsWith_cons, startsWith_cons, isNumberLead_of_opensWord h,
    isSign_of_isWord (opensWord_iff.1 h).1]
  rfl

/-- A word character that opens no number opens a name. -/
theorem opensWord_of_atNumber {previous : Option TokenKind} {c : Char} {cs : List Char}
    (hword : isWord c = true) (h : atNumber previous (c :: cs) = false) : opensWord c = true := by
  refine opensWord_iff.2 ⟨hword, ?_⟩
  rw [Bool.eq_false_iff]
  intro hdigit
  rw [atNumber_of_isDigit hdigit] at h
  cases h

/-- Punctuation is none of the characters of a name. -/
theorem isWord_of_punctuation? {previous : Option TokenKind} {c : Char} {kind : TokenKind}
    (h : punctuation? previous c = some kind) : isWord c = false := by
  unfold punctuation? at h
  split at h <;> first | decide | cases h

theorem isNumberLead_of_punctuation? {previous : Option TokenKind} {c : Char} {kind : TokenKind}
    (h : punctuation? previous c = some kind) : isNumberLead c = false := by
  unfold punctuation? at h
  split at h <;> first | decide | cases h

/-- Punctuation is no number unless it is a sign that belongs to one. -/
theorem atNumber_of_punctuation? {previous : Option TokenKind} {c : Char} {cs : List Char}
    {kind : TokenKind} (h : punctuation? previous c = some kind) :
    atNumber previous (c :: cs) = false ↔ (isSign c = true → admitsSign previous = true →
      opensNumber (cs.dropWhile isBlank) = false) := by
  rw [atNumber, startsWith_cons, startsWith_cons, isNumberLead_of_punctuation? h]
  simp only [Bool.false_eq_true, if_false, List.tail_cons]
  cases isSign c <;> cases admitsSign previous <;> simp

/-! ## Standing and cutting -/

/-- What is taken as long as a class lasts is all in the class, and the text behind is not. -/
theorem of_takeWhile_append_eq {p : Char → Bool} {a b : List Char}
    (h : (a ++ b).takeWhile p = a) : (∀ c ∈ a, p c = true) ∧ startsWith p b = false := by
  have hall : ∀ c ∈ a, p c = true := by
    intro c hc
    rw [← h] at hc
    exact List.all_eq_true.1 List.all_takeWhile c hc
  refine ⟨hall, ?_⟩
  rw [List.takeWhile_append_of_pos hall] at h
  have hnil : b.takeWhile p = [] := by simpa using h
  cases b with
  | nil => rfl
  | cons c b =>
    rw [List.takeWhile_cons] at hnil
    split at hnil
    · cases hnil
    · next hc => simpa using hc

section Stands

variable {convert : Converter} {previous : Option TokenKind} {l : Lexeme} {behind : List Char}

theorem stands_of_scanToken
    (h : scanToken convert previous l.first (l.others ++ behind) = .ok (l.kind, l.chars)) :
    l.Stands convert previous behind := by
  have htext : l.first :: (l.others ++ behind) = l.chars ++ behind := rfl
  rw [scanToken, htext] at h
  split at h
  · next hat =>
    obtain ⟨body, x, -, -, hkind⟩ := scanNumber_eq_ok_iff.1 h
    rw [Lexeme.Stands]
    simp only [hkind] at h ⊢
    exact ⟨hat, h⟩
  · next hat =>
    rw [Bool.not_eq_true] at hat
    split at h
    · next hword =>
      obtain ⟨hkind, hchars⟩ := Prod.mk.inj (Except.ok.inj h)
      obtain ⟨hothers, hbehind⟩ := of_takeWhile_append_eq (List.cons.inj hchars).2
      rw [hchars] at hkind
      rw [Lexeme.Stands]
      simp only [← hkind]
      exact ⟨opensWord_of_atNumber hword hat, hothers, trivial, hbehind⟩
    · split at h
      · next kind hkind =>
        obtain ⟨rfl, hchars⟩ := Prod.mk.inj (Except.ok.inj h)
        have hothers : l.others = [] := (List.cons.inj hchars).2.symm
        have hsign := (atNumber_of_punctuation? hkind).1 hat
        rw [hothers] at hsign
        rw [Lexeme.Stands]
        cases hl : l.kind with
        | number x =>
          rw [hl] at hkind
          unfold punctuation? at hkind
          split at hkind <;> first | cases hkind | (split at hkind <;> cases hkind)
        | name name =>
          rw [hl] at hkind
          unfold punctuation? at hkind
          split at hkind <;> first | cases hkind | (split at hkind <;> cases hkind)
        | _ =>
          rw [hl] at hkind
          exact ⟨hothers, hkind, hsign⟩
      · cases h

theorem scanToken_of_stands (h : l.Stands convert previous behind) :
    scanToken convert previous l.first (l.others ++ behind) = .ok (l.kind, l.chars) := by
  have htext : l.first :: (l.others ++ behind) = l.chars ++ behind := rfl
  have hmark : ∀ kind, l.kind = kind → l.others = [] → punctuation? previous l.first = some kind →
      (isSign l.first = true → admitsSign previous = true →
        opensNumber (behind.dropWhile isBlank) = false) →
      scanToken convert previous l.first (l.others ++ behind) = .ok (l.kind, l.chars) := by
    rintro kind rfl hothers hkind hsign
    have hat := (atNumber_of_punctuation? hkind).2 hsign
    rw [scanToken, hothers, List.nil_append, hat, isWord_of_punctuation? hkind, Lexeme.chars,
      hothers]
    simp only [Bool.false_eq_true, if_false, hkind]
  rw [Lexeme.Stands] at h
  cases hl : l.kind with
  | number x =>
    simp only [hl] at h
    rw [scanToken, htext, if_pos h.1, h.2]
  | name name =>
    simp only [hl] at h
    obtain ⟨hfirst, hothers, rfl, hbehind⟩ := h
    have hword : (l.others ++ behind).takeWhile isWord = l.others := by
      rw [List.takeWhile_append_of_pos hothers, takeWhile_eq_nil_of_startsWith hbehind,
        List.append_nil]
    rw [scanToken, atNumber_of_opensWord hfirst, if_neg Bool.false_ne_true,
      if_pos (opensWord_iff.1 hfirst).1, hword]
    rfl
  | _ =>
    simp only [hl] at h
    exact hl ▸ hmark _ hl h.1 h.2.1 h.2.2

/-- A row of lexemes is cut off a text when its first lexeme stands in front of the others. -/
theorem cut_cons_iff {ls : List Lexeme} {trail : List Char} :
    Cut convert previous (l :: ls) trail ↔
      (∀ c ∈ l.gap, isBlank c = true) ∧ isBlank l.first = false ∧
        l.Stands convert previous (textOf ls trail) ∧ Cut convert (some l.kind) ls trail := by
  constructor
  · rintro ⟨hgap, hfirst, hscan, hrest⟩
    exact ⟨hgap, hfirst, stands_of_scanToken hscan, hrest⟩
  · rintro ⟨hgap, hfirst, hstands, hrest⟩
    exact ⟨hgap, hfirst, scanToken_of_stands hstands, hrest⟩

end Stands

end LengthFormula
