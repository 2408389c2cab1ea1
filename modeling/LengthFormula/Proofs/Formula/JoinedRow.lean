import LengthFormula.Proofs.Formula.PutIn
import LengthFormula.Proofs.Formula.SignJoining

/-!
# Rows with signs joined to numbers

A row in which some signs stand in front of numbers that they belong to is cut off its text when
these signs are joined to their numbers (`LooseCut.cut_joinRow`).  The text stays, and the kinds are
joined as the tokens are.
-/

namespace LengthFormula

/-- The row with signs joined to numbers; `admits` says whether a sign in front may be. -/
def joinRow : (admits : Bool) → List Lexeme → List Lexeme
  | _, [] => []
  | _, [l] => [l]
  | admits, l :: l' :: ls =>
    match if admits then signedValue? l.kind l'.kind else none with
    | some x => ⟨l.gap, .number x, l.first, l'.gap ++ l'.chars⟩ :: joinRow false ls
    | none => l :: joinRow (admitsSign (some l.kind)) (l' :: ls)

/-- A sign in front of a number that it belongs to; the number of a minus leads a product. -/
structure Lexeme.LeadsNumber (previous : Option TokenKind) (l : Lexeme) (ls : List Lexeme) :
    Prop where
  admits : admitsSign previous = true
  others : l.others = []
  mark : punctuation? previous l.first = some l.kind
  sign : l.kind = .plus ∨ l.kind = .minus
  number : ∃ l' ls' x, ls = l' :: ls' ∧ l'.kind = .number x ∧
    (l.kind = .minus → LeadsFactors (ls'.map Lexeme.kind))

/-- A row of lexemes that stand in their places, but for signs in front of numbers. -/
def LooseCut (convert : Converter) : Option TokenKind → List Lexeme → List Char → Prop
  | _, [], trail => ∀ c ∈ trail, isBlank c = true
  | previous, l :: ls, trail =>
    (∀ c ∈ l.gap, isBlank c = true) ∧ isBlank l.first = false ∧
      (l.Stands convert previous (textOf ls trail) ∨ l.LeadsNumber previous ls) ∧
        LooseCut convert (some l.kind) ls trail

theorem map_kind_joinRow (admits : Bool) (ls : List Lexeme) :
    (joinRow admits ls).map Lexeme.kind = joinSigns admits (ls.map Lexeme.kind) := by
  induction admits, ls using joinRow.induct with
  | case1 => rfl
  | case2 => rfl
  | case3 admits l l' ls x hx ih =>
    simp only [joinRow, hx, List.map_cons, joinSigns, ih]
  | case4 admits l l' ls hx ih =>
    simp only [joinRow, hx, List.map_cons, joinSigns, ih]

/-- The end of the text is joined to nothing. -/
theorem joinSigns_append_finish (admits : Bool) (ks : List TokenKind) :
    joinSigns admits (ks ++ [.finish]) = joinSigns admits ks ++ [.finish] := by
  induction admits, ks using joinSigns.induct with
  | case1 => rfl
  | case2 admits k => cases admits <;> cases k <;> rfl
  | case3 admits k l ks x hx ih =>
    simp only [List.cons_append, joinSigns, hx, ih]
  | case4 admits k l ks hx ih =>
    simp only [List.cons_append, joinSigns, hx] at ih ⊢
    rw [ih]

/-! ## Signs -/

section Signs

variable {convert : Converter} {previous previous' : Option TokenKind} {c : Char} {cs : List Char}

/-- The sign tokens are made by the sign characters. -/
theorem sign_of_punctuation? {k : TokenKind} (h : punctuation? previous c = some k)
    (hk : k = .plus ∨ k = .minus) : isSign c = true ∧ isMinus c = decide (k = .minus) := by
  unfold punctuation? at h
  rcases hk with rfl | rfl
  · split at h <;> first | exact ⟨rfl, rfl⟩ | cases h | (split at h <;> cases h)
  · split at h <;> first | exact ⟨rfl, rfl⟩ | cases h | (split at h <;> cases h)

/-- A sign that may belong to a number is no doubled sign. -/
theorem sign_of_admitsSign {k : TokenKind} (h : punctuation? previous c = some k)
    (hsign : isSign c = true) (hadmits : admitsSign previous = true) : k = .plus ∨ k = .minus := by
  have hoperator : previous.any TokenKind.isOperator = false := by
    rcases previous with _ | k
    · rfl
    · cases k <;> first | rfl | cases hadmits
  rw [isSign, Bool.or_eq_true, beq_iff_eq, beq_iff_eq] at hsign
  rcases hsign with rfl | rfl
  · rw [punctuation?, hoperator] at h
    cases h
    exact .inl rfl
  · rw [punctuation?, hoperator] at h
    cases h
    exact .inr rfl

/-- A sign in front of a number belongs to it. -/
theorem atNumber_sign {gap : List Char} (hsign : isSign c = true)
    (hadmits : admitsSign previous = true) (hgap : ∀ d ∈ gap, isBlank d = true)
    (hopens : opensNumber cs = true) : atNumber previous (c :: (gap ++ cs)) = true := by
  have hlead : isNumberLead c = false := by
    rw [Bool.eq_false_iff]
    intro h
    rw [isSign_of_isNumberLead h] at hsign
    cases hsign
  rw [atNumber, startsWith_cons, hlead, if_neg Bool.false_ne_true, startsWith_cons, hsign, hadmits,
    List.tail_cons, List.dropWhile_append_of_pos hgap, dropWhile_isBlank_of_opensNumber hopens,
    hopens]
  rfl

/-- A number with a sign in front is the number under the sign. -/
theorem scanNumber_sign {gap taken : List Char} {x : Float} (hsign : isSign c = true)
    (hgap : ∀ d ∈ gap, isBlank d = true) (hopens : opensNumber cs = true)
    (hscan : scanNumber convert cs = .ok (.number x, taken)) :
    scanNumber convert (c :: (gap ++ cs))
      = .ok (.number (if isMinus c then -x else x), c :: (gap ++ taken)) := by
  obtain ⟨body, y, hread, htaken, hkind⟩ := scanNumber_eq_ok_iff.1 hscan
  cases cs with
  | nil => cases hopens
  | cons d cs =>
    have hlead := isNumberLead_of_opensNumber hopens
    have hblank := isBlank_of_isNumberLead hlead
    have hpart : signPart (c :: (gap ++ d :: cs)) = c :: gap := by
      rw [signPart_of_isSign hsign, List.takeWhile_append_of_pos hgap, List.takeWhile_cons, hblank]
      simp
    rw [signPart_of_isNumberLead hlead] at hread htaken hkind
    rw [startsWith_nil, if_neg Bool.false_ne_true] at hkind
    cases hkind
    subst htaken
    refine scanNumber_eq_ok_iff.2 ⟨taken, x, ?_, ?_, ?_⟩
    · rw [hpart, List.length_cons, List.drop_succ_cons, List.drop_left]
      exact hread
    · rw [hpart]
      rfl
    · rw [hpart, startsWith_cons]

/-- A lexeme stands behind a token that acts alike on it. -/
theorem Lexeme.Stands.of_side {l : Lexeme} {behind : List Char}
    (h : l.Stands convert previous behind) (hside : SameSide previous previous') :
    l.Stands convert previous' behind := by
  cases hkind : l.kind with
  | number x =>
    refine h.of_number hkind hside ?_
    rw [Stands] at h
    simp only [hkind] at h ⊢
    exact h.2
  | name name =>
    refine h.of_name hkind ?_
    rw [Stands] at h
    simp only [hkind] at h
    exact h.2.2.2
  | _ => exact h.of_mark (by rw [hkind]; rfl) hside fun _ _ hopens => hopens

/-- A number behind a token that admits no sign opens with its digits. -/
theorem Lexeme.Stands.opensNumber {l : Lexeme} {behind : List Char} {x : Float}
    (h : l.Stands convert previous behind) (hkind : l.kind = .number x)
    (hprevious : admitsSign previous = false) :
    opensNumber (l.chars ++ behind) = true ∧
      scanNumber convert (l.chars ++ behind) = .ok (.number x, l.chars) := by
  rw [Stands] at h
  simp only [hkind] at h
  refine ⟨?_, h.2⟩
  have hat := h.1
  rw [atNumber, hprevious, Bool.and_false, Bool.false_and] at hat
  split at hat
  · exact hat
  · cases hat

end Signs

/-! ## Joining in a row -/

section LooseCut

variable {convert : Converter} {previous previous' : Option TokenKind} {ls : List Lexeme}
  {trail : List Char}

theorem signedValue?_eq_some {k l : TokenKind} {x : Float} (h : signedValue? k l = some x) :
    (k = .plus ∨ k = .minus) ∧ ∃ y, l = .number y ∧ x = if k = .minus then -y else y := by
  cases k <;> cases l <;> cases h
  · exact ⟨.inl rfl, _, rfl, rfl⟩
  · exact ⟨.inr rfl, _, rfl, rfl⟩

theorem admitsSign_of_sign {k : TokenKind} (h : k = .plus ∨ k = .minus) :
    admitsSign (some k) = false := by
  rcases h with rfl | rfl <;> rfl

/-- A sign is a single character, whether it is joined or not. -/
theorem mark_of_loose {l : Lexeme} {behind : List Char} (hsign : l.kind = .plus ∨ l.kind = .minus)
    (h : l.Stands convert previous behind ∨ l.LeadsNumber previous ls) :
    l.others = [] ∧ punctuation? previous l.first = some l.kind := by
  have hmark : l.kind.isLeaf = false := by rcases hsign with hkind | hkind <;> rw [hkind] <;> rfl
  rcases h with h | h
  · obtain ⟨hothers, hp, -⟩ := (Lexeme.stands_iff_of_mark hmark).1 h
    exact ⟨hothers, hp⟩
  · exact ⟨h.others, h.mark⟩

/-- A number behind a sign opens with its digits. -/
theorem opensNumber_of_loose {l l' : Lexeme} {x : Float} {behind : List Char}
    (hsign : l.kind = .plus ∨ l.kind = .minus) (hkind : l'.kind = .number x)
    (h : l'.Stands convert (some l.kind) behind ∨ l'.LeadsNumber (some l.kind) ls) :
    opensNumber (l'.chars ++ behind) = true ∧
      scanNumber convert (l'.chars ++ behind) = .ok (.number x, l'.chars) := by
  rcases h with h | h
  · exact h.opensNumber hkind (admitsSign_of_sign hsign)
  · have := h.admits
    rw [admitsSign_of_sign hsign] at this
    cases this

/-- The row with its signs joined is cut off the same text. -/
theorem LooseCut.cut_joinRow {admits : Bool} (h : LooseCut convert previous ls trail)
    (hadmits : admitsSign previous = admits) (hside : SameSide previous previous') :
    textOf (joinRow admits ls) trail = textOf ls trail ∧
      Cut convert previous' (joinRow admits ls) trail := by
  induction admits, ls using joinRow.induct generalizing previous previous' with
  | case1 => exact ⟨rfl, h⟩
  | case2 admits l =>
    obtain ⟨hgap, hfirst, hstands, hrest⟩ := h
    refine ⟨rfl, cut_cons_iff.2 ⟨hgap, hfirst, ?_, hrest⟩⟩
    rcases hstands with hstands | hleads
    · exact hstands.of_side hside
    · obtain ⟨l', ls', x, hnil, -⟩ := hleads.number
      cases hnil
  | case3 admits l l' ls x hx ih =>
    obtain ⟨hgap, hfirst, hloose, hgap', hfirst', hloose', hrest⟩ := h
    cases admits with
    | false => cases hx
    | true =>
      rw [if_pos rfl] at hx
      obtain ⟨hsign, y, hy, rfl⟩ := signedValue?_eq_some hx
      obtain ⟨hothers, hmark⟩ := mark_of_loose hsign hloose
      obtain ⟨hopens, hscan⟩ := opensNumber_of_loose hsign hy hloose'
      have hfalse : admitsSign (some l'.kind) = false := by
        rw [hy]
        rfl
      have hnumber : SameSide (some l'.kind)
          (some (.number (if l.kind = .minus then -y else y))) := by
        rw [hy]
        exact ⟨rfl, rfl⟩
      obtain ⟨htext, hcut⟩ := ih hrest hfalse hnumber
      obtain ⟨hsignChar, hminus⟩ := sign_of_punctuation? hmark hsign
      have hvalue : (if isMinus l.first = true then -y else y)
          = if l.kind = .minus then -y else y := by
        simp only [hminus, decide_eq_true_eq]
      have hchars : ∀ behind, (l.first :: (l'.gap ++ l'.chars)) ++ behind
          = l.first :: (l'.gap ++ (l'.chars ++ behind)) := by
        intro behind
        simp
      simp only [joinRow, if_true, hx]
      refine ⟨?_, cut_cons_iff.2 ⟨hgap, hfirst, ?_, hcut⟩⟩
      · rw [textOf, htext, textOf, textOf, hothers]
        simp [Lexeme.chars]
      · rw [htext]
        refine ⟨?_, ?_⟩
        · rw [Lexeme.chars, hchars]
          exact atNumber_sign hsignChar (hside.1 ▸ hadmits) hgap' hopens
        · rw [Lexeme.chars, hchars, scanNumber_sign hsignChar hgap' hopens hscan, hvalue]
  | case4 admits l l' ls hx ih =>
    obtain ⟨hgap, hfirst, hloose, hrest⟩ := h
    obtain ⟨htext, hcut⟩ := ih hrest rfl (.refl _)
    simp only [joinRow, hx]
    refine ⟨by rw [textOf, htext, ← textOf], cut_cons_iff.2 ⟨hgap, hfirst, ?_, hcut⟩⟩
    rw [htext]
    rcases hloose with hstands | hleads
    · exact hstands.of_side hside
    · -- a sign in front of its number would have been joined
      obtain ⟨l'', ls'', x, heq, hnumber, -⟩ := hleads.number
      cases heq
      rw [← hadmits, hleads.admits, if_pos rfl, hnumber] at hx
      rcases hleads.sign with hkind | hkind
      · rw [hkind] at hx
        cases hx
      · rw [hkind] at hx
        cases hx

/-- The end of the text ends a phrase. -/
theorem onlyFactors_append_finish (depth : Nat) (ks : List TokenKind) :
    onlyFactors depth (ks ++ [.finish]) = onlyFactors depth ks := by
  induction ks generalizing depth with
  | nil => cases depth <;> rfl
  | cons k ks ih => exact onlyFactors_congr ih

theorem LeadsFactors.append_finish {ks : List TokenKind} (h : LeadsFactors ks) :
    LeadsFactors (ks ++ [.finish]) := by
  refine ⟨?_, (onlyFactors_append_finish 0 ks).trans h.2⟩
  cases ks with
  | nil => decide
  | cons k ks => exact h.1

/-- Where the row is cut so, the number of each minus that is joined leads a product. -/
theorem LooseCut.signsBound (h : LooseCut convert previous ls trail) :
    SignsBound (admitsSign previous) (ls.map Lexeme.kind ++ [.finish]) := by
  induction ls generalizing previous with
  | nil => exact ⟨fun _ hfinish => (nomatch hfinish), trivial⟩
  | cons l ls ih =>
    obtain ⟨hgap, hfirst, hloose, hrest⟩ := h
    refine ⟨?_, ih hrest⟩
    intro hadmits hminus x behind hbehind
    cases ls with
    | nil => cases hbehind
    | cons l' ls =>
      obtain ⟨hnumber, hbehind⟩ := List.cons.inj hbehind
      rw [← hbehind]
      refine LeadsFactors.append_finish ?_
      obtain ⟨hgap', hfirst', hloose', -⟩ := hrest
      rcases hloose with hstands | hleads
      · -- in front of a number the minus would not stand alone
        obtain ⟨hopens, -⟩ := opensNumber_of_loose (.inr hminus) hnumber hloose'
        have hmark : l.kind.isLeaf = false := by
          rw [hminus]
          rfl
        obtain ⟨-, hp, hclosed⟩ := (Lexeme.stands_iff_of_mark hmark).1 hstands
        have hclosed := hclosed (sign_of_punctuation? hp (.inr hminus)).1 hadmits
        rw [dropWhile_textOf_cons hgap' hfirst', hopens] at hclosed
        cases hclosed
      · obtain ⟨l'', ls'', y, heq, -, hlead⟩ := hleads.number
        cases heq
        exact hlead hminus

end LooseCut

end LengthFormula
