import LengthFormula.Proofs.Formula.BareNames
import LengthFormula.Proofs.Formula.Translation
import LengthFormula.Proofs.Text.LowerCase
import LengthFormula.Proofs.Token.Standing

/-!
# Lexemes put in for names

`putIn` puts other lexemes in the places of the lexemes that the edits of a text replace.  With
lexemes of the replacing texts the row has the translated text (`textOf_putIn`).  A lexeme that
stays is seen from in front as it was.
-/

namespace LengthFormula

/-- The row with the lexemes `ρ l` in the place of each lexeme `l` that is replaced. -/
def putIn (scope : Scope) (ρ : Lexeme → List Lexeme) : List Lexeme → List Lexeme
  | [] => []
  | l :: ls =>
    (if (l.replacement? scope ls).isSome then ρ l else [l]) ++ putIn scope ρ ls

/-- The lexeme stands somewhere in the row and the text is put in for it. -/
def Replaces (scope : Scope) (ls : List Lexeme) (l : Lexeme) (text : String) : Prop :=
  ∃ others, l :: others <:+ ls ∧ l.replacement? scope others = some text

section PutIn

variable {scope : Scope} {ρ : Lexeme → List Lexeme} {l : Lexeme} {ls : List Lexeme}

theorem Replaces.head {text : String} (h : l.replacement? scope ls = some text) :
    Replaces scope (l :: ls) l text :=
  ⟨ls, List.suffix_rfl, h⟩

theorem Replaces.tail {l' : Lexeme} {text : String} (h : Replaces scope ls l' text) :
    Replaces scope (l :: ls) l' text := by
  obtain ⟨others, hsuffix, htext⟩ := h
  exact ⟨others, hsuffix.trans (List.suffix_cons l ls), htext⟩

/-- Only bare names are replaced. -/
theorem name_of_replacement? {text : String} (h : l.replacement? scope ls = some text) :
    ∃ name, l.kind = .name name ∧ (ls.map Lexeme.kind).head? ≠ some .leftParen ∧
      scope.replacement? name = some text := by
  unfold Lexeme.replacement? at h
  split at h
  · next name hname =>
    split at h
    · cases h
    · next hhead => exact ⟨name, hname, hhead, h⟩
  · cases h

theorem Replaces.exists_name {text : String} (h : Replaces scope ls l text) :
    ∃ name, l.kind = .name name ∧ name ∈ bareNames (ls.map Lexeme.kind) ∧
      scope.replacement? name = some text := by
  obtain ⟨others, hsuffix, htext⟩ := h
  obtain ⟨name, hname, hhead, hreplaced⟩ := name_of_replacement? htext
  refine ⟨name, hname, bareNames_subset_of_isSuffix (hsuffix.map Lexeme.kind) ?_, hreplaced⟩
  rw [List.map_cons, hname, bareNames_bare hhead]
  exact List.mem_cons_self

theorem putIn_cons_of_none (h : l.replacement? scope ls = none) :
    putIn scope ρ (l :: ls) = l :: putIn scope ρ ls := by
  rw [putIn, h]
  rfl

theorem putIn_cons_of_some {text : String} (h : l.replacement? scope ls = some text) :
    putIn scope ρ (l :: ls) = ρ l ++ putIn scope ρ ls := by
  rw [putIn, h]
  rfl

theorem textOf_append (a b : List Lexeme) (trail : List Char) :
    textOf (a ++ b) trail = textOf a (textOf b trail) := by
  induction a with
  | nil => rfl
  | cons l a ih => rw [List.cons_append, textOf, textOf, ih]

/-- With lexemes of the replacing texts the row has the translated text. -/
theorem textOf_putIn {trail : List Char}
    (h : ∀ l text, Replaces scope ls l text → ∀ rest,
      textOf (ρ l) rest = l.gap ++ (text.toList ++ rest)) :
    textOf (putIn scope ρ ls) trail = written scope ls trail := by
  induction ls with
  | nil => rfl
  | cons l ls ih =>
    have hrest := ih fun l' text hl' => h l' text hl'.tail
    rw [written]
    cases hl : l.replacement? scope ls with
    | none =>
      rw [putIn_cons_of_none hl, textOf, hrest]
      rfl
    | some text =>
      rw [putIn_cons_of_some hl, textOf_append, h l text (.head hl), hrest]
      rfl

/-- The kinds of the row are the kinds that are put in for bare names. -/
theorem map_kind_putIn {σ : String → List TokenKind}
    (hsome : ∀ l text name, Replaces scope ls l text → l.kind = .name name →
      (ρ l).map Lexeme.kind = σ name)
    (hnone : ∀ name ∈ bareNames (ls.map Lexeme.kind), scope.replacement? name = none →
      σ name = [.name name]) (ks : List TokenKind) (hks : ks.head? ≠ some .leftParen) :
    (putIn scope ρ ls).map Lexeme.kind ++ mapBare σ ks
      = mapBare σ (ls.map Lexeme.kind ++ ks) := by
  induction ls with
  | nil => rfl
  | cons l ls ih =>
    have hhead : (ls.map Lexeme.kind ++ ks).head? = some .leftParen ↔
        (ls.map Lexeme.kind).head? = some .leftParen := by
      cases ls with
      | nil => simpa using hks
      | cons l' ls => rfl
    have hrest := ih (fun l' text name hl' => hsome l' text name hl'.tail) fun name hname =>
      hnone name (bareNames_subset_of_isSuffix (List.suffix_cons l.kind _) hname)
    cases hl : l.replacement? scope ls with
    | some text =>
      obtain ⟨name, hname, hbare, -⟩ := name_of_replacement? hl
      have hbare' : (ls.map Lexeme.kind ++ ks).head? ≠ some .leftParen := fun h => hbare (hhead.1 h)
      rw [putIn_cons_of_some hl, List.map_append, hsome l text name (.head hl) hname,
        List.append_assoc, hrest, List.map_cons, List.cons_append, hname, mapBare_bare hbare']
    | none =>
      rw [putIn_cons_of_none hl, List.map_cons, List.cons_append, hrest, List.map_cons,
        List.cons_append]
      cases hkind : l.kind with
      | name name =>
        rw [mapBare]
        split
        · rfl
        · next hbare =>
          have hbare' : (ls.map Lexeme.kind).head? ≠ some .leftParen := fun h => hbare (hhead.2 h)
          rw [hnone name]
          · rfl
          · rw [List.map_cons, hkind, bareNames_bare hbare']
            exact List.mem_cons_self
          · rw [Lexeme.replacement?, hkind] at hl
            simpa only [if_neg hbare'] using hl
      | _ => rfl

theorem mem_of_mem_bareNames {name : String} {ks : List TokenKind} (h : name ∈ bareNames ks) :
    .name name ∈ ks := by
  induction ks with
  | nil => cases h
  | cons k ks ih =>
    cases k with
    | name other =>
      unfold bareNames at h
      split at h
      · exact List.mem_cons_of_mem _ (ih h)
      · rcases List.mem_cons.1 h with rfl | h
        · exact List.mem_cons_self
        · exact List.mem_cons_of_mem _ (ih h)
    | _ => exact List.mem_cons_of_mem _ (ih h)

/-- The names of a text are in lower case. -/
theorem lowerCase_of_cut {convert : Converter} {previous : Option TokenKind} {trail : List Char}
    {name : String} (h : Cut convert previous ls trail)
    (hname : .name name ∈ ls.map Lexeme.kind) : lowerCase name = name := by
  induction ls generalizing previous with
  | nil => cases hname
  | cons l ls ih =>
    obtain ⟨-, -, hstands, hrest⟩ := cut_cons_iff.1 h
    rcases List.mem_cons.1 hname with hkind | hname
    · rw [Lexeme.Stands] at hstands
      simp only [← hkind] at hstands
      rw [hstands.2.2.1, lowerCase_lowerCase]
    · exact ih hrest hname

/-! ## The text behind a lexeme -/

/-- Where no number and no name comes first, the first lexeme stays. -/
theorem replacement?_eq_none_of_startsLeaf (h : startsLeaf ((l :: ls).map Lexeme.kind) = false) :
    l.replacement? scope ls = none := by
  cases hl : l.replacement? scope ls with
  | none => rfl
  | some text =>
    obtain ⟨name, hname, -, -⟩ := name_of_replacement? hl
    rw [List.map_cons, startsLeaf_cons, hname] at h
    cases h

/-- There the text starts as it did. -/
theorem startsWith_textOf_putIn {p : Char → Bool} {trail : List Char}
    (h : startsLeaf (ls.map Lexeme.kind) = false) :
    startsWith p (textOf (putIn scope ρ ls) trail) = startsWith p (textOf ls trail) := by
  cases ls with
  | nil => rfl
  | cons l ls =>
    rw [putIn_cons_of_none (replacement?_eq_none_of_startsLeaf h), textOf, textOf]
    cases l.gap <;> rfl

theorem dropWhile_textOf_cons {trail : List Char} (hgap : ∀ c ∈ l.gap, isBlank c = true)
    (hfirst : isBlank l.first = false) :
    (textOf (l :: ls) trail).dropWhile isBlank = l.chars ++ textOf ls trail := by
  rw [textOf, List.dropWhile_append_of_pos hgap, List.dropWhile_cons, hfirst]
  rfl

end PutIn

/-! ## Tokens that act alike on the next one -/

/-- Behind the one token and the other, signs are read alike. -/
def SameSide (a b : Option TokenKind) : Prop :=
  admitsSign a = admitsSign b ∧ a.any TokenKind.isOperator = b.any TokenKind.isOperator

theorem SameSide.refl (a : Option TokenKind) : SameSide a a := ⟨rfl, rfl⟩

theorem SameSide.atNumber_eq {a b : Option TokenKind} (h : SameSide a b) (cs : List Char) :
    atNumber a cs = atNumber b cs := by
  rw [atNumber, atNumber, h.1]

theorem SameSide.punctuation?_eq {a b : Option TokenKind} (h : SameSide a b) (c : Char) :
    punctuation? a c = punctuation? b c := by
  unfold punctuation?
  rw [h.2]

section Stands

variable {convert : Converter} {previous previous' : Option TokenKind} {l : Lexeme}
  {behind behind' : List Char}

/-- A name stands where no word character follows it. -/
theorem Lexeme.Stands.of_name {name : String} (h : l.Stands convert previous behind)
    (hname : l.kind = .name name) (hbehind : startsWith isWord behind' = false) :
    l.Stands convert previous' behind' := by
  rw [Stands] at h ⊢
  simp only [hname] at h ⊢
  exact ⟨h.1, h.2.1, h.2.2.1, hbehind⟩

/-- What is no number and no name is a single mark, in front of no number that it belongs to. -/
theorem Lexeme.stands_iff_of_mark (hmark : l.kind.isLeaf = false) :
    l.Stands convert previous behind ↔
      l.others = [] ∧ punctuation? previous l.first = some l.kind ∧
        (isSign l.first = true → admitsSign previous = true →
          opensNumber (behind.dropWhile isBlank) = false) := by
  rw [Stands]
  cases hkind : l.kind with
  | number x =>
    rw [hkind] at hmark
    cases hmark
  | name name =>
    rw [hkind] at hmark
    cases hmark
  | _ => exact Iff.rfl

theorem Lexeme.Stands.punctuation?_eq (h : l.Stands convert previous behind)
    (hmark : l.kind.isLeaf = false) : punctuation? previous l.first = some l.kind :=
  ((stands_iff_of_mark hmark).1 h).2.1

/-- Punctuation stands where no number comes behind that it would belong to. -/
theorem Lexeme.Stands.of_mark (h : l.Stands convert previous behind) (hmark : l.kind.isLeaf = false)
    (hside : SameSide previous previous')
    (hbehind : isSign l.first = true → admitsSign previous = true →
      opensNumber (behind.dropWhile isBlank) = false →
      opensNumber (behind'.dropWhile isBlank) = false) :
    l.Stands convert previous' behind' := by
  obtain ⟨hothers, hp, hsign⟩ := (stands_iff_of_mark hmark).1 h
  refine (stands_iff_of_mark hmark).2 ⟨hothers, (hside.punctuation?_eq l.first) ▸ hp, ?_⟩
  intro hs ha
  rw [← hside.1] at ha
  exact hbehind hs ha (hsign hs ha)

/-- Behind a sign that belongs to no number there is no other one that could. -/
theorem admitsSign_of_punctuation? {c : Char} {kind : TokenKind}
    (h : punctuation? previous c = some kind) (hsign : isSign c = true) :
    admitsSign (some kind) = false := by
  rw [isSign, Bool.or_eq_true, beq_iff_eq, beq_iff_eq] at hsign
  rcases hsign with rfl | rfl
  · cases h
    cases previous.any TokenKind.isOperator <;> rfl
  · cases h
    cases previous.any TokenKind.isOperator <;> rfl

/-- Behind a token that admits no sign only numbers open numbers. -/
theorem Lexeme.Stands.opensNumber_eq (h : l.Stands convert previous behind)
    (hprevious : admitsSign previous = false) (hnumber : opensNumber (l.chars ++ behind) = false) :
    opensNumber (l.chars ++ behind') = false := by
  have hlead : isNumberLead l.first = false := by
    rw [Stands] at h
    cases hkind : l.kind with
    | number x =>
      simp only [hkind] at h
      rw [atNumber, hprevious, hnumber] at h
      split at h <;> simp at h
    | name name =>
      simp only [hkind] at h
      exact isNumberLead_of_opensWord h.1
    | _ =>
      simp only [hkind] at h
      exact isNumberLead_of_punctuation? h.2.1
  rw [isNumberLead, Bool.or_eq_false_iff] at hlead
  simp [opensNumber, digitAfter, Lexeme.chars, hlead.1, hlead.2]

end Stands

/-! ## Numbers in front of another text -/

/-- A number opens with a digit or a point. -/
theorem isNumberLead_of_opensNumber {c : Char} {cs : List Char}
    (h : opensNumber (c :: cs) = true) : isNumberLead c = true := by
  simp only [opensNumber, digitAfter, startsWith_cons, Bool.or_eq_true, Bool.and_eq_true] at h
  rw [isNumberLead, Bool.or_eq_true]
  exact h.imp_right And.left

theorem dropWhile_isBlank_of_opensNumber {cs : List Char} (h : opensNumber cs = true) :
    cs.dropWhile isBlank = cs := by
  cases cs with
  | nil => rfl
  | cons c cs =>
    have hblank := isBlank_of_isNumberLead (isNumberLead_of_opensNumber h)
    rw [List.dropWhile_cons, if_neg (Bool.eq_false_iff.1 hblank)]

/-- What opens a number opens one in front of any text, if it holds all digits and points. -/
theorem opensNumber_append {body behind : List Char} (behind' : List Char)
    (h : opensNumber (body ++ behind) = true)
    (hlead : (body ++ behind).takeWhile isNumberLead <+: body) :
    opensNumber (body ++ behind') = true := by
  cases body with
  | nil =>
    cases behind with
    | nil => cases h
    | cons c behind =>
      rw [List.nil_append, List.takeWhile_cons, if_pos (isNumberLead_of_opensNumber h)] at hlead
      cases List.prefix_nil.1 hlead
  | cons c body =>
    cases body with
    | cons d body => simpa [opensNumber, digitAfter] using h
    | nil =>
      simp only [opensNumber, digitAfter, List.cons_append, List.nil_append, startsWith_cons,
        List.tail_cons, Bool.or_eq_true, Bool.and_eq_true] at h
      rcases h with hdigit | ⟨hdot, hdigit⟩
      · simp [opensNumber, hdigit]
      · cases behind with
        | nil => cases hdigit
        | cons d behind =>
          rw [startsWith_cons] at hdigit
          have hd : isNumberLead d = true := by rw [isNumberLead, hdigit, Bool.true_or]
          have hc : isNumberLead c = true := by rw [isNumberLead, hdot, Bool.or_true]
          rw [List.cons_append, List.nil_append, List.takeWhile_cons, if_pos hc,
            List.takeWhile_cons, if_pos hd] at hlead
          cases List.prefix_nil.1 (List.cons_prefix_cons.1 hlead).2

/-- A number stands where it is read in the same way. -/
theorem Lexeme.Stands.of_number {convert : Converter} {previous previous' : Option TokenKind}
    {l : Lexeme} {behind behind' : List Char} {x : Float} (h : l.Stands convert previous behind)
    (hnumber : l.kind = .number x) (hside : SameSide previous previous')
    (hscan : scanNumber convert (l.chars ++ behind') = .ok (l.kind, l.chars)) :
    l.Stands convert previous' behind' := by
  rw [Stands] at h ⊢
  simp only [hnumber] at h hscan ⊢
  obtain ⟨hat, hscanned⟩ := h
  refine ⟨?_, hscan⟩
  rw [← hside.atNumber_eq]
  obtain ⟨body, y, hread, hchars, -⟩ := scanNumber_eq_ok_iff.1 hscanned
  have hlead : ((l.chars ++ behind).drop (signPart (l.chars ++ behind)).length).takeWhile
      isNumberLead <+: body := by
    have := Literal.lead_isPrefix_text_read convert
      (Literal.scan ((l.chars ++ behind).drop (signPart (l.chars ++ behind)).length))
    rw [hread] at this
    exact (List.prefix_append _ _).trans this
  by_cases hfirst : isNumberLead l.first = true
  · -- without a sign the number is all of the lexeme
    have hsign : signPart (l.chars ++ behind) = [] := signPart_of_isNumberLead hfirst
    rw [hsign, List.nil_append] at hchars
    rw [hsign, List.length_nil, List.drop_zero, ← hchars] at hlead
    simp only [atNumber, Lexeme.chars, List.cons_append, startsWith_cons, hfirst, if_true] at hat ⊢
    exact opensNumber_append behind' hat hlead
  · simp only [atNumber, Lexeme.chars, List.cons_append, startsWith_cons, hfirst,
      Bool.false_eq_true, if_false, Bool.and_eq_true, List.tail_cons] at hat ⊢
    obtain ⟨⟨hsign, hadmits⟩, hopens⟩ := hat
    refine ⟨⟨hsign, hadmits⟩, ?_⟩
    have hpart : signPart (l.chars ++ behind)
        = l.first :: (l.others ++ behind).takeWhile isBlank := signPart_of_isSign hsign
    rw [hpart] at hchars hlead
    have hothers : l.others = (l.others ++ behind).takeWhile isBlank ++ body :=
      (List.cons.inj hchars).2
    rw [List.length_cons, Lexeme.chars, List.cons_append, List.drop_succ_cons,
      drop_length_takeWhile] at hlead
    have hdrop : (l.others ++ behind).dropWhile isBlank = body ++ behind := by
      have := List.takeWhile_append_dropWhile (p := isBlank) (l := l.others ++ behind)
      conv at this => rhs; rw [hothers]
      rw [List.append_assoc] at this
      exact List.append_cancel_left this
    rw [hdrop] at hopens hlead
    have hblanks : ∀ c ∈ (l.others ++ behind).takeWhile isBlank, isBlank c = true :=
      fun c hc => List.all_eq_true.1 List.all_takeWhile c hc
    have hopens' := opensNumber_append behind' hopens hlead
    have hdrop' : (l.others ++ behind').dropWhile isBlank = body ++ behind' := by
      conv => lhs; rw [hothers]
      rw [List.append_assoc, List.dropWhile_append_of_pos hblanks,
        dropWhile_isBlank_of_opensNumber hopens']
    rw [hdrop']
    exact hopens'

end LengthFormula
