import LengthFormula.Proofs.Formula.Acceptance
import LengthFormula.Proofs.Formula.PutIn
import LengthFormula.Session

/-!
# Renaming variables in the text

Display names that are identifiers can be put in for variables: the translated text is cut where the
text was (`cut_putIn_words`), and parsing it gives the term with the variables renamed
(`Formula.parse_translated_of_identifiers`).
-/

namespace LengthFormula

/-! ## Words -/

/-- The text is one name. -/
def IsWordText (text : String) : Prop :=
  ∃ c cs, text.toList = c :: cs ∧ opensWord c = true ∧ ∀ d ∈ cs, isWord d = true

/-- An identifier is one name, and it does not denote a random draw. -/
theorem isWordText_of_checkIdentifier {text : String} (h : checkIdentifier text = .ok ()) :
    IsWordText text ∧ lowerCase text ≠ Builtin.randomName := by
  unfold checkIdentifier at h
  split at h
  · cases h
  · next hidentifier =>
    split at h
    · cases h
    · next hrandom =>
      refine ⟨?_, hrandom⟩
      rw [Bool.not_eq_true', Bool.not_eq_false, isIdentifier] at hidentifier
      cases htext : text.toList with
      | nil =>
        rw [htext] at hidentifier
        cases hidentifier
      | cons c cs =>
        simp only [htext, Bool.and_eq_true, Bool.not_eq_true', List.all_cons,
          List.all_eq_true] at hidentifier
        obtain ⟨hdigit, hfirst, hothers⟩ := hidentifier
        exact ⟨c, cs, htext, opensWord_iff.2 ⟨hfirst, hdigit⟩, hothers⟩

/-- A name as a lexeme. -/
def Lexeme.ofWord (gap : List Char) (text : String) : Lexeme :=
  ⟨gap, .name (lowerCase text), text.toList.headD '_', text.toList.tail⟩

section Word

variable {text : String} (gap : List Char)

theorem Lexeme.chars_ofWord (h : IsWordText text) : (ofWord gap text).chars = text.toList := by
  obtain ⟨c, cs, htext, -, -⟩ := h
  rw [chars, ofWord, htext]
  rfl

theorem Lexeme.opensWord_first_ofWord (h : IsWordText text) :
    opensWord (ofWord gap text).first = true := by
  obtain ⟨c, cs, htext, hc, -⟩ := h
  rw [ofWord, htext]
  exact hc

/-- A name stands wherever no word character follows. -/
theorem Lexeme.stands_ofWord {convert : Converter} {previous : Option TokenKind}
    {behind : List Char} (h : IsWordText text) (hbehind : startsWith isWord behind = false) :
    (ofWord gap text).Stands convert previous behind := by
  have hothers : ∀ d ∈ (ofWord gap text).others, isWord d = true := by
    obtain ⟨c, cs, htext, -, hcs⟩ := h
    rw [ofWord, htext]
    exact hcs
  have hname : lowerCase text = lowerCase (String.ofList (ofWord gap text).chars) := by
    rw [chars_ofWord gap h, String.ofList_toList]
  exact ⟨opensWord_first_ofWord gap h, hothers, hname, hbehind⟩

end Word

/-! ## A number in front of a word -/

theorem endsLiteral_of_opensWord {c : Char} (h : opensWord c = true) : endsLiteral c = true := by
  have hword := (opensWord_iff.1 h).1
  refine endsLiteral_iff.2 ⟨isNumberLead_of_opensWord h, isSign_of_isWord hword, ?_, ?_, ?_, ?_⟩
  · rw [isSpacer, Bool.or_eq_false_iff, beq_eq_false_iff_ne, beq_eq_false_iff_ne]
    exact ⟨ne_of_isWord hword (by decide), ne_of_isWord hword (by decide)⟩
  · rw [isFractionBar, beq_eq_false_iff_ne]
    exact ne_of_isWord hword (by decide)
  · rw [isFootMark, beq_eq_false_iff_ne]
    exact ne_of_isWord hword (by decide)
  · rw [isInchMark, beq_eq_false_iff_ne]
    exact ne_of_isWord hword (by decide)

theorem signPart_append_word {a x : List Char} {c : Char} (h : opensWord c = true) :
    signPart (a ++ c :: x) = signPart a := by
  have hword := (opensWord_iff.1 h).1
  exact signPart_append_stop (isSign_of_isWord hword) (isBlank_of_isWord hword)

/-- A number with a character behind it that no number holds is not seen past a word. -/
theorem scanNumber_append_word {convert : Converter} {a b x : List Char} {c : Char}
    (hsign : (signPart (a ++ b)).length ≤ a.length) (hb : ∃ w ∈ b, isNumberLead w = false)
    (h : opensWord c = true) :
    scanNumber convert (a ++ b ++ c :: x) = scanNumber convert (a ++ b) := by
  have hdrop : (a ++ b ++ c :: x).drop (signPart (a ++ b)).length
      = (a ++ b).drop (signPart (a ++ b)).length ++ c :: x :=
    List.drop_append_of_le_length (signPart_isPrefix _).length_le
  have hlead : ((a ++ b).drop (signPart (a ++ b)).length).dropWhile isNumberLead ≠ [] := by
    intro hnil
    obtain ⟨w, hw, hwlead⟩ := hb
    rw [List.drop_append_of_le_length hsign] at hnil
    have htake := List.takeWhile_append_dropWhile (p := isNumberLead)
      (l := a.drop (signPart (a ++ b)).length ++ b)
    rw [hnil, List.append_nil] at htake
    have hall := List.all_eq_true.1 List.all_takeWhile w (htake ▸ List.mem_append_right _ hw)
    rw [hwlead] at hall
    cases hall
  unfold scanNumber
  simp only [signPart_append_word h, hdrop,
    Literal.scan_append_stop (endsLiteral_of_opensWord h) (.inl hlead)]

/-! ## Words put in for names -/

section Words

variable {convert : Converter} {scope : Scope} {ls : List Lexeme} {trail : List Char}

/-- What is put in for a name: the name that replaces it. -/
def Lexeme.words (scope : Scope) (l : Lexeme) : List Lexeme :=
  match l.kind with
  | .name name => [ofWord l.gap ((scope.replacement? name).getD name)]
  | _ => [l]

theorem Lexeme.words_eq {l : Lexeme} {text : String} (h : Replaces scope ls l text) :
    l.words scope = [ofWord l.gap text] := by
  obtain ⟨name, hname, -, htext⟩ := h.exists_name
  rw [words, hname]
  simp only [htext, Option.getD_some]

/-- Up to the first word that is put in the text stays. -/
theorem textOf_putIn_words {previous : Option TokenKind} (h : Cut convert previous ls trail)
    (hwords : ∀ l text, Replaces scope ls l text → IsWordText text) :
    textOf (putIn scope (Lexeme.words scope) ls) trail = textOf ls trail ∨
      ∃ u c x d y, textOf ls trail = u ++ c :: x ∧
        textOf (putIn scope (Lexeme.words scope) ls) trail = u ++ d :: y ∧
        opensWord c = true ∧ opensWord d = true := by
  induction ls generalizing previous with
  | nil => exact .inl rfl
  | cons l ls ih =>
    obtain ⟨hgap, hfirst, hstands, hrest⟩ := cut_cons_iff.1 h
    cases hl : l.replacement? scope ls with
    | none =>
      rw [putIn_cons_of_none hl, textOf, textOf]
      rcases ih hrest fun l' text hl' => hwords l' text hl'.tail with
        hsame | ⟨u, c, x, d, y, hold, hnew, hc, hd⟩
      · exact .inl (by rw [hsame])
      · refine .inr ⟨l.gap ++ l.first :: (l.others ++ u), c, x, d, y, ?_, ?_, hc, hd⟩
        · rw [hold]
          simp
        · rw [hnew]
          simp
    | some text =>
      obtain ⟨name, hname, -, -⟩ := name_of_replacement? hl
      have hword := hwords l text (.head hl)
      rw [putIn_cons_of_some hl, l.words_eq (.head hl), textOf, List.singleton_append, textOf]
      rw [Lexeme.Stands] at hstands
      simp only [hname] at hstands
      exact .inr ⟨l.gap, l.first, _, _, _, rfl, rfl, hstands.1,
        Lexeme.opensWord_first_ofWord l.gap hword⟩

/-- A number is read as it was in front of words put in for names. -/
theorem scanNumber_putIn_words {l : Lexeme} {previous : Option TokenKind}
    (h : Cut convert previous ls trail)
    (hwords : ∀ l text, Replaces scope ls l text → IsWordText text)
    (hleaf : startsLeaf (ls.map Lexeme.kind) = false)
    (hscan : scanNumber convert (l.chars ++ textOf ls trail) = .ok (l.kind, l.chars)) :
    scanNumber convert (l.chars ++ textOf (putIn scope (Lexeme.words scope) ls) trail)
      = .ok (l.kind, l.chars) := by
  cases ls with
  | nil => exact hscan
  | cons l' ls =>
    obtain ⟨-, -, hstands, hrest⟩ := cut_cons_iff.1 h
    rw [putIn_cons_of_none (replacement?_eq_none_of_startsLeaf hleaf)]
    have hfirst : isNumberLead l'.first = false := by
      rw [List.map_cons, startsLeaf_cons] at hleaf
      exact isNumberLead_of_punctuation? (hstands.punctuation?_eq hleaf)
    rcases textOf_putIn_words hrest fun l' text hl' => hwords l' text hl'.tail with
      hsame | ⟨u, c, x, d, y, hold, hnew, hc, hd⟩
    · rw [textOf, hsame]
      exact hscan
    · have hfront : ∀ v, l.chars ++ (l'.gap ++ l'.first :: (l'.others ++ (u ++ v)))
          = l.chars ++ (l'.gap ++ l'.first :: (l'.others ++ u)) ++ v := by
        intro v
        simp
      rw [textOf, hold, hfront] at hscan
      rw [textOf, hnew, hfront]
      obtain ⟨body, x', -, hchars, -⟩ := scanNumber_eq_ok_iff.1 hscan
      rw [signPart_append_word hc] at hchars
      have hsign : (signPart (l.chars ++ (l'.gap ++ l'.first :: (l'.others ++ u)))).length
          ≤ l.chars.length := by
        have := congrArg List.length hchars
        rw [List.length_append] at this
        omega
      have hmark : ∃ w ∈ l'.gap ++ l'.first :: (l'.others ++ u), isNumberLead w = false :=
        ⟨l'.first, List.mem_append_right _ List.mem_cons_self, hfirst⟩
      rw [scanNumber_append_word hsign hmark hd, ← scanNumber_append_word hsign hmark hc]
      exact hscan

/-- In front of words put in for names, a sign is read as it was. -/
theorem opensNumber_putIn_words {previous : Option TokenKind} (h : Cut convert previous ls trail)
    (hwords : ∀ l text, Replaces scope ls l text → IsWordText text)
    (hprevious : admitsSign previous = false)
    (hopens : opensNumber ((textOf ls trail).dropWhile isBlank) = false) :
    opensNumber ((textOf (putIn scope (Lexeme.words scope) ls) trail).dropWhile isBlank)
      = false := by
  cases ls with
  | nil => exact hopens
  | cons l ls =>
    obtain ⟨hgap, hfirst, hstands, -⟩ := cut_cons_iff.1 h
    cases hl : l.replacement? scope ls with
    | none =>
      rw [dropWhile_textOf_cons hgap hfirst] at hopens
      rw [putIn_cons_of_none hl, dropWhile_textOf_cons hgap hfirst]
      exact hstands.opensNumber_eq hprevious hopens
    | some text =>
      have hword := hwords l text (.head hl)
      have hopensWord := Lexeme.opensWord_first_ofWord l.gap hword
      have hlead := isNumberLead_of_opensWord hopensWord
      have hblank := isBlank_of_isWord (opensWord_iff.1 hopensWord).1
      have hdrop : (textOf (Lexeme.ofWord l.gap text :: putIn scope (Lexeme.words scope) ls)
            trail).dropWhile isBlank
          = (Lexeme.ofWord l.gap text).chars
            ++ textOf (putIn scope (Lexeme.words scope) ls) trail :=
        dropWhile_textOf_cons hgap hblank
      rw [putIn_cons_of_some hl, l.words_eq (.head hl), List.singleton_append, hdrop,
        Bool.eq_false_iff]
      intro hnumber
      rw [isNumberLead_of_opensNumber hnumber] at hlead
      cases hlead

/-- The row with words put in for names is cut off its text. -/
theorem cut_putIn_words {previous previous' : Option TokenKind} (h : Cut convert previous ls trail)
    (hside : SameSide previous previous') (hspread : Spread (ls.map Lexeme.kind))
    (hwords : ∀ l text, Replaces scope ls l text → IsWordText text) :
    Cut convert previous' (putIn scope (Lexeme.words scope) ls) trail := by
  induction ls generalizing previous previous' with
  | nil => exact h
  | cons l ls ih =>
    obtain ⟨hgap, hfirst, hstands, hrest⟩ := cut_cons_iff.1 h
    obtain ⟨hnext, hspread⟩ := hspread
    have hwords' : ∀ l text, Replaces scope ls l text → IsWordText text :=
      fun l' text hl' => hwords l' text hl'.tail
    cases hl : l.replacement? scope ls with
    | some text =>
      obtain ⟨name, hname, -, -⟩ := name_of_replacement? hl
      have hword := hwords l text (.head hl)
      rw [putIn_cons_of_some hl, l.words_eq (.head hl), List.singleton_append]
      refine cut_cons_iff.2 ⟨hgap, ?_, ?_, ih hrest ?_ hspread hwords'⟩
      · exact isBlank_of_isWord (opensWord_iff.1 (Lexeme.opensWord_first_ofWord l.gap hword)).1
      · refine Lexeme.stands_ofWord l.gap hword ?_
        rw [startsWith_textOf_putIn (hnext (by rw [hname]; rfl))]
        rw [Lexeme.Stands] at hstands
        simp only [hname] at hstands
        exact hstands.2.2.2
      · rw [hname]
        exact ⟨rfl, rfl⟩
    | none =>
      rw [putIn_cons_of_none hl]
      refine cut_cons_iff.2 ⟨hgap, hfirst, ?_, ih hrest (.refl _) hspread hwords'⟩
      cases hkind : l.kind with
      | number x =>
        refine hstands.of_number hkind hside (scanNumber_putIn_words hrest hwords' ?_ ?_)
        · exact hnext (by rw [hkind]; rfl)
        · rw [Lexeme.Stands] at hstands
          simp only [hkind] at hstands ⊢
          exact hstands.2
      | name name =>
        refine hstands.of_name hkind ?_
        rw [startsWith_textOf_putIn (hnext (by rw [hkind]; rfl))]
        rw [Lexeme.Stands] at hstands
        simp only [hkind] at hstands
        exact hstands.2.2.2
      | _ =>
        have hmark : l.kind.isLeaf = false := by
          rw [hkind]
          rfl
        refine hstands.of_mark hmark hside ?_
        intro hsign _
        refine opensNumber_putIn_words hrest hwords' ?_
        exact admitsSign_of_punctuation? (hstands.punctuation?_eq hmark) hsign

end Words

/-! ## The renamed term -/

/-- The name that is read where a variable is shown. -/
def Scope.shownAs (scope : Scope) (name : String) : String :=
  match scope.displayName? name with
  | some display => lowerCase display
  | none => name

/-- A name that is not fixed is replaced by its display name. -/
theorem Scope.of_replacement? {scope : Scope} {name text : String}
    (hfixed : scope.isFixed name = false) (h : scope.replacement? name = some text) :
    name ≠ Builtin.randomName ∧ scope.displayName? name = some text := by
  rw [replacement?, hfixed] at h
  split at h
  · cases h
  · next hrandom =>
    rw [if_neg Bool.false_ne_true, Option.filter_eq_some_iff] at h
    exact ⟨hrandom, h.1⟩

/-- The name that stands in the translated text for a bare name. -/
def Scope.wordFor (scope : Scope) (name : String) : String :=
  ((scope.replacement? name).map lowerCase).getD name

theorem Scope.wordFor_randomName (scope : Scope) :
    scope.wordFor Builtin.randomName = Builtin.randomName := by
  rw [wordFor, replacement?, if_pos rfl]
  rfl

/-- For a variable that is not fixed the name that is read stands in the text. -/
theorem Scope.wordFor_eq {scope : Scope} {name : String} (hrandom : name ≠ Builtin.randomName)
    (hfixed : scope.isFixed name = false) (hlower : lowerCase name = name) :
    scope.wordFor name = scope.shownAs name := by
  rw [wordFor, replacement?, if_neg hrandom, hfixed, if_neg Bool.false_ne_true, shownAs]
  cases scope.displayName? name with
  | none => rfl
  | some display =>
    by_cases hsame : display = name
    · simp [Option.filter, hsame, hlower]
    · simp [Option.filter, hsame]

/-- What is read for a name in the translated text is the renaming of what was read in the text. -/
theorem Scope.nameTerm_wordFor {scope scope' : Scope} {name : String}
    (hlower : lowerCase name = name) (hfixed : scope.isFixed name = false)
    (hdisplay : name ≠ Builtin.randomName → ∀ display, scope.displayName? name = some display →
      checkIdentifier display = .ok ())
    (hunfixed : ∀ name, scope'.isFixed name = false) :
    scope'.nameTerm (scope.wordFor name)
      = (scope.nameTerm name).subst fun name => .var (scope.shownAs name) := by
  by_cases hrandom : name = Builtin.randomName
  · rw [hrandom, wordFor_randomName]
    rfl
  · have hshown : scope.shownAs name ≠ Builtin.randomName := by
      unfold shownAs
      split
      · next display hdisplay' =>
        exact (isWordText_of_checkIdentifier (hdisplay hrandom display hdisplay')).2
      · exact hrandom
    rw [wordFor_eq hrandom hfixed hlower, nameTerm, nameTerm, if_neg hshown, if_neg hrandom, hfixed,
      hunfixed]
    rfl

namespace Formula

/-- Where no variable is fixed and the display names of the variables are identifiers, the
translated text is a formula wherever no name is fixed, and its term is the term of the text with
the variables renamed. -/
theorem parse_translated_of_identifiers {scope scope' : Scope} {text : String} {f : Formula}
    {tokens : List Token} (h : parse scope readLength? text = .ok f)
    (htokens : tokenize readLength? text.toList = .ok tokens)
    (hfixed : ∀ name ∈ bareNames (kindsOf tokens), scope.isFixed name = false)
    (hdisplay : ∀ name ∈ bareNames (kindsOf tokens), name ≠ Builtin.randomName →
      ∀ display, scope.displayName? name = some display → checkIdentifier display = .ok ())
    (hunfixed : ∀ name, scope'.isFixed name = false) :
    ∃ g, parse scope' readLength? f.translated = .ok g ∧
      g.term = f.term.subst fun name => .var (scope.shownAs name) := by
  obtain ⟨ls, trail, htext, hcut, hderives, hheight, htranslated⟩ := exists_of_parse h
  have hbare : bareNames (kindsOf tokens) = bareNames (ls.map Lexeme.kind) := by
    rw [htext, tokenize_of_cut hcut] at htokens
    rw [← Except.ok.inj htokens, kindsOf_tokensFrom, bareNames_append_finish]
  rw [hbare] at hfixed hdisplay
  have hwords : ∀ l display, Replaces scope ls l display → IsWordText display := by
    intro l display hl
    obtain ⟨name, -, hname, hreplaced⟩ := hl.exists_name
    obtain ⟨hrandom, hshown⟩ := Scope.of_replacement? (hfixed name hname) hreplaced
    exact (isWordText_of_checkIdentifier (hdisplay name hname hrandom display hshown)).1
  have htext' : f.translated.toList
      = textOf (putIn scope (Lexeme.words scope) ls) trail := by
    rw [htranslated, String.toList_ofList, textOf_putIn]
    intro l display hl rest
    rw [l.words_eq hl]
    have := Lexeme.chars_ofWord l.gap (hwords l display hl)
    rw [← this]
    rfl
  have hspread : Spread (ls.map Lexeme.kind ++ [.finish]) :=
    hderives.isSpread (.cons rfl trivial) rfl
  have hcut' := cut_putIn_words hcut (.refl none) hspread.of_append hwords
  have hkinds : (putIn scope (Lexeme.words scope) ls).map Lexeme.kind ++ [.finish]
      = mapBare (fun name => [.name (scope.wordFor name)]) (ls.map Lexeme.kind ++ [.finish]) := by
    refine map_kind_putIn ?_ ?_ [.finish] (by simp)
    · intro l display name hl hname
      obtain ⟨name', hname', -, hreplaced⟩ := hl.exists_name
      cases hname.symm.trans hname'
      rw [l.words_eq hl, Scope.wordFor, hreplaced]
      rfl
    · intro name _ hreplaced
      rw [Scope.wordFor, hreplaced]
      rfl
  have hderives' : Derives scope' (maxDepth + 0) (.chain .sum)
      (mapBare (fun name => [.name (scope.wordFor name)]) (ls.map Lexeme.kind ++ [.finish]))
      (f.term.subst fun name => .var (scope.shownAs name)) [.finish] := by
    refine hderives.mapBare rfl ?_
    intro name hname rest hrest
    rw [bareNames_append_finish] at hname
    have hlower := lowerCase_of_cut hcut (mem_of_mem_bareNames hname)
    rw [← Scope.nameTerm_wordFor hlower (hfixed name hname) (hdisplay name hname) hunfixed]
    exact .name hrest
  have hheight' : (f.term.subst fun name => .var (scope.shownAs name)).height ≤ maxDepth := by
    rw [Term.height_subst fun _ => rfl]
    exact hheight
  rw [← hkinds] at hderives'
  rcases parse_of_derives htext' hcut' hderives' with hok | ⟨hdeep, -⟩
  · exact hok
  · exact absurd ⟨Nat.le_refl _, hheight'⟩ hdeep

/-- The text `8'-width` is shown as `8'-W_2` and read as a difference again. -/
theorem parse_translated_of_identifiers_feet :
    ∃ g, parse Scope.empty readLength? "8'-W_2" = .ok g ∧
      g.term = .binary .sub (.number 96.0) (.var "w_2") := by
  have hparse : parse (Scope.empty.rename "width" "W_2") readLength? "8'-width" = .ok
      ⟨.binary .sub (.number 96.0) (.var "width"), "8'-W_2"⟩ :=
    eq_ok_of_toOption (by decide +kernel)
  have htokens : tokenize readLength? "8'-width".toList = .ok
      [⟨.number 96.0, ⟨0, 2⟩⟩, ⟨.minus, ⟨2, 3⟩⟩, ⟨.name "width", ⟨3, 8⟩⟩, ⟨.finish, ⟨8, 8⟩⟩] :=
    eq_ok_of_toOption (by decide +kernel)
  have hunfixed : ∀ name, Scope.empty.isFixed name = false := fun _ => rfl
  have hfixed : ∀ name ∈ ["width"], (Scope.empty.rename "width" "W_2").isFixed name = false :=
    fun _ _ => rfl
  have hdisplay : ∀ name ∈ ["width"], name ≠ Builtin.randomName → ∀ display,
      (Scope.empty.rename "width" "W_2").displayName? name = some display →
        checkIdentifier display = .ok () := by
    intro name hname _ display hdisplay
    have hshown : (Scope.empty.rename "width" "W_2").displayName? "width" = some "W_2" := by
      decide +kernel
    rw [List.mem_singleton.1 hname, hshown] at hdisplay
    cases hdisplay
    exact eq_ok_of_toOption (by decide +kernel)
  obtain ⟨g, hg, hterm⟩ :=
    parse_translated_of_identifiers hparse htokens hfixed hdisplay hunfixed
  refine ⟨g, hg, ?_⟩
  rw [hterm]
  decide +kernel

end Formula

end LengthFormula
