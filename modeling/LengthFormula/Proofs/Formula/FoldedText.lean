import LengthFormula.Proofs.Formula.Acceptance
import LengthFormula.Proofs.Formula.JoinedRow
import LengthFormula.Proofs.Formula.ValueText
import LengthFormula.Proofs.Scope.Shown

/-!
# Values in the text

The translated text has the values of fixed variables in the places of their names.  Where no value
runs into the text around it (`KeepsApart`), the translated text has the value of the text
(`Formula.parse_translated_of_keepsApart`), or it nests too deeply because of the parentheses of a
negative value.  Values do run into what stands beside them: `8'-y` with five for `y` is shown as
`8'-5`, which is eight feet and five inches (`Formula.parse_translated_not_kept`).
-/

namespace LengthFormula

/-! ## Values put in for names -/

/-- The value that stands in the text for a fixed name. -/
def Scope.foldedValue (scope : Scope) (name : String) : Float := (scope.value? name).getD 0.0

/-- What is put in for a name: the text of its value. -/
def Lexeme.values (scope : Scope) (l : Lexeme) : List Lexeme :=
  match l.kind with
  | .name name => ofValue l.gap (scope.foldedValue name)
  | _ => [l]

/-- The tokens that stand in the translated text for a bare name. -/
def Scope.kindsFor (scope : Scope) (name : String) : List TokenKind :=
  if (scope.replacement? name).isSome then valueKinds (scope.foldedValue name) else [.name name]

/-- All that is put into the row is finite values. -/
def PutsValues (scope : Scope) (ls : List Lexeme) : Prop :=
  ∀ l text, Replaces scope ls l text → ∃ name, l.kind = .name name ∧
    text = valueText (scope.foldedValue name) ∧ Double.isFinite (scope.foldedValue name) = true

/-- No value that is put into the row runs into the text around it:

* each number literal of the text is the same literal in front of the new text;
* digits that are put in are a literal of their own there;
* digits that are put in behind a minus that becomes their sign lead a product. -/
def KeepsApart (scope : Scope) : Option TokenKind → List Lexeme → List Char → Prop
  | _, [], _ => True
  | previous, l :: ls, trail =>
    (∀ x, l.kind = .number x →
      scanNumber readLength? (l.chars ++ written scope ls trail) = .ok (l.kind, l.chars)) ∧
    (∀ text, l.replacement? scope ls = some text → opensNumber text.toList = true →
      ∃ kind, scanNumber readLength? (text.toList ++ written scope ls trail)
        = .ok (kind, text.toList)) ∧
    (l.kind = .minus → admitsSign previous = true → ∀ l' ls' text, ls = l' :: ls' →
      l'.replacement? scope ls' = some text → opensNumber text.toList = true →
        LeadsFactors (ls'.map Lexeme.kind)) ∧
    KeepsApart scope (some l.kind) ls trail

section Row

variable {scope : Scope} {previous previous' : Option TokenKind} {l : Lexeme} {ls : List Lexeme}
  {trail : List Char}

theorem PutsValues.tail (h : PutsValues scope (l :: ls)) : PutsValues scope ls :=
  fun l' text hl' => h l' text hl'.tail

theorem PutsValues.head {text : String} (h : PutsValues scope (l :: ls))
    (hl : l.replacement? scope ls = some text) : ∃ x, l.values scope = Lexeme.ofValue l.gap x ∧
      (∃ name, l.kind = .name name) ∧ text = valueText x ∧ Double.isFinite x = true := by
  obtain ⟨name, hname, htext, hfinite⟩ := h l text (.head hl)
  refine ⟨scope.foldedValue name, ?_, ⟨name, hname⟩, htext, hfinite⟩
  rw [Lexeme.values, hname]

/-- The row with the values has the translated text. -/
theorem textOf_putIn_values (h : PutsValues scope ls) :
    textOf (putIn scope (Lexeme.values scope) ls) trail = written scope ls trail := by
  refine textOf_putIn ?_
  intro l text hl rest
  obtain ⟨name, hname, rfl, hfinite⟩ := h l text hl
  rw [Lexeme.values, hname]
  exact Lexeme.textOf_ofValue l.gap hfinite rest

/-- The lexemes of a value stand wherever its digits are a literal of their own. -/
theorem looseCut_ofValue {x : Float} {gap : List Char} (hfinite : Double.isFinite x = true)
    (hgap : ∀ c ∈ gap, isBlank c = true)
    (hscan : Double.isNegative x = false → ∃ kind,
      scanNumber readLength? (digitsOf x ++ textOf ls trail) = .ok (kind, digitsOf x))
    (hrest : ∀ k, SameSide (some (.name "")) (some k) → LooseCut readLength? (some k) ls trail) :
    LooseCut readLength? previous (Lexeme.ofValue gap x ++ ls) trail := by
  obtain ⟨d, hd, hx⟩ := exists_plainDecimal hfinite
  obtain ⟨c, ds, hcons, hc⟩ := hd.exists_cons
  unfold Lexeme.ofValue
  split
  · next hnegative =>
    rw [if_pos hnegative] at hx
    have hopens : opensNumber (digitsOf x ++ ')' :: textOf ls trail) = true := by
      rw [hcons, List.cons_append]
      exact opensNumber_of_isDigit hc
    have hminus := hd.scanNumber_minus (textOf ls trail)
    rw [hx] at hminus
    have hat : atNumber (some .leftParen) ('-' :: ([] ++ (digitsOf x ++ ')' :: textOf ls trail)))
        = true := atNumber_sign rfl rfl (List.forall_mem_nil _) hopens
    have hblank : ∀ c, c = '(' ∨ c = '-' ∨ c = ')' → isBlank c = false := by
      rintro c (rfl | rfl | rfl) <;> decide
    refine ⟨hgap, hblank _ (.inl rfl), .inl ⟨rfl, rfl, (absurd · Bool.false_ne_true)⟩, ?_⟩
    refine ⟨List.forall_mem_nil _, hblank _ (.inr (.inl rfl)), .inl ⟨hat, hminus⟩, ?_⟩
    exact ⟨List.forall_mem_nil _, hblank _ (.inr (.inr rfl)),
      .inl ⟨rfl, rfl, (absurd · Bool.false_ne_true)⟩, hrest .rightParen ⟨rfl, rfl⟩⟩
  · next hnegative =>
    rw [if_neg hnegative] at hx
    rw [Bool.not_eq_true] at hnegative
    obtain ⟨kind, hscan⟩ := hscan hnegative
    have hkind := hd.kind_of_scanNumber hscan
    rw [hkind, hx] at hscan
    refine ⟨hgap, ?_, .inl ⟨?_, ?_⟩, hrest (.number x) ⟨rfl, rfl⟩⟩
    · rw [hcons]
      exact isBlank_of_isWord (isWord_of_isDigit hc)
    · show atNumber previous ((digitsOf x).headD '0' :: (digitsOf x).tail ++ textOf ls trail) = true
      rw [digitsOf_eq_cons hfinite, hcons, List.cons_append]
      exact atNumber_of_isDigit hc
    · show scanNumber readLength? ((digitsOf x).headD '0' :: (digitsOf x).tail ++ textOf ls trail)
        = .ok (.number x, (digitsOf x).headD '0' :: (digitsOf x).tail)
      rw [digitsOf_eq_cons hfinite]
      exact hscan

/-- What is put in begins with the kind that was there, where that is no number and no name. -/
theorem bindingOf_putIn {ρ : Lexeme → List Lexeme} (h : startsLeaf (ls.map Lexeme.kind) = false) :
    bindingOf ((putIn scope ρ ls).map Lexeme.kind) = bindingOf (ls.map Lexeme.kind) := by
  cases ls with
  | nil => rfl
  | cons l ls =>
    rw [putIn_cons_of_none (replacement?_eq_none_of_startsLeaf h)]
    rfl

theorem onlyFactors_valueKinds (depth : Nat) (x : Float) (ks : List TokenKind) :
    onlyFactors depth (valueKinds x ++ ks) = onlyFactors depth ks := by
  unfold valueKinds
  split
  · simp [onlyFactors]
  · simp

/-- Values take the places of names, so factors stay factors. -/
theorem onlyFactors_putIn (hvalues : PutsValues scope ls) (depth : Nat) :
    onlyFactors depth ((putIn scope (Lexeme.values scope) ls).map Lexeme.kind)
      = onlyFactors depth (ls.map Lexeme.kind) := by
  induction ls generalizing depth with
  | nil => rfl
  | cons l ls ih =>
    cases hl : l.replacement? scope ls with
    | none =>
      rw [putIn_cons_of_none hl]
      exact onlyFactors_congr (ih hvalues.tail)
    | some text =>
      obtain ⟨x, hlexemes, ⟨name, hname⟩, -, -⟩ := hvalues.head hl
      rw [putIn_cons_of_some hl, hlexemes, List.map_append, Lexeme.map_kind_ofValue,
        onlyFactors_valueKinds, ih hvalues.tail, List.map_cons, hname, onlyFactors_name]

/-- A mark that stood in its place stands there, or it is a sign in front of digits put in. -/
theorem stands_or_leadsNumber (hmark : l.kind.isLeaf = false)
    (hstands : l.Stands readLength? previous (textOf ls trail))
    (hside : SameSide previous previous')
    (hrest : Cut readLength? (some l.kind) ls trail) (hspread : Spread (ls.map Lexeme.kind))
    (hvalues : PutsValues scope ls)
    (hminus : l.kind = .minus → admitsSign previous = true → ∀ l' ls' text, ls = l' :: ls' →
      l'.replacement? scope ls' = some text → opensNumber text.toList = true →
        LeadsFactors (ls'.map Lexeme.kind)) :
    l.Stands readLength? previous' (textOf (putIn scope (Lexeme.values scope) ls) trail) ∨
      l.LeadsNumber previous' (putIn scope (Lexeme.values scope) ls) := by
  obtain ⟨hothers, hp, hclosed⟩ := (Lexeme.stands_iff_of_mark hmark).1 hstands
  by_cases hadmits : isSign l.first = true ∧ admitsSign previous = true
  · have hold := hclosed hadmits.1 hadmits.2
    cases ls with
    | nil => exact .inl (hstands.of_mark hmark hside fun _ _ hopens => hopens)
    | cons l' ls =>
      obtain ⟨hgap', hfirst', hstands', -⟩ := cut_cons_iff.1 hrest
      cases hl : l'.replacement? scope ls with
      | none =>
        refine .inl (hstands.of_mark hmark hside fun _ _ _ => ?_)
        rw [dropWhile_textOf_cons hgap' hfirst'] at hold
        rw [putIn_cons_of_none hl, dropWhile_textOf_cons hgap' hfirst']
        exact hstands'.opensNumber_eq (admitsSign_of_punctuation? hp hadmits.1) hold
      | some text =>
        obtain ⟨x, hlexemes, ⟨name, hname⟩, rfl, hfinite⟩ := hvalues.head hl
        cases hnegative : Double.isNegative x with
        | true =>
          refine .inl (hstands.of_mark hmark hside fun _ _ _ => ?_)
          rw [putIn_cons_of_some hl, hlexemes, textOf_append, Lexeme.textOf_ofValue l'.gap hfinite,
            List.dropWhile_append_of_pos hgap', toList_valueText hfinite, hnegative]
          rfl
        | false =>
          have hopens := opensNumber_valueText hfinite []
          rw [List.append_nil, hnegative] at hopens
          refine .inr ⟨hside.1 ▸ hadmits.2, hothers, hside.punctuation?_eq l.first ▸ hp,
            sign_of_admitsSign hp hadmits.1 hadmits.2, ?_⟩
          rw [putIn_cons_of_some hl, hlexemes, Lexeme.ofValue, hnegative]
          refine ⟨_, _, x, rfl, rfl, fun hkind => ?_⟩
          obtain ⟨hpower, hfactors⟩ := hminus hkind hadmits.2 l' ls _ rfl hl hopens
          refine ⟨?_, (onlyFactors_putIn hvalues.tail 0).trans hfactors⟩
          exact bindingOf_putIn (hspread.1 (by rw [hname]; rfl)) ▸ hpower
  · exact .inl (hstands.of_mark hmark hside fun hs ha => absurd ⟨hs, ha⟩ hadmits)

/-- The row with the values is cut off its text, once signs are joined to the digits behind. -/
theorem looseCut_putIn_values (h : Cut readLength? previous ls trail)
    (hside : SameSide previous previous') (hspread : Spread (ls.map Lexeme.kind))
    (hvalues : PutsValues scope ls) (hapart : KeepsApart scope previous ls trail) :
    LooseCut readLength? previous' (putIn scope (Lexeme.values scope) ls) trail := by
  induction ls generalizing previous previous' with
  | nil => exact h
  | cons l ls ih =>
    obtain ⟨hgap, hfirst, hstands, hrest⟩ := cut_cons_iff.1 h
    obtain ⟨hnext, hspread⟩ := hspread
    obtain ⟨hnumber, hdigits, hminus, hapart⟩ := hapart
    have htext : textOf (putIn scope (Lexeme.values scope) ls) trail = written scope ls trail :=
      textOf_putIn_values hvalues.tail
    cases hl : l.replacement? scope ls with
    | some text =>
      obtain ⟨x, hlexemes, ⟨name, hname⟩, rfl, hfinite⟩ := hvalues.head hl
      rw [putIn_cons_of_some hl, hlexemes]
      refine looseCut_ofValue hfinite hgap ?_ ?_
      · intro hnegative
        rw [htext]
        have hvalue := toList_valueText hfinite
        rw [hnegative, if_neg Bool.false_ne_true] at hvalue
        rw [← hvalue]
        refine hdigits _ hl ?_
        have hopens := opensNumber_valueText hfinite []
        rwa [List.append_nil, hnegative] at hopens
      · intro k hk
        refine ih hrest ?_ hspread hvalues.tail hapart
        rw [hname]
        exact hk
    | none =>
      rw [putIn_cons_of_none hl]
      refine ⟨hgap, hfirst, ?_, ih hrest (.refl _) hspread hvalues.tail hapart⟩
      cases hkind : l.kind with
      | number x =>
        refine .inl (hstands.of_number hkind hside ?_)
        rw [htext]
        exact hnumber x hkind
      | name name =>
        refine .inl (hstands.of_name hkind ?_)
        rw [startsWith_textOf_putIn (hnext (by rw [hkind]; rfl))]
        rw [Lexeme.Stands] at hstands
        simp only [hkind] at hstands
        exact hstands.2.2.2
      | _ =>
        have hmark : l.kind.isLeaf = false := by
          rw [hkind]
          rfl
        rw [hkind] at hminus
        exact stands_or_leadsNumber hmark hstands hside hrest hspread hvalues.tail (hkind ▸ hminus)

end Row

/-! ## The translated text -/

section Translated

variable {scope : Scope} {ls : List Lexeme} {trail : List Char} {text : String} {f : Formula}

/-- Where every variable is shown under its own name, only the values of fixed ones are put in. -/
theorem Scope.fixed_of_replacement? {name value : String} (hrenames : scope.ShowsOwnNames)
    (hlower : lowerCase name = name) (h : scope.replacement? name = some value) :
    name ≠ Builtin.randomName ∧ scope.isFixed name = true ∧
      value = valueText (scope.foldedValue name) := by
  unfold replacement? at h
  split at h
  · cases h
  · next hrandom =>
    split at h
    · next hfixed => exact ⟨hrandom, hfixed, (Option.some.inj h).symm⟩
    · rw [Option.filter_eq_some_iff] at h
      obtain ⟨hdisplay, hne⟩ := h
      rw [decide_eq_true_eq] at hne
      exact absurd ((hrenames name value hdisplay).trans hlower) hne

theorem putsValues_of_cut (hrenames : scope.ShowsOwnNames) (hfinite : scope.FixesFinite)
    (hcut : Cut readLength? none ls trail) : PutsValues scope ls := by
  intro l value hl
  obtain ⟨name, hname, hbare, hreplaced⟩ := hl.exists_name
  have hlower := lowerCase_of_cut hcut (mem_of_mem_bareNames hbare)
  obtain ⟨-, hfixed, hvalue⟩ := Scope.fixed_of_replacement? hrenames hlower hreplaced
  refine ⟨name, hname, hvalue, ?_⟩
  rw [Scope.foldedValue]
  cases hx : scope.value? name with
  | none => decide +kernel
  | some x => exact hfinite name x hfixed hx

/-- What stands for a name in the translated text has the tree of the name, one level down if the
value is negative. -/
theorem derives_kindsFor {name : String} {more : Nat} {rest : List TokenKind}
    (hfixed : ∀ value, scope.replacement? name = some value →
      scope.nameTerm name = .number (scope.foldedValue name))
    (hmore : ∀ value, scope.replacement? name = some value →
      Double.isNegative (scope.foldedValue name) = true → 1 ≤ more)
    (hrest : rest.head? ≠ some .leftParen) :
    Derives scope more .atom (scope.kindsFor name ++ rest) (scope.nameTerm name) rest := by
  rw [Scope.kindsFor]
  cases hreplaced : scope.replacement? name with
  | none => exact .name hrest
  | some value =>
    rw [hfixed value hreplaced, valueKinds]
    cases hnegative : Double.isNegative (scope.foldedValue name) with
    | false => exact .number
    | true =>
      have hnumber : Derives scope (more - 1) (.chain .sum)
          (.number (scope.foldedValue name) :: .rightParen :: rest)
          (.number (scope.foldedValue name)) (.rightParen :: rest) :=
        .operand (c := .sum) (.operand (c := .product) (.operand (c := .power) .number))
      have hlevel : more - 1 + 1 = more := Nat.sub_add_cancel (hmore value hreplaced hnegative)
      exact hlevel ▸ Derives.paren hnumber

/-- The kinds of the row with the values are those of the row with each bare name read as what
stands for it. -/
theorem map_kind_putIn_values (scope : Scope) (ls : List Lexeme) :
    (putIn scope (Lexeme.values scope) ls).map Lexeme.kind ++ [.finish]
      = mapBare scope.kindsFor (ls.map Lexeme.kind ++ [.finish]) := by
  refine map_kind_putIn ?_ ?_ [.finish] (by simp)
  · intro l value name hl hname
    obtain ⟨name', hname', -, hreplaced⟩ := hl.exists_name
    cases hname.symm.trans hname'
    rw [Lexeme.values, hname, Scope.kindsFor, hreplaced]
    exact Lexeme.map_kind_ofValue l.gap _
  · intro name _ hreplaced
    rw [Scope.kindsFor, hreplaced]
    rfl

/-- What derives from the text derives with the values in it, with `m` more levels where one of them
is negative. -/
theorem derives_putIn_values {levels m : Nat} {t : Term} (hrenames : scope.ShowsOwnNames)
    (hcut : Cut readLength? none ls trail)
    (hderives : Derives scope levels (.chain .sum) (ls.map Lexeme.kind ++ [.finish]) t [.finish])
    (hmore : ∀ name ∈ bareNames (ls.map Lexeme.kind), scope.isFixed name = true →
      Double.isNegative (scope.foldedValue name) = true → 1 ≤ m) :
    Derives scope (levels + m) (.chain .sum)
      ((putIn scope (Lexeme.values scope) ls).map Lexeme.kind ++ [.finish]) t [.finish] := by
  rw [map_kind_putIn_values, ← Term.subst_var t]
  refine hderives.mapBare rfl ?_
  intro name hname rest hrest
  rw [bareNames_append_finish] at hname
  have hlower := lowerCase_of_cut hcut (mem_of_mem_bareNames hname)
  rw [Term.subst_var]
  refine derives_kindsFor ?_ ?_ hrest
  · intro value hreplaced
    obtain ⟨hrandom, hfixed, -⟩ := Scope.fixed_of_replacement? hrenames hlower hreplaced
    rw [Scope.nameTerm, if_neg hrandom, if_pos hfixed]
    rfl
  · intro value hreplaced
    obtain ⟨-, hfixed, -⟩ := Scope.fixed_of_replacement? hrenames hlower hreplaced
    exact hmore name hname hfixed

/-- With a level for the parentheses of negative values, the translated text is a formula with the
value of the text. -/
theorem parse_written {levels m : Nat} {t : Term} {translated : String}
    (hrenames : scope.ShowsOwnNames) (hfinite : scope.FixesFinite)
    (hcut : Cut readLength? none ls trail) (hapart : KeepsApart scope none ls trail)
    (hderives : Derives scope levels (.chain .sum) (ls.map Lexeme.kind ++ [.finish]) t [.finish])
    (hheight : t.height ≤ maxDepth)
    (htranslated : translated = String.ofList (written scope ls trail))
    (hmore : ∀ name ∈ bareNames (ls.map Lexeme.kind), scope.isFixed name = true →
      Double.isNegative (scope.foldedValue name) = true → 1 ≤ m) :
    (∃ g, Formula.parse scope readLength? translated = .ok g ∧ g.term.Agrees scope t) ∨
      ¬ levels + m ≤ maxDepth ∧
        ∃ position, Formula.parse scope readLength? translated
          = .error ⟨.nestedTooDeeply, position⟩ := by
  have hvalues := putsValues_of_cut hrenames hfinite hcut
  have hspread : Spread (ls.map Lexeme.kind ++ [.finish]) :=
    hderives.isSpread (.cons rfl trivial) rfl
  have hloose := looseCut_putIn_values hcut (.refl none) hspread.of_append hvalues hapart
  obtain ⟨htext, hjoined⟩ := hloose.cut_joinRow rfl (.refl none)
  have htext' : translated.toList
      = textOf (joinRow true (putIn scope (Lexeme.values scope) ls)) trail := by
    rw [htranslated, String.toList_ofList]
    exact (htext.trans (textOf_putIn_values hvalues)).symm
  have hderives' := derives_putIn_values hrenames hcut hderives hmore
  obtain ⟨r, t', hderives', hagrees, hrank⟩ := hderives'.joinSigns hloose.signsBound
  obtain rfl := hrank.eq_sum
  rw [joinSigns_append_finish, ← map_kind_joinRow] at hderives'
  rcases Formula.parse_of_derives htext' hjoined hderives' with ⟨g, hg, rfl⟩ | ⟨hdeep, herror⟩
  · exact .inl ⟨g, hg, hagrees⟩
  · exact .inr ⟨fun hlevels => hdeep ⟨hlevels, Nat.le_trans hagrees.height_le hheight⟩, herror⟩

namespace Formula

/-- Where every variable is shown under its own name, all fixed values are finite and no value that
is put in runs into the text around it, the translated text is a formula with the value of the text:
the same number or the same error, for all draws and in strict look-ups and others.  Only where a
negative value is put in and the text itself needs every level may its parentheses be one level too
many, and then the translated text is refused as nested too deeply. -/
theorem parse_translated_of_keepsApart (h : parse scope readLength? text = .ok f)
    (hrenames : scope.ShowsOwnNames) (hfinite : scope.FixesFinite)
    (htext : text.toList = textOf ls trail) (hcut : Cut readLength? none ls trail)
    (hapart : KeepsApart scope none ls trail) :
    (∃ g, parse scope readLength? f.translated = .ok g ∧ ∀ strict draws,
        g.term.eval scope strict draws = f.term.eval scope strict draws) ∨
      (∃ position, parse scope readLength? f.translated = .error ⟨.nestedTooDeeply, position⟩) ∧
        (∃ name ∈ bareNames (ls.map Lexeme.kind), scope.isFixed name = true ∧
          Double.isNegative (scope.foldedValue name) = true) ∧
        ¬ Derives scope (maxDepth - 1) (.chain .sum) (ls.map Lexeme.kind ++ [.finish]) f.term
          [.finish] := by
  obtain ⟨ls', trail', htext', hcut', hderives, hheight, htranslated⟩ := exists_of_parse h
  obtain ⟨rfl, rfl⟩ := cut_unique hcut hcut' (htext.symm.trans htext')
  by_cases hnegative : ∃ name ∈ bareNames (ls.map Lexeme.kind), scope.isFixed name = true ∧
      Double.isNegative (scope.foldedValue name) = true
  · by_cases hroom : Derives scope (maxDepth - 1) (.chain .sum)
        (ls.map Lexeme.kind ++ [.finish]) f.term [.finish]
    · -- one level is left for the parentheses
      rcases parse_written (m := 1) hrenames hfinite hcut hapart hroom hheight htranslated
          fun _ _ _ _ => Nat.le_refl 1 with ⟨g, hg, hagrees⟩ | ⟨hdeep, -⟩
      · exact .inl ⟨g, hg, hagrees.eval_eq⟩
      · exact absurd (by decide) hdeep
    · rcases parse_written (m := 1) hrenames hfinite hcut hapart hderives hheight htranslated
          fun _ _ _ _ => Nat.le_refl 1 with ⟨g, hg, hagrees⟩ | ⟨-, herror⟩
      · exact .inl ⟨g, hg, hagrees.eval_eq⟩
      · exact .inr ⟨herror, hnegative, hroom⟩
  · rcases parse_written (m := 0) hrenames hfinite hcut hapart hderives hheight htranslated
        fun name hname hfixed hsign => absurd ⟨name, hname, hfixed, hsign⟩ hnegative with
      ⟨g, hg, hagrees⟩ | ⟨hdeep, -⟩
    · exact .inl ⟨g, hg, hagrees.eval_eq⟩
    · exact absurd (Nat.le_refl _) hdeep

/-- With five for the fixed `y` the text `-y` is shown as `-5`, where the minus belongs to the
number. -/
theorem parse_translated_of_keepsApart_sign :
    ∃ g, parse ((Scope.empty.declare "y" 5.0).markFixed "y") readLength? "-5" = .ok g ∧
      g.term.eval ((Scope.empty.declare "y" 5.0).markFixed "y") true (.cycle [])
        = (Term.negate (.number 5.0)).eval
            ((Scope.empty.declare "y" 5.0).markFixed "y") true (.cycle []) := by
  have hrenames : ((Scope.empty.declare "y" 5.0).markFixed "y").ShowsOwnNames :=
    (Scope.showsOwnNames_empty.declare "y" 5.0).markFixed "y"
  have hvalues : ((Scope.empty.declare "y" 5.0).markFixed "y").HoldsFinite :=
    (Scope.holdsFinite_empty.declare "y" (by decide +kernel)).markFixed "y"
  have hparse : parse ((Scope.empty.declare "y" 5.0).markFixed "y") readLength? "-y" = .ok
      ⟨.negate (.number 5.0), "-5"⟩ := eq_ok_of_toOption (by decide +kernel)
  have hput : ((Scope.empty.declare "y" 5.0).markFixed "y").replacement? "y" = some "5" := by
    decide +kernel
  have hpositive : Double.isNegative
      (((Scope.empty.declare "y" 5.0).markFixed "y").foldedValue "y") = false := by
    decide +kernel
  have hscan : scanNumber readLength? ['5'] = .ok (.number 5.0, ['5']) :=
    eq_ok_of_toOption (by decide +kernel)
  generalize (Scope.empty.declare "y" 5.0).markFixed "y" = scope at *
  have hcut : Cut readLength? none [⟨[], .minus, '-', []⟩, ⟨[], .name "y", 'y', []⟩] [] :=
    ⟨by simp, by decide, eq_ok_of_toOption (by decide +kernel), by simp, by decide,
      eq_ok_of_toOption (by decide +kernel), fun _ h => nomatch h⟩
  have hapart : KeepsApart scope none [⟨[], .minus, '-', []⟩, ⟨[], .name "y", 'y', []⟩] [] := by
    refine ⟨by simp, by simp [Lexeme.replacement?], ?_, by simp, ?_, by simp, trivial⟩
    · intro _ _ l' ls' text hrow _ _
      cases hrow
      exact ⟨by decide, rfl⟩
    · intro text htext _
      have htext : scope.replacement? "y" = some text := htext
      rw [hput] at htext
      cases htext
      exact ⟨_, hscan⟩
  rcases parse_translated_of_keepsApart hparse hrenames hvalues.fixesFinite rfl hcut hapart with
    ⟨g, hg, heval⟩ | ⟨-, ⟨name, hname, -, hnegative⟩, -⟩
  · exact ⟨g, hg, heval true (.cycle [])⟩
  · have hy : name ∈ ["y"] := hname
    rw [List.mem_singleton.1 hy, hpositive] at hnegative
    cases hnegative

theorem exists_parse_ofList (scope : Scope) (convert : Converter) (cs edited : List Char)
    (h : ((tokenize convert cs).bind (parseTokens scope)).toOption.map
      (fun phrase => applyEdits 0 cs phrase.edits) = some edited) :
    ∃ f, parse scope convert (String.ofList cs) = .ok f ∧ f.translated = String.ofList edited := by
  obtain ⟨phrase, hphrase, rfl⟩ := Option.map_eq_some_iff.1 h
  rw [parse_ofList, eq_ok_of_toOption hphrase]
  exact ⟨_, rfl, rfl⟩

theorem parse_ofList_eq_error (scope : Scope) (convert : Converter) (cs : List Char)
    (fault : ParseFault)
    (h : (match (tokenize convert cs).bind (parseTokens scope) with
      | .ok _ => none
      | .error e => some e.fault) = some fault) :
    ∃ position, parse scope convert (String.ofList cs) = .error ⟨fault, position⟩ := by
  rw [parse_ofList]
  cases hparse : (tokenize convert cs).bind (parseTokens scope) with
  | ok phrase =>
    rw [hparse] at h
    cases h
  | error e =>
    rw [hparse] at h
    cases h
    exact ⟨e.position, rfl⟩

/-- The conditions are needed.  A text that opens as many parentheses as allowed around a negative
value is a formula, and the parentheses of the value are one more.  In `8'-y` five for `y` becomes
the inches of a length, `8'-5`. -/
theorem parse_translated_not_kept :
    (((Scope.empty.declare "y" (-3.0)).markFixed "y").ShowsOwnNames ∧
      ((Scope.empty.declare "y" (-3.0)).markFixed "y").FixesFinite ∧
      ∃ f position,
        parse ((Scope.empty.declare "y" (-3.0)).markFixed "y") readLength?
            (String.ofList (List.replicate 256 '(' ++ 'y' :: List.replicate 256 ')')) = .ok f ∧
          parse ((Scope.empty.declare "y" (-3.0)).markFixed "y") readLength? f.translated
            = .error ⟨.nestedTooDeeply, position⟩) ∧
    (((Scope.empty.declare "y" 5.0).markFixed "y").ShowsOwnNames ∧
      ((Scope.empty.declare "y" 5.0).markFixed "y").FixesFinite ∧
      ∃ f g,
        parse ((Scope.empty.declare "y" 5.0).markFixed "y") readLength? "8'-y" = .ok f ∧
          parse ((Scope.empty.declare "y" 5.0).markFixed "y") readLength? f.translated = .ok g ∧
          g.term.eval ((Scope.empty.declare "y" 5.0).markFixed "y") true (.cycle [])
            ≠ f.term.eval ((Scope.empty.declare "y" 5.0).markFixed "y") true (.cycle [])) := by
  have hscope : ∀ x, Double.isFinite x = true →
      ((Scope.empty.declare "y" x).markFixed "y").ShowsOwnNames ∧
        ((Scope.empty.declare "y" x).markFixed "y").FixesFinite := fun x hx =>
    ⟨(Scope.showsOwnNames_empty.declare "y" x).markFixed "y",
      ((Scope.holdsFinite_empty.declare "y" hx).markFixed "y").fixesFinite⟩
  obtain ⟨hrenames, hfinite⟩ := hscope (-3.0) (by decide +kernel)
  obtain ⟨hrenames', hfinite'⟩ := hscope 5.0 (by decide +kernel)
  refine ⟨⟨hrenames, hfinite, ?_⟩, hrenames', hfinite', ?_⟩
  · obtain ⟨f, hf, htranslated⟩ := exists_parse_ofList
      ((Scope.empty.declare "y" (-3.0)).markFixed "y") readLength?
      (List.replicate 256 '(' ++ 'y' :: List.replicate 256 ')')
      (List.replicate 257 '(' ++ '-' :: '3' :: List.replicate 257 ')') (by decide +kernel)
    obtain ⟨position, hposition⟩ := parse_ofList_eq_error
      ((Scope.empty.declare "y" (-3.0)).markFixed "y") readLength?
      (List.replicate 257 '(' ++ '-' :: '3' :: List.replicate 257 ')') .nestedTooDeeply
      (by decide +kernel)
    refine ⟨f, position, hf, ?_⟩
    rw [htranslated]
    exact hposition
  · have hparse : parse ((Scope.empty.declare "y" 5.0).markFixed "y") readLength? "8'-y" = .ok
        ⟨.binary .sub (.number 96.0) (.number 5.0), "8'-5"⟩ := eq_ok_of_toOption (by decide +kernel)
    have hagain : parse ((Scope.empty.declare "y" 5.0).markFixed "y") readLength? "8'-5" = .ok
        ⟨.number 101.0, "8'-5"⟩ := eq_ok_of_toOption (by decide +kernel)
    refine ⟨_, _, hparse, hagain, fun h => ?_⟩
    have hvalue : (101.0 : Float) = 96.0 - 5.0 := Except.ok.inj (Prod.mk.inj h).1
    exact absurd hvalue (by decide +kernel)

end Formula

end Translated

end LengthFormula
