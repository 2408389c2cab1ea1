import LengthFormula.Proofs.Formula.Acceptance
import LengthFormula.Proofs.Token.Tiling

/-!
# The pieces of a translated text

The translation of a formula is its text with exactly the substituted names replaced: token by token
it is the untouched gap in front and either the token's own characters or its replacement (`Pieces`,
`Formula.exists_pieces`).  Slicing a text at bytes fails inside a character, out of order and behind
the end (`slice?`); no slice of a formula's edits fails (`EditsFit.applyEdits?_eq`).
-/

namespace LengthFormula

/-! ## Slices -/

/-- Cuts a text behind its first `bytes` bytes, unless that is inside a character or behind the
end. -/
def splitBytes? : (bytes : Nat) → List Char → Option (List Char × List Char)
  | 0, cs => some ([], cs)
  | _ + 1, [] => none
  | bytes + 1, c :: cs =>
    if c.utf8Size ≤ bytes + 1 then
      (splitBytes? (bytes + 1 - c.utf8Size) cs).map fun r => (c :: r.1, r.2)
    else none

/-- The characters between two bytes of a text, unless the bytes are out of order, inside a
character or behind the end. -/
def slice? (text : List Char) (start stop : Nat) : Option (List Char) :=
  if start ≤ stop then
    (splitBytes? start text).bind fun r => (splitBytes? (stop - start) r.2).map Prod.fst
  else none

/-- Makes the edits on a text behind the byte `cursor`, with a slice for every text between them. -/
def applyEdits? (text : List Char) (cursor : Nat) : List Edit → Option (List Char)
  | [] => slice? text cursor (utf8Length text)
  | edit :: edits =>
    (slice? text cursor edit.span.start).bind fun gap =>
      (applyEdits? text edit.span.stop edits).map fun rest =>
        gap ++ edit.replacement.toList ++ rest

section Slices

variable {a b x : List Char}

theorem splitBytes?_append (a x : List Char) :
    splitBytes? (utf8Length a) (a ++ x) = some (a, x) := by
  induction a with
  | nil => cases x <;> rfl
  | cons c a ih =>
    obtain ⟨n, hn⟩ : ∃ n, utf8Length (c :: a) = n + 1 :=
      ⟨utf8Length (c :: a) - 1, by
        have := utf8Length_pos (List.cons_ne_nil c a)
        omega⟩
    have hle : c.utf8Size ≤ n + 1 := by
      rw [← hn, utf8Length_cons]
      omega
    have hrest : n + 1 - c.utf8Size = utf8Length a := by
      rw [← hn, utf8Length_cons]
      omega
    rw [hn, List.cons_append, splitBytes?, if_pos hle, hrest, ih]
    rfl

theorem slice?_append (a b x : List Char) :
    slice? (a ++ (b ++ x)) (utf8Length a) (utf8Length a + utf8Length b) = some b := by
  rw [slice?, if_pos (Nat.le_add_right _ _), splitBytes?_append, Nat.add_sub_cancel_left]
  simp only [Option.bind_some, splitBytes?_append, Option.map_some]

/-- Of two places in a text the one with fewer bytes in front comes first. -/
theorem exists_of_utf8Length_le {y : List Char} (h : a ++ x = b ++ y)
    (hle : utf8Length a ≤ utf8Length b) : ∃ middle, b = a ++ middle ∧ x = middle ++ y := by
  rcases List.append_eq_append_iff.1 h with hmiddle | ⟨middle, rfl, rfl⟩
  · exact hmiddle
  · have hnil : middle = [] := by
      by_cases hne : middle = []
      · exact hne
      · have := utf8Length_pos hne
        rw [utf8Length_append] at hle
        omega
    exact ⟨[], by simp [hnil], by simp [hnil]⟩

end Slices

/-! ## Edits that fit a text -/

/-- The edits replace texts between characters, at least one character each, in order and apart. -/
structure EditsFit (text : List Char) (edits : List Edit) : Prop where
  ordered : edits.Pairwise fun a b => a.span.stop ≤ b.span.start
  fits : ∀ edit ∈ edits, ∃ before inside behind,
    inside ≠ [] ∧ edit.span.Splits text before inside behind

/-- Making edits that fit needs no slice that fails. -/
theorem EditsFit.applyEdits?_eq {front rest : List Char} {edits : List Edit}
    (h : EditsFit (front ++ rest) edits)
    (hstart : ∀ edit ∈ edits, utf8Length front ≤ edit.span.start) :
    applyEdits? (front ++ rest) (utf8Length front) edits
      = some (applyEdits (utf8Length front) rest edits) := by
  induction edits generalizing front rest with
  | nil =>
    have hslice := slice?_append front rest []
    rw [List.append_nil, ← utf8Length_append] at hslice
    rw [applyEdits?, hslice, applyEdits_nil]
  | cons edit edits ih =>
    obtain ⟨hordered, hfits⟩ := h
    obtain ⟨hlater, hordered⟩ := List.pairwise_cons.1 hordered
    obtain ⟨before, inside, behind, -, hsplits⟩ := hfits edit List.mem_cons_self
    have hle := hstart edit List.mem_cons_self
    rw [hsplits.start_eq] at hle
    obtain ⟨gap, rfl, rfl⟩ := exists_of_utf8Length_le hsplits.text_eq hle
    obtain ⟨-, hstart_eq, hstop_eq⟩ := hsplits
    rw [utf8Length_append] at hstart_eq hstop_eq
    have htext : front ++ (gap ++ (inside ++ behind)) = front ++ gap ++ inside ++ behind := by
      simp only [List.append_assoc]
    have hstop : edit.span.stop = utf8Length (front ++ gap ++ inside) := by
      rw [hstop_eq, utf8Length_append, utf8Length_append]
    -- behind the edit its text is passed over, and the other edits fit there
    have hrest : applyEdits? (front ++ gap ++ inside ++ behind)
          (utf8Length (front ++ gap ++ inside)) edits
        = some (applyEdits (utf8Length (front ++ gap ++ inside)) behind edits) :=
      ih ⟨hordered, htext ▸ fun e he => hfits e (List.mem_cons_of_mem _ he)⟩
        fun e he => hstop ▸ hlater e he
    have htake : takeBytes (edit.span.start - utf8Length front) (gap ++ (inside ++ behind))
        = gap := by
      rw [hstart_eq, Nat.add_sub_cancel_left, ← Nat.add_zero (utf8Length gap), takeBytes_append,
        takeBytes_zero, List.append_nil]
    have hdrop : dropBytes (edit.span.stop - utf8Length front) (gap ++ (inside ++ behind))
        = behind := by
      rw [hstop_eq, Nat.add_assoc, Nat.add_sub_cancel_left, dropBytes_append,
        ← Nat.add_zero (utf8Length inside), dropBytes_append, dropBytes_zero]
    have hgap : slice? (front ++ (gap ++ (inside ++ behind))) (utf8Length front) edit.span.start
        = some gap := by
      rw [hstart_eq, slice?_append]
    rw [applyEdits?, hgap, applyEdits, htake, hdrop, htext, hstop, hrest]
    rfl

/-! ## Replacements -/

/-- In front of the tokens `rest` the token is replaced by a text: it is a name other than `random`
that is not called, and either fixed or shown under another name. -/
inductive Replaced (scope : Scope) : Token → List Token → String → Prop
  | fixed {name : String} {span : Span} {rest : List Token} :
      name ≠ "random" → (kindsOf rest).head? ≠ some .leftParen → scope.isFixed name = true →
      Replaced scope ⟨.name name, span⟩ rest (valueText ((scope.value? name).getD 0.0))
  | renamed {name display : String} {span : Span} {rest : List Token} :
      name ≠ "random" → (kindsOf rest).head? ≠ some .leftParen → scope.isFixed name = false →
      scope.displayName? name = some display → display ≠ name →
      Replaced scope ⟨.name name, span⟩ rest display

/-- Behind the byte `cursor` the tokens of a text are written one after the other, each behind the
gap in front of it, and replaced or as it is. -/
inductive Pieces (scope : Scope) (text : List Char) : Nat → List Token → List Char → Prop
  | nil {cursor : Nat} : Pieces scope text cursor [] []
  | kept {cursor : Nat} {token : Token} {rest : List Token} {gap own out : List Char} :
      slice? text cursor token.span.start = some gap →
      slice? text token.span.start token.span.stop = some own →
      (∀ replacement, ¬ Replaced scope token rest replacement) →
      Pieces scope text token.span.stop rest out →
      Pieces scope text cursor (token :: rest) (gap ++ own ++ out)
  | replaced {cursor : Nat} {token : Token} {rest : List Token} {gap out : List Char}
      {replacement : String} :
      slice? text cursor token.span.start = some gap →
      Replaced scope token rest replacement →
      Pieces scope text token.span.stop rest out →
      Pieces scope text cursor (token :: rest) (gap ++ replacement.toList ++ out)

section Replacements

variable {scope : Scope} {token : Token} {tokens rest : List Token} {replacement : String}
  {edit : Edit}

theorem Replaced.exists_name (h : Replaced scope token rest replacement) :
    ∃ name, token.kind = .name name := by
  cases h <;> exact ⟨_, rfl⟩

/-- A token is replaced by one text only. -/
theorem Replaced.unique {other : String} (h : Replaced scope token rest replacement)
    (h' : Replaced scope token rest other) : replacement = other := by
  cases h with
  | fixed _ _ hfixed =>
    cases h' with
    | fixed => rfl
    | renamed _ _ hfixed' => exact absurd (hfixed.symm.trans hfixed') Bool.noConfusion
  | renamed _ _ hfixed hdisplay =>
    cases h' with
    | fixed _ _ hfixed' => exact absurd (hfixed'.symm.trans hfixed) Bool.noConfusion
    | renamed _ _ _ hdisplay' => exact Option.some.inj (hdisplay.symm.trans hdisplay')

/-- The pieces of a token list make one text only. -/
theorem Pieces.unique {text out out' : List Char} {cursor : Nat}
    (h : Pieces scope text cursor tokens out) (h' : Pieces scope text cursor tokens out') :
    out = out' := by
  induction h generalizing out' with
  | nil =>
    cases h'
    rfl
  | kept hgap hown hnot _ ih =>
    cases h' with
    | kept hgap' hown' _ hrest =>
      rw [ih hrest, Option.some.inj (hgap.symm.trans hgap'),
        Option.some.inj (hown.symm.trans hown')]
    | replaced _ hreplaced => exact absurd hreplaced (hnot _)
  | replaced hgap hreplaced _ ih =>
    cases h' with
    | kept _ _ hnot => exact absurd hreplaced (hnot _)
    | replaced hgap' hreplaced' hrest =>
      rw [ih hrest, Option.some.inj (hgap.symm.trans hgap'), hreplaced.unique hreplaced']

theorem Scope.replacement?_eq_some_iff {name : String} :
    scope.replacement? name = some replacement ↔ name ≠ "random" ∧
      (scope.isFixed name = true ∧ replacement = valueText ((scope.value? name).getD 0.0) ∨
        scope.isFixed name = false ∧ scope.displayName? name = some replacement ∧
          replacement ≠ name) := by
  rw [replacement?, Builtin.randomName]
  by_cases hrandom : name = "random"
  · simp [hrandom]
  · cases hfixed : scope.isFixed name with
    | true => simp [hrandom, eq_comm]
    | false => simp [hrandom, Option.filter_eq_some_iff]

/-- The edit of a token is its replacement. -/
theorem mem_bareEdits_iff :
    edit ∈ bareEdits scope token rest ↔
      edit.span = token.span ∧ Replaced scope token rest edit.replacement := by
  obtain ⟨kind, span⟩ := token
  obtain ⟨place, text⟩ := edit
  have hother : (∀ name, kind ≠ .name name) → ¬ Replaced scope ⟨kind, span⟩ rest text := by
    rintro hkind (_ | _) <;> exact hkind _ rfl
  cases kind with
  | name name =>
    rw [bareEdits]
    simp only
    by_cases hcall : (kindsOf rest).head? = some .leftParen
    · rw [if_pos hcall]
      refine ⟨fun h => absurd h List.not_mem_nil, ?_⟩
      rintro ⟨-, _ | _⟩ <;> exact absurd hcall (by assumption)
    · rw [if_neg hcall, reference_edits, List.mem_map]
      simp only [Option.mem_toList, Scope.replacement?_eq_some_iff]
      constructor
      · rintro ⟨_, ⟨hrandom, ⟨hfixed, rfl⟩ | ⟨hfixed, hdisplay, hne⟩⟩, hedit⟩
        · cases hedit
          exact ⟨rfl, .fixed hrandom hcall hfixed⟩
        · cases hedit
          exact ⟨rfl, .renamed hrandom hcall hfixed hdisplay hne⟩
      · rintro ⟨rfl, h⟩
        cases h with
        | fixed hrandom _ hfixed => exact ⟨_, ⟨hrandom, .inl ⟨hfixed, rfl⟩⟩, rfl⟩
        | renamed hrandom _ hfixed hdisplay hne =>
          exact ⟨_, ⟨hrandom, .inr ⟨hfixed, hdisplay, hne⟩⟩, rfl⟩
  | _ =>
    refine ⟨fun h => absurd h List.not_mem_nil, fun h => absurd h.2 (hother ?_)⟩
    exact fun _ => TokenKind.noConfusion

/-- The edits of a token list are the replacements of its tokens. -/
theorem mem_editsOf_iff :
    edit ∈ editsOf scope tokens ↔ ∃ before token after, tokens = before ++ token :: after ∧
      edit.span = token.span ∧ Replaced scope token after edit.replacement := by
  induction tokens with
  | nil => simp [editsOf]
  | cons token tokens ih =>
    rw [editsOf, List.mem_append, mem_bareEdits_iff, ih]
    constructor
    · rintro (h | ⟨before, token', after, rfl, h⟩)
      · exact ⟨[], token, tokens, rfl, h⟩
      · exact ⟨token :: before, token', after, rfl, h⟩
    · rintro ⟨before, token', after, heq, h⟩
      cases before with
      | nil =>
        obtain ⟨rfl, rfl⟩ := List.cons.inj heq
        exact .inl h
      | cons first before =>
        obtain ⟨rfl, rfl⟩ := List.cons.inj heq
        exact .inr ⟨before, token', after, rfl, h⟩

/-- No token is replaced twice, so tokens in order have edits in order. -/
theorem pairwise_editsOf (h : tokens.Pairwise fun a b => a.span.stop ≤ b.span.start) :
    (editsOf scope tokens).Pairwise fun a b => a.span.stop ≤ b.span.start := by
  have hone : ∀ token rest, (bareEdits scope token rest).Pairwise
      fun a b => a.span.stop ≤ b.span.start := by
    intro token rest
    unfold bareEdits
    split
    · split
      · exact .nil
      · rw [reference_edits]
        cases scope.replacement? _ with
        | none => exact .nil
        | some text => exact List.pairwise_singleton _ _
    · exact .nil
  induction tokens with
  | nil => exact .nil
  | cons token tokens ih =>
    obtain ⟨hfirst, htokens⟩ := List.pairwise_cons.1 h
    refine List.pairwise_append.2 ⟨hone token tokens, ih htokens, fun e he e' he' => ?_⟩
    obtain ⟨before, other, after, rfl, hspan, -⟩ := mem_editsOf_iff.1 he'
    rw [(mem_bareEdits_iff.1 he).1, hspan]
    exact hfirst other (by simp)

end Replacements

/-! ## The pieces of a row -/

section Rows

variable {scope : Scope} {convert : Converter} {ls : List Lexeme} {trail : List Char}

theorem Lexeme.replacement?_eq_some_iff {l : Lexeme} (span : Span) (position : Nat)
    {replacement : String} :
    l.replacement? scope ls = some replacement ↔
      Replaced scope ⟨l.kind, span⟩ (tokensFrom position ls trail) replacement := by
  have hmem : ⟨span, replacement⟩ ∈ bareEdits scope ⟨l.kind, span⟩ (tokensFrom position ls trail) ↔
      span = span ∧ Replaced scope ⟨l.kind, span⟩ (tokensFrom position ls trail) replacement :=
    mem_bareEdits_iff
  rw [bareEdits_tokensFrom] at hmem
  simpa using hmem

/-- The written text of a row is made of the pieces of its tokens. -/
theorem pieces_tokensFrom (scope : Scope) (front : List Char) (ls : List Lexeme)
    (trail : List Char) :
    Pieces scope (front ++ textOf ls trail) (utf8Length front)
      (tokensFrom (utf8Length front) ls trail) (written scope ls trail) := by
  induction ls generalizing front with
  | nil =>
    have hgap := slice?_append front trail []
    have hown := slice?_append (front ++ trail) [] []
    rw [List.append_nil] at hgap hown
    rw [utf8Length_append, List.append_nil] at hown
    have hpieces : Pieces scope (front ++ trail) (utf8Length front)
        (tokensFrom (utf8Length front) [] trail) (trail ++ [] ++ []) :=
      .kept hgap hown (by rintro _ ⟨⟩) .nil
    rw [List.append_nil, List.append_nil] at hpieces
    exact hpieces
  | cons l ls ih =>
    have htext : front ++ textOf (l :: ls) trail
        = front ++ l.gap ++ l.chars ++ textOf ls trail := by
      simp [textOf, Lexeme.chars]
    have hgap : slice? (front ++ textOf (l :: ls) trail) (utf8Length front)
        (utf8Length front + utf8Length l.gap) = some l.gap :=
      slice?_append front l.gap _
    have hown : slice? (front ++ textOf (l :: ls) trail) (utf8Length front + utf8Length l.gap)
        (utf8Length front + utf8Length l.gap + utf8Length l.chars) = some l.chars := by
      rw [htext, List.append_assoc (front ++ l.gap), ← utf8Length_append, slice?_append]
    have hrest := ih (front ++ l.gap ++ l.chars)
    rw [← htext, utf8Length_append, utf8Length_append] at hrest
    rw [written, ← List.append_assoc]
    cases hreplacement : l.replacement? scope ls with
    | none =>
      refine .kept hgap hown (fun replacement hreplaced => ?_) hrest
      rw [(Lexeme.replacement?_eq_some_iff _ _).2 hreplaced] at hreplacement
      cases hreplacement
    | some replacement =>
      exact .replaced hgap ((Lexeme.replacement?_eq_some_iff _ _).1 hreplacement) hrest

/-- The edits of the tokens of a text fit it. -/
theorem editsFit_editsOf (scope : Scope) (hcut : Cut convert none ls trail) :
    EditsFit (textOf ls trail) (editsOf scope (tokensFrom 0 ls trail)) := by
  have htiles := tiles_of_cut hcut
  refine ⟨pairwise_editsOf htiles.ordered, fun edit hedit => ?_⟩
  obtain ⟨as, token, bs, htokens, hspan, hreplaced⟩ := mem_editsOf_iff.1 hedit
  obtain ⟨before, inside, behind, hsplits, hspelled⟩ := htiles.spelled token (by simp [htokens])
  rw [hspan]
  obtain ⟨name, hname⟩ := hreplaced.exists_name
  rw [hname] at hspelled
  exact ⟨before, inside, behind, hspelled.1, hsplits⟩

end Rows

namespace Formula

variable {scope : Scope} {convert : Converter} {text : String} {f : Formula}

/-- The translation of a formula is made of the pieces of its tokens, and of nothing else.  The
edits behind it are the replacements of its tokens; they fit the text, so that no slice of it fails
when they are made. -/
theorem exists_pieces (h : parse scope convert text = .ok f) :
    ∃ tokens phrase, tokenize convert text.toList = .ok tokens ∧
      parseTokens scope tokens = .ok phrase ∧
      (∀ out, Pieces scope text.toList 0 tokens out ↔ out = f.translated.toList) ∧
      (∀ edit, edit ∈ phrase.edits ↔ ∃ before token after, tokens = before ++ token :: after ∧
        edit.span = token.span ∧ Replaced scope token after edit.replacement) ∧
      EditsFit text.toList phrase.edits ∧
      applyEdits? text.toList 0 phrase.edits = some f.translated.toList := by
  obtain ⟨tokens, phrase, htokens, hphrase, hf⟩ := exists_phrase_of_parse h
  have htranslated : f.translated.toList = applyEdits 0 text.toList phrase.edits := by
    rw [hf, String.toList_ofList]
  refine ⟨tokens, phrase, htokens, hphrase, ?_⟩
  obtain ⟨ls, trail, htext, hcut, rfl⟩ := tokenize_eq_ok_iff.1 htokens
  obtain ⟨-, -, hedits⟩ :=
    derives_of_parseTokens (kindsOf_tokensFrom 0 ls trail) (kind_ne_finish_of_cut hcut) hphrase
  rw [htext, hedits] at htranslated ⊢
  have hfit := editsFit_editsOf scope hcut
  have hpieces : Pieces scope (textOf ls trail) 0 (tokensFrom 0 ls trail) f.translated.toList := by
    rw [htranslated, applyEdits_editsOf]
    exact pieces_tokensFrom scope [] ls trail
  refine ⟨fun out => ⟨fun hout => hout.unique hpieces, ?_⟩, fun _ => mem_editsOf_iff, hfit, ?_⟩
  · rintro rfl
    exact hpieces
  · have happly : applyEdits? ([] ++ textOf ls trail) (utf8Length []) _ = _ :=
      hfit.applyEdits?_eq fun _ _ => Nat.zero_le _
    rw [htranslated]
    exact happly

/-- With `x` fixed at `-3` and `ä` shown as `Höhe`, `sin(ä)-x` is shown as `sin(Höhe)-(-3)`. -/
theorem exists_pieces_renamed :
    let scope := (((Scope.initial.declare "x" (-3)).markFixed "x").declare "ä" 2).rename "ä" "Höhe"
    ∃ tokens phrase, tokenize readLength? "sin(ä)-x".toList = .ok tokens ∧
      parseTokens scope tokens = .ok phrase ∧
      (∀ out, Pieces scope "sin(ä)-x".toList 0 tokens out ↔ out = "sin(Höhe)-(-3)".toList) ∧
      (∀ edit, edit ∈ phrase.edits ↔ ∃ before token after, tokens = before ++ token :: after ∧
        edit.span = token.span ∧ Replaced scope token after edit.replacement) ∧
      EditsFit "sin(ä)-x".toList phrase.edits ∧
      applyEdits? "sin(ä)-x".toList 0 phrase.edits = some "sin(Höhe)-(-3)".toList :=
  exists_pieces (f := ⟨.binary .sub (.call "sin" (.var "ä")) (.number (-3)), "sin(Höhe)-(-3)"⟩)
    (eq_ok_of_toOption (by decide +kernel))

end Formula

end LengthFormula
