import LengthFormula.Proofs.Token.Tiling

/-!
# What a number token means

A number token covers an optional sign and a body, and its value is what the converter says of just
that body (`Means`, `tokenize_number`).  A fraction of feet is the one exception: the converter is
asked for the same text in inches.  Where the converter refuses the longest text that may be one
length, the token ends in front of the separator of its fraction part (`NumeralText`).
-/

namespace LengthFormula

/-! ## What the converter says of a text -/

/-- A fraction of feet: in front of its only foot mark stand a bar and digits.  With an inch mark in
place of the foot mark it is the text `inches`. -/
def FeetFraction (body inches : List Char) : Prop :=
  ∃ a b, body = a ++ '/' :: (b ++ ['\x27']) ∧ inches = a ++ '/' :: (b ++ ['\x22']) ∧
    (∀ c ∈ a, isFootMark c = false) ∧ IsDigits b

/-- What the converter says of a text: its value, and for a fraction of feet twelve times the value
of that many inches. -/
inductive Means (convert : Converter) (body : List Char) : Float → Prop
  | plain {y : Float} :
      (∀ inches, ¬ FeetFraction body inches) → convert body = some y → Means convert body y
  | feet {inches : List Char} {y : Float} :
      FeetFraction body inches → convert inches = some y → Means convert body (y * 12)

/-- A sign and the white space behind it, or nothing. -/
inductive SignText : List Char → Prop
  | none : SignText []
  | sign {c : Char} {gap : List Char} :
      isSign c = true → (∀ d ∈ gap, isBlank d = true) → SignText (c :: gap)

/-- The converter refuses the whole literal, and what is taken of it, a decimal and perhaps feet,
ends in front of the separator that opens its fraction part. -/
def Literal.Retreats (l : Literal) (convert : Converter) (body : List Char) : Prop :=
  (∀ y, ¬ Means convert l.whole y) ∧ body = l.lead ++ l.feet ∧
    ∃ c cs, l.part = c :: cs ∧ (isSpacer c = true ∨ isFractionBar c = true)

/-- In front of the text `behind` the number `x` is written as a sign and a body.  The body is the
longest literal there, or as much of it as is left when the converter refuses that. -/
structure NumeralText (convert : Converter) (sign body behind : List Char) (x : Float) : Prop where
  signText : SignText sign
  opens : startsWith isNumberLead body = true
  value : ∃ y, Means convert body y ∧ x = if startsWith isMinus sign then -y else y
  stops : ∃ (l : Literal) (bar : Bool) (rest : List Char), body ++ behind = l.whole ++ rest ∧
    l.CutOff bar rest ∧ (body = l.whole ∨ l.Retreats convert body)

/-! ## Fractions of feet among the literals -/

section Literals

variable {a b x : List Char}

/-- A text without foot marks is what stands in front of the first foot mark. -/
theorem eq_of_append_footMark {y : List Char} (ha : ∀ c ∈ a, isFootMark c = false)
    (hb : ∀ c ∈ b, isFootMark c = false) (h : a ++ '\x27' :: x = b ++ '\x27' :: y) : a = b := by
  have htake : ∀ {a x : List Char}, (∀ c ∈ a, isFootMark c = false) →
      (a ++ '\x27' :: x).takeWhile (fun c => !isFootMark c) = a :=
    fun ha => takeWhile_append_exact (fun c hc => by simp [ha c hc]) rfl
  rw [← htake ha, h, htake hb]

/-- The foot mark of a fraction of feet is its last character, and the only one. -/
theorem FeetFraction.exists_front {body inches : List Char} (h : FeetFraction body inches) :
    ∃ front, body = front ++ ['\x27'] ∧ inches = front ++ ['\x22'] ∧ '/' ∈ front ∧
      ∀ c ∈ front, isFootMark c = false := by
  obtain ⟨a, b, rfl, rfl, ha, hb⟩ := h
  refine ⟨a ++ '/' :: b, by simp, by simp, by simp, ?_⟩
  refine List.forall_mem_append.2 ⟨ha, List.forall_mem_cons.2 ⟨rfl, fun c hc => ?_⟩⟩
  exact isFootMark_of_inNumber (inNumber_of_isDigit (hb.2 c hc))

/-- No decimal holds a bar. -/
theorem isFractionBar_of_decimalPart (h : decimalPart (a ++ x) = a) :
    ∀ c ∈ a, isFractionBar c = false := by
  obtain ⟨lead, power, rfl, hlead, -, hpower⟩ := decimalPart_append_iff.1 h
  have htext : PowerText power := hpower ▸ powerText_powerPart _
  have hdigits : ∀ {ds : List Char}, IsDigits ds → ∀ c ∈ ds, isFractionBar c = false :=
    fun hds c hc => isFractionBar_of_isNumberLead (isNumberLead_of_isDigit (hds.2 c hc))
  have hother : ∀ {p : Char → Bool} {c : Char}, p '/' = false → p c = true →
      isFractionBar c = false :=
    fun hbar hc => beq_eq_false_iff_ne.2 (ne_of_class hc hbar)
  refine List.forall_mem_append.2 ⟨fun c hc => isFractionBar_of_isNumberLead (hlead c hc), ?_⟩
  cases htext with
  | none => simp
  | unsigned hmark hds => exact List.forall_mem_cons.2 ⟨hother rfl hmark, hdigits hds⟩
  | signed hmark hsign hds =>
    exact List.forall_mem_cons.2 ⟨hother rfl hmark,
      List.forall_mem_cons.2 ⟨hother rfl hsign, hdigits hds⟩⟩

end Literals

namespace Literal

variable {convert : Converter} {l : Literal} {bar : Bool} {x inches : List Char} {y : Float}

theorem CutOff.isFootMark_lead (h : l.CutOff bar x) : ∀ c ∈ l.lead, isFootMark c = false :=
  fun c hc => isFootMark_of_inNumber (inNumber_of_decimalPart h.decimalPart_eq c hc)

/-- No decimal with feet behind it is a fraction of feet. -/
theorem CutOff.not_feetFraction (h : l.CutOff bar x) (hne : l.feet ≠ []) (more : List Char) :
    ¬ FeetFraction (l.lead ++ l.feet ++ more) inches := by
  intro hfraction
  obtain ⟨front, hbody, -, hmem, hfront⟩ := hfraction.exists_front
  obtain ⟨c, cs, hcons⟩ := List.exists_cons_of_ne_nil hne
  have hc : c = '\x27' := by
    have hmark := h.feetText.startsWith_isFootMark (x := []) hne
    rw [List.append_nil, hcons, startsWith_cons, isFootMark, beq_iff_eq] at hmark
    exact hmark
  rw [hcons, hc, List.append_assoc, List.cons_append] at hbody
  rw [← eq_of_append_footMark h.isFootMark_lead hfront hbody] at hmem
  exact absurd (isFractionBar_of_decimalPart h.decimalPart_eq _ hmem) (by decide)

/-- Nor is a decimal. -/
theorem CutOff.not_feetFraction_shorter (h : l.CutOff bar x) :
    ¬ FeetFraction (l.lead ++ l.feet) inches := by
  by_cases hne : l.feet = []
  · intro hfraction
    obtain ⟨front, hbody, -⟩ := hfraction.exists_front
    rw [hne, List.append_nil] at hbody
    exact absurd (h.isFootMark_lead '\x27' (by simp [hbody])) (by decide)
  · rw [← List.append_nil (l.lead ++ l.feet)]
    exact h.not_feetFraction hne []

theorem CutOff.mark_cases (h : l.CutOff bar x) : l.mark = [] ∨ ∃ c, l.mark = [c] := by
  have hlength := length_mark_le_one h
  cases hmark : l.mark with
  | nil => exact .inl rfl
  | cons c cs =>
    rw [hmark, List.length_cons] at hlength
    obtain rfl : cs = [] := List.eq_nil_of_length_eq_zero (by omega)
    exact .inr ⟨c, rfl⟩

theorem CutOff.isFractionOfFeet_iff (h : l.CutOff bar x) :
    l.isFractionOfFeet = true ↔ l.mark = ['\x27'] := by
  rw [isFractionOfFeet]
  rcases h.mark_cases with hmark | ⟨c, hmark⟩
  · simp [hmark]
  · simp [hmark, isFootMark]

/-- A foot mark closes a literal only behind a bar and without feet in front. -/
theorem CutOff.feetFraction_of_mark (h : l.CutOff bar x) (hmark : l.mark = ['\x27']) :
    FeetFraction l.whole (l.lead ++ l.feet ++ l.part ++ ['\x22']) := by
  have hallowed : bar = true ∧ l.feet = [] := by
    have heq := h.markPart_eq
    rw [hmark, markPart] at heq
    split at heq
    · next hsome => simpa [isInchMark, isFootMark] using hsome
    · cases heq
  obtain ⟨rfl, hfeet⟩ := hallowed
  have hlead := h.isFootMark_lead
  have hpart := h.partText
  rw [whole, hmark, hfeet, List.append_nil]
  cases hl : l.part with
  | nil =>
    rw [hl] at hpart
    cases hpart
  | cons c part =>
    rw [hl] at hpart
    cases hpart with
    | bar hb => exact ⟨l.lead, part, by simp, by simp, hlead, hb⟩
    | @mixed _ a b hc ha hb =>
      refine ⟨l.lead ++ c :: a, b, by simp, by simp, ?_, hb⟩
      refine List.forall_mem_append.2 ⟨hlead, List.forall_mem_cons.2 ⟨?_, fun d hd => ?_⟩⟩
      · exact isFootMark_of_isSpacer hc
      · exact isFootMark_of_inNumber (inNumber_of_isDigit (ha.2 d hd))

/-- The literals with a foot mark behind a bar are the fractions of feet. -/
theorem CutOff.feetFraction_iff (h : l.CutOff bar x) :
    FeetFraction l.whole inches ↔
      l.isFractionOfFeet = true ∧ inches = l.lead ++ l.feet ++ l.part ++ ['\x22'] := by
  rw [h.isFractionOfFeet_iff]
  refine ⟨fun hfraction => ?_, ?_⟩
  · have hfeet : l.feet = [] := by
      by_cases hne : l.feet = []
      · exact hne
      · rw [whole, List.append_assoc] at hfraction
        exact absurd hfraction (h.not_feetFraction hne _)
    have hunmarked : ∀ c ∈ l.lead ++ l.feet ++ l.part, isFootMark c = false := by
      rw [hfeet, List.append_nil]
      exact List.forall_mem_append.2 ⟨h.isFootMark_lead, fun c hc => (h.partText.unmarked c hc).1⟩
    obtain ⟨front, hbody, rfl, -, -⟩ := hfraction.exists_front
    rcases h.mark_cases with hmark | ⟨c, hmark⟩
    · rw [whole, hmark, List.append_nil] at hbody
      exact absurd (hunmarked '\x27' (by simp [hbody])) (by decide)
    · rw [whole, hmark] at hbody
      obtain ⟨rfl, hc⟩ := List.append_inj' hbody rfl
      exact ⟨hmark.trans hc, rfl⟩
  · rintro ⟨hmark, rfl⟩
    exact h.feetFraction_of_mark hmark

/-- The value of the whole literal is what the converter says of it. -/
theorem CutOff.means_whole_iff (h : l.CutOff bar x) :
    Means convert l.whole y ↔ l.wholeValue? convert = some y := by
  rw [wholeValue?]
  by_cases hfeet : l.isFractionOfFeet = true
  · rw [if_pos hfeet, Option.map_eq_some_iff]
    constructor
    · rintro (⟨hnot, -⟩ | ⟨hfraction, hvalue⟩)
      · exact absurd (h.feetFraction_iff.2 ⟨hfeet, rfl⟩) (hnot _)
      · obtain ⟨-, rfl⟩ := h.feetFraction_iff.1 hfraction
        exact ⟨_, hvalue, rfl⟩
    · rintro ⟨z, hvalue, rfl⟩
      exact .feet (h.feetFraction_iff.2 ⟨hfeet, rfl⟩) hvalue
  · rw [if_neg hfeet]
    have hnot : ∀ inches, ¬ FeetFraction l.whole inches :=
      fun _ hfraction => hfeet (h.feetFraction_iff.1 hfraction).1
    refine ⟨?_, .plain hnot⟩
    rintro (⟨-, hvalue⟩ | ⟨hfraction, -⟩)
    · exact hvalue
    · exact absurd hfraction (hnot _)

/-- What is read of a literal means its value.  It is all of the literal, or what is left of it when
the converter refuses that. -/
theorem CutOff.means_of_read (h : l.CutOff bar x) {body behind : List Char}
    (htext : l.whole ++ x = body ++ behind) (hfoot : startsWith isFootMark behind = false)
    (hread : l.read convert = (body, some y)) :
    Means convert body y ∧ (body = l.whole ∨ l.Retreats convert body) := by
  cases hwhole : l.wholeValue? convert with
  | some z =>
    rw [read, hwhole] at hread
    obtain ⟨rfl, hz⟩ := Prod.mk.inj hread
    exact ⟨h.means_whole_iff.2 (hz ▸ hwhole), .inl rfl⟩
  | none =>
    cases hpart : l.part with
    | nil =>
      -- the foot mark is left over, and no token opens with it
      obtain ⟨rfl, hfeet⟩ := read_of_no_part hwhole hpart hread
      rw [whole_append, List.append_cancel_left_eq] at htext
      rw [← htext, h.feetText.startsWith_isFootMark hfeet] at hfoot
      cases hfoot
    | cons c cs =>
      rw [read_of_refused hwhole (by simp [hpart])] at hread
      obtain ⟨rfl, hvalue⟩ := Prod.mk.inj hread
      have hrefused : ∀ z, ¬ Means convert l.whole z := by
        intro z hmeans
        rw [h.means_whole_iff.1 hmeans] at hwhole
        cases hwhole
      have hc : isSpacer c = true ∨ isFractionBar c = true := by
        have hseparator := h.partText
        rw [hpart] at hseparator
        cases hseparator with
        | bar => exact .inr rfl
        | spacer hc | mixed hc => exact .inl hc
      exact ⟨.plain (fun _ => h.not_feetFraction_shorter) hvalue,
        .inr ⟨hrefused, rfl, c, cs, hpart, hc⟩⟩

end Literal

/-! ## Number tokens -/

section Tokens

variable {convert : Converter} {previous : Option TokenKind} {behind : List Char}

theorem signText_signPart (cs : List Char) : SignText (signPart cs) := by
  cases cs with
  | nil => exact .none
  | cons c cs =>
    by_cases hc : isSign c = true
    · rw [signPart_of_isSign hc]
      exact .sign hc fun d hd => List.all_eq_true.1 List.all_takeWhile d hd
    · rw [signPart, startsWith_cons, if_neg hc]
      exact .none

/-- A sign belongs to a number literal only where one is admitted. -/
theorem admitsSign_of_signPart {cs : List Char} (hat : atNumber previous cs = true)
    (hsign : signPart cs ≠ []) : admitsSign previous = true := by
  cases cs with
  | nil => cases hat
  | cons c cs =>
    rw [atNumber, startsWith_cons] at hat
    split at hat
    · next hlead => exact absurd (signPart_of_isNumberLead hlead) hsign
    · simp only [Bool.and_eq_true] at hat
      exact hat.1.2

/-- The last kind of a row is that of its last token. -/
theorem lastKind_eq (position : Nat) (ls : List Lexeme) :
    lastKind previous ls = ((placed position ls).getLast?.map Token.kind).or previous := by
  induction ls generalizing previous position with
  | nil => rfl
  | cons l ls ih =>
    rw [lastKind, ih, placed, List.getLast?_cons]
    cases (placed (position + utf8Length l.gap + utf8Length l.chars) ls).getLast? <;> rfl

theorem eq_of_admitsSign {kind : TokenKind} (h : admitsSign (some kind) = true) :
    kind = .leftParen ∨ kind = .comma := by
  cases kind <;> first | exact .inl rfl | exact .inr rfl | cases h

/-- What a number literal takes writes its value. -/
theorem exists_numeralText {x : Float} {taken : List Char}
    (hat : atNumber previous (taken ++ behind) = true)
    (h : scanNumber convert (taken ++ behind) = .ok (.number x, taken))
    (hfoot : startsWith isFootMark behind = false) :
    ∃ sign body, taken = sign ++ body ∧ NumeralText convert sign body behind x ∧
      (sign ≠ [] → admitsSign previous = true) := by
  have hlead := startsWith_drop_signPart hat
  obtain ⟨body, y, hread, htaken, hx⟩ := scanNumber_eq_ok_iff.1 h
  have hsignText := signText_signPart (taken ++ behind)
  have hadmits := admitsSign_of_signPart hat
  obtain ⟨sign, hsign⟩ : ∃ sign, signPart (taken ++ behind) = sign := ⟨_, rfl⟩
  rw [hsign] at hread htaken hx hlead hsignText hadmits
  subst htaken
  rw [List.append_assoc, List.drop_left] at hread hlead
  have hopens := Literal.startsWith_of_read hlead hread
  obtain ⟨l, bar, rest, htext, hcut⟩ := Literal.exists_cutOff (body ++ behind)
  rw [htext, hcut.scan_eq] at hread
  obtain ⟨hmeans, hstops⟩ := hcut.means_of_read htext.symm hfoot hread
  refine ⟨sign, body, rfl, ⟨hsignText, hopens, ⟨y, hmeans, ?_⟩, ?_⟩, hadmits⟩
  · exact TokenKind.number.inj hx
  · exact ⟨l, bar, rest, htext, hcut, hstops⟩

/-- A number token of a text covers an optional sign and a body, and its value is what the converter
says of the body, negated behind a minus.  It has a sign only if it is the first token or follows
`(` or `,`. -/
theorem tokenize_number {text : List Char} {tokens before after : List Token} {x : Float}
    {span : Span} (h : tokenize convert text = .ok tokens)
    (htokens : tokens = before ++ ⟨.number x, span⟩ :: after) :
    ∃ front sign body behind, span.Splits text front (sign ++ body) behind ∧
      NumeralText convert sign body behind x ∧
      (sign ≠ [] → ∀ token ∈ before.getLast?, token.kind = .leftParen ∨ token.kind = .comma) := by
  obtain ⟨ls, trail, rfl, hcut, rfl⟩ := tokenize_eq_ok_iff.1 h
  obtain ⟨as, l, bs, rfl, rfl, hkind, -, hsplits⟩ := exists_lexeme_of_tokens htokens (by simp)
  have hstands := stands_of_cut hcut
  rw [Lexeme.Stands] at hstands
  simp only [← hkind] at hstands
  have hbehind : startsWith isFootMark (textOf bs trail) = false :=
    startsWith_isFootMark_textOf (cut_cons_iff.1 (cut_behind hcut)).2.2.2
  obtain ⟨sign, body, hchars, hnumeral, hadmits⟩ := exists_numeralText hstands.1 hstands.2 hbehind
  rw [hchars] at hsplits
  refine ⟨_, sign, body, _, hsplits, hnumeral, fun hsign token htoken => ?_⟩
  have hlast := hadmits hsign
  rw [lastKind_eq 0, Option.mem_def.1 htoken] at hlast
  exact eq_of_admitsSign hlast

/-- In `- 5'6-7` the converter refuses `5'6-7`, and the first token is the number `- 5'6`. -/
theorem tokenize_number_retreat :
    ∃ front sign body behind,
      Span.Splits ⟨0, 5⟩ "- 5'6-7".toList front (sign ++ body) behind ∧
      NumeralText readLength? sign body behind (-66) ∧
      (sign ≠ [] → ∀ token ∈ ([] : List Token).getLast?,
        token.kind = .leftParen ∨ token.kind = .comma) := by
  have htokens : tokenize readLength? "- 5'6-7".toList = .ok ([] ++ ⟨.number (-66), ⟨0, 5⟩⟩ ::
      [⟨.minus, ⟨5, 6⟩⟩, ⟨.number 7, ⟨6, 7⟩⟩, ⟨.finish, ⟨7, 7⟩⟩]) :=
    eq_ok_of_toOption (by decide +kernel)
  exact tokenize_number htokens rfl

end Tokens

end LengthFormula
