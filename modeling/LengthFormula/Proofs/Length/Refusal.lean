import LengthFormula.Proofs.Length.Parts

/-!
# Lengths that are refused

Which texts behind a foot mark read as inches can be told from their parts: a fraction needs digits
in front of its bar and a denominator that is not zero (`readsInches_bar_iff`,
`readsInches_mixed_iff`).  So where a text with a fraction part is refused, it is refused as well
with a shorter fraction part and no mark (`readUnsignedLength?_inches_shorter`); without feet it is
refused anyway (`readUnsignedLength?_part`).
-/

namespace LengthFormula

/-! ## Fractions and decimals off the front -/

theorem isFractionBar_of_isNumberLead {c : Char} (h : isNumberLead c = true) :
    isFractionBar c = false :=
  beq_eq_false_iff_ne.2 (ne_of_class h rfl)

section Front

variable {cs n b lead x : List Char}

theorem takeFraction?_eq_none (h : startsWith isFractionBar (cs.dropWhile isDigit) = false) :
    takeFraction? cs = none := by
  unfold takeFraction?
  split
  · rfl
  · next bar ds hds =>
    rw [hds, startsWith_cons] at h
    simp [h]

/-- Digits and points are no numerator, unless all of them are digits and a bar stands behind. -/
theorem takeFraction?_eq_none_of_lead (hlead : ∀ c ∈ lead, isNumberLead c = true)
    (hx : (∀ c ∈ lead, isDigit c = true) →
      startsWith isFractionBar x = false ∧ startsWith isDigit x = false) :
    takeFraction? (lead ++ x) = none := by
  obtain ⟨n, rest, rfl, hn, hstop, -⟩ := exists_takeWhile isDigit lead
  refine takeFraction?_eq_none ?_
  cases rest with
  | nil =>
    rw [List.append_nil] at hx ⊢
    rw [dropWhile_append_exact hn (hx hn).2]
    exact (hx hn).1
  | cons c rest =>
    have hdrop : (n ++ (c :: rest ++ x)).dropWhile isDigit = c :: rest ++ x :=
      dropWhile_append_exact hn hstop
    rw [List.append_assoc, hdrop]
    exact isFractionBar_of_isNumberLead (hlead c (by simp))

/-- Nor is a decimal, with its power of ten. -/
theorem takeFraction?_eq_none_of_power {power : List Char}
    (hlead : ∀ c ∈ lead, isNumberLead c = true) (hpower : PowerText power)
    (hbar : startsWith isFractionBar x = false) (hx : startsWith isNumberLead x = false) :
    takeFraction? (lead ++ power ++ x) = none := by
  rw [List.append_assoc]
  refine takeFraction?_eq_none_of_lead hlead fun _ =>
    ⟨?_, startsWith_isDigit_of_isNumberLead (hpower.startsWith_append hx)⟩
  cases hpower with
  | none => exact hbar
  | unsigned hexp | signed hexp =>
    exact beq_eq_false_iff_ne.2 (ne_of_class hexp rfl)

theorem takeFraction?_append (hn : IsDigits n) (hb : ∀ c ∈ b, isDigit c = true)
    (hx : startsWith isDigit x = false) : takeFraction? (n ++ '/' :: (b ++ x)) =
      if Nat.ofDigitChars 10 b 0 = 0 then none
      else some (digitsDouble n / digitsDouble b, x) := by
  have htake : (n ++ '/' :: (b ++ x)).takeWhile isDigit = n := takeWhile_append_exact hn.2 rfl
  have hdrop : (n ++ '/' :: (b ++ x)).dropWhile isDigit = '/' :: (b ++ x) :=
    dropWhile_append_exact hn.2 rfl
  have hne : n.isEmpty = false := by simpa using hn.1
  unfold takeFraction?
  rw [hdrop, htake]
  simp only [takeWhile_append_exact hb hx, dropWhile_append_exact hb hx, hne, isFractionBar]
  by_cases hzero : Nat.ofDigitChars 10 b 0 = 0 <;> simp [hzero]

/-- A decimal is taken off in front of anything that continues it no further. -/
theorem DecimalText.takeDecimal?_append {y : Float} (h : DecimalText cs y)
    (hx : startsWith isNumberLead x = false) (hmark : startsWith isExponentMark x = false) :
    takeDecimal? (cs ++ x) = some (y, x) := by
  have hcut := h.decimalPart_append hx hmark
  cases h with
  | intro _ _ hread =>
    rw [takeDecimal?, scanDecimal, hcut, List.drop_left]
    simp only [hread, Option.map_some]

theorem DecimalText.of_lead {d : Decimal} (hlead : ∀ c ∈ lead, isNumberLead c = true)
    (hread : Decimal.read? lead = some d) : DecimalText lead (d.toDouble false) := by
  rw [← List.append_nil lead] at hread ⊢
  exact .intro hlead .none hread

/-- Digits and points with something behind them that goes on with no decimal. -/
theorem takeDecimal?_append {d : Decimal} (hlead : ∀ c ∈ lead, isNumberLead c = true)
    (hread : Decimal.read? lead = some d) (hx : startsWith isNumberLead x = false)
    (hmark : startsWith isExponentMark x = false) :
    takeDecimal? (lead ++ x) = some (d.toDouble false, x) :=
  (DecimalText.of_lead hlead hread).takeDecimal?_append hx hmark

end Front

/-! ## Inches by their parts -/

/-- The text is read as inches, with nothing or an inch mark left over. -/
def readsInches (cs : List Char) : Bool := (takeInches? cs).any fun r => closesInches r.2

/-- Behind the gap it is the inches that decide. -/
theorem readAfterFeet?_append {gap cs : List Char} (feet : Float) (hgap : IsGap gap)
    (hcs : cs ≠ []) (hspacer : startsWith isSpacer cs = false) :
    readAfterFeet? feet (gap ++ cs) = (takeInches? cs).bind fun r =>
      if closesInches r.2 then some (feet + r.1) else none := by
  obtain ⟨c, ds, hgapcs, hinches⟩ : ∃ c ds, gap ++ cs = c :: ds ∧
      (if isSpacer c = true then ds else c :: ds) = cs := by
    rcases hgap with rfl | ⟨c, hc, rfl⟩
    · obtain ⟨d, ds, rfl⟩ := List.exists_cons_of_ne_nil hcs
      exact ⟨d, ds, rfl, if_neg (Bool.eq_false_iff.1 hspacer)⟩
    · exact ⟨c, cs, rfl, if_pos hc⟩
  rw [hgapcs, readAfterFeet?, hinches]
  cases takeInches? cs with
  | none => rfl
  | some r => rfl

theorem isSome_readAfterFeet? {gap cs : List Char} (feet : Float) (hgap : IsGap gap)
    (hcs : cs ≠ []) (hspacer : startsWith isSpacer cs = false) :
    (readAfterFeet? feet (gap ++ cs)).isSome = readsInches cs := by
  rw [readAfterFeet?_append feet hgap hcs hspacer, readsInches]
  cases takeInches? cs with
  | none => rfl
  | some r => by_cases hrest : closesInches r.2 = true <;> simp [hrest]

section Inches

variable {lead a b x mark : List Char} {c : Char} {d : Decimal}

theorem IsInchMarks.closesInches_eq (h : IsInchMarks mark) : closesInches mark = true := by
  rcases h with rfl | rfl <;> rfl

theorem IsInchMarks.startsWith_isDigit (h : IsInchMarks mark) :
    startsWith isDigit mark = false := by
  rcases h with rfl | rfl <;> rfl

/-- Digits and points with a bar behind them are a fraction, or the bar is left over. -/
theorem readsInches_bar (hlead : ∀ c ∈ lead, isNumberLead c = true)
    (hread : Decimal.read? lead = some d) (hx : x ≠ []) :
    readsInches (lead ++ '/' :: x)
      = (takeFraction? (lead ++ '/' :: x)).any fun r => closesInches r.2 := by
  have hdecimal := takeDecimal?_append (x := '/' :: x) hlead hread rfl rfl
  obtain ⟨e, x, rfl⟩ := List.exists_cons_of_ne_nil hx
  rw [readsInches, takeInches?]
  cases takeFraction? (lead ++ '/' :: e :: x) with
  | some found => rfl
  | none =>
    rw [hdecimal]
    rfl

/-- Behind digits and points and a spacer there is a fraction, or the spacer is left over. -/
theorem readsInches_spacer (hlead : ∀ c ∈ lead, isNumberLead c = true)
    (hread : Decimal.read? lead = some d) (hc : isSpacer c = true) (hx : x ≠ []) :
    readsInches (lead ++ c :: x) = (takeFraction? x).any fun r => closesInches r.2 := by
  have hfraction : takeFraction? (lead ++ c :: x) = none :=
    takeFraction?_eq_none_of_lead hlead fun _ =>
      ⟨isFractionBar_of_isSpacer hc, isDigit_of_isNumberLead_eq_false (isNumberLead_of_isSpacer hc)⟩
  have hdecimal := takeDecimal?_append (x := c :: x) hlead hread (isNumberLead_of_isSpacer hc)
    (isExponentMark_of_isSpacer hc)
  obtain ⟨e, x, rfl⟩ := List.exists_cons_of_ne_nil hx
  rw [readsInches, takeInches?, hfraction, hdecimal]
  simp only [hc, if_true]
  cases takeFraction? (e :: x) with
  | some found => rfl
  | none => rfl

/-- A fraction of inches closes if its denominator is not zero. -/
theorem any_takeFraction?_iff (ha : IsDigits a) (hb : IsDigits b) (hmark : IsInchMarks mark) :
    ((takeFraction? (a ++ '/' :: (b ++ mark))).any fun r => closesInches r.2) = true ↔
      Nat.ofDigitChars 10 b 0 ≠ 0 := by
  rw [takeFraction?_append ha hb.2 hmark.startsWith_isDigit]
  by_cases hzero : Nat.ofDigitChars 10 b 0 = 0
  · simp [hzero]
  · simp [hzero, hmark.closesInches_eq]

/-- Inches with a bar behind digits and points are one fraction. -/
theorem readsInches_bar_iff (hlead : ∀ c ∈ lead, isNumberLead c = true)
    (hread : Decimal.read? lead = some d) (hb : IsDigits b) (hmark : IsInchMarks mark) :
    readsInches (lead ++ '/' :: (b ++ mark)) = true ↔
      (∀ c ∈ lead, isDigit c = true) ∧ Nat.ofDigitChars 10 b 0 ≠ 0 := by
  have hne : lead ≠ [] := by
    rintro rfl
    cases hread
  rw [readsInches_bar hlead hread (by simp [hb.1])]
  by_cases hdigits : ∀ c ∈ lead, isDigit c = true
  · rw [any_takeFraction?_iff ⟨hne, hdigits⟩ hb hmark, and_iff_right hdigits]
  · rw [takeFraction?_eq_none_of_lead hlead fun h => absurd h hdigits]
    simp [hdigits]

/-- A spacer and digits without a bar are no inches. -/
theorem readsInches_spacer_digits (hlead : ∀ c ∈ lead, isNumberLead c = true)
    (hread : Decimal.read? lead = some d) (hc : isSpacer c = true) (ha : IsDigits a) :
    readsInches (lead ++ c :: a) = false := by
  have hfraction : takeFraction? (a ++ []) = none :=
    takeFraction?_eq_none_of_lead (fun c hc => isNumberLead_of_isDigit (ha.2 c hc))
      fun _ => ⟨rfl, rfl⟩
  rw [List.append_nil] at hfraction
  rw [readsInches_spacer hlead hread hc ha.1, hfraction]
  rfl

theorem readsInches_mixed_iff (hlead : ∀ c ∈ lead, isNumberLead c = true)
    (hread : Decimal.read? lead = some d) (hc : isSpacer c = true) (ha : IsDigits a)
    (hb : IsDigits b) (hmark : IsInchMarks mark) :
    readsInches (lead ++ c :: (a ++ '/' :: (b ++ mark))) = true ↔ Nat.ofDigitChars 10 b 0 ≠ 0 := by
  rw [readsInches_spacer hlead hread hc (by simp), any_takeFraction?_iff ha hb hmark]

/-- Digits and points that read as inches read as a decimal. -/
theorem exists_read?_of_readsInches (hlead : ∀ c ∈ lead, isNumberLead c = true)
    (h : readsInches lead = true) : ∃ d, Decimal.read? lead = some d := by
  have hfraction : takeFraction? (lead ++ []) = none :=
    takeFraction?_eq_none_of_lead hlead fun _ => ⟨rfl, rfl⟩
  have hdecimal : decimalPart (lead ++ [] ++ []) = lead ++ [] :=
    decimalPart_append_exact hlead .none rfl rfl
  simp only [List.append_nil] at hfraction hdecimal
  cases hread : Decimal.read? lead with
  | some d => exact ⟨d, rfl⟩
  | none =>
    have hnone : takeDecimal? lead = none := by
      rw [takeDecimal?, scanDecimal, hdecimal]
      simp only [hread, Option.map_none]
    rw [readsInches, takeInches?, hfraction, hnone] at h
    cases h

end Inches

/-! ## Shorter fraction parts -/

section Shorter

variable {a b b' lead part part' mark : List Char} {bar bar' : Bool} {d : Decimal}

/-- Digits that are not all zero stay so with more digits behind them. -/
theorem ofDigitChars_ne_zero_of_isPrefix (h : b' <+: b) (hb : Nat.ofDigitChars 10 b' 0 ≠ 0) :
    Nat.ofDigitChars 10 b 0 ≠ 0 := by
  obtain ⟨more, rfl⟩ := h
  rw [Nat.ofDigitChars_append, Nat.ofDigitChars_eq_ofDigitChars_zero]
  have hpow : 0 < 10 ^ more.length := Nat.pow_pos (by decide)
  intro hzero
  exact Nat.mul_ne_zero (Nat.ne_of_gt hpow) hb (Nat.add_eq_zero_iff.1 hzero).1

/-- Digits up to a bar are the same in a prefix with a bar. -/
theorem isPrefix_of_digits_bar {n n' : List Char} (hn : ∀ c ∈ n, isDigit c = true)
    (hn' : ∀ c ∈ n', isDigit c = true) (h : n' ++ '/' :: b' <+: n ++ '/' :: b) : b' <+: b := by
  obtain ⟨rest, h⟩ := h
  rw [List.append_assoc, List.cons_append] at h
  have hdrop := congrArg (List.dropWhile isDigit) h
  rw [dropWhile_append_exact hn' rfl, dropWhile_append_exact hn rfl] at hdrop
  exact ⟨rest, (List.cons.inj hdrop).2⟩

/-- Inches with a shorter fraction part are inches only if they are with all of it. -/
theorem readsInches_of_isPrefix (hlead : ∀ c ∈ lead, isNumberLead c = true)
    (hread : Decimal.read? lead = some d) (hpart : PartText part bar) (hpart' : PartText part' bar')
    (hne : part' ≠ []) (hinit : part' <+: part) (hmark : IsInchMarks mark)
    (h : readsInches (lead ++ part') = true) : readsInches (lead ++ (part ++ mark)) = true := by
  have hnone : IsInchMarks [] := .inl rfl
  cases hpart' with
  | none => exact absurd rfl hne
  | @bar b' hb' =>
    rw [← List.append_nil b', readsInches_bar_iff hlead hread hb' hnone] at h
    cases hpart with
    | none => exact absurd (List.prefix_nil.1 hinit) hne
    | bar hb =>
      rw [List.cons_append, readsInches_bar_iff hlead hread hb hmark]
      exact ⟨h.1, ofDigitChars_ne_zero_of_isPrefix (List.cons_prefix_cons.1 hinit).2 h.2⟩
    | spacer hc | mixed hc =>
      rw [← (List.cons_prefix_cons.1 hinit).1] at hc
      cases hc
  | spacer hc ha =>
    rw [readsInches_spacer_digits hlead hread hc ha] at h
    cases h
  | @mixed c a' b' hc ha' hb' =>
    rw [← List.append_nil b', readsInches_mixed_iff hlead hread hc ha' hb' hnone] at h
    cases hpart with
    | none => exact absurd (List.prefix_nil.1 hinit) hne
    | bar =>
      rw [(List.cons_prefix_cons.1 hinit).1] at hc
      cases hc
    | @spacer _ a _ ha =>
      have hbar := (List.cons_prefix_cons.1 hinit).2.subset (a := '/') (by simp)
      exact absurd (ha.2 _ hbar) (by decide)
    | @mixed _ a b hc ha hb =>
      have hb' := isPrefix_of_digits_bar ha.2 ha'.2 (List.cons_prefix_cons.1 hinit).2
      rw [List.cons_append, List.append_assoc, List.cons_append,
        readsInches_mixed_iff hlead hread hc ha hb hmark]
      exact ofDigitChars_ne_zero_of_isPrefix hb' h

end Shorter

/-! ## Lengths by their parts -/

section Lengths

variable {a x cs part : List Char} {bar : Bool} {v : Float}

theorem inNumber_of_decimalPart (h : decimalPart (a ++ x) = a) : ∀ c ∈ a, inNumber c = true := by
  obtain ⟨lead, power, rfl, hlead, -, hpower⟩ := decimalPart_append_iff.1 h
  have htext : PowerText power := hpower ▸ powerText_powerPart _
  exact List.forall_mem_append.2
    ⟨fun c hc => inNumber_of_isNumberLead (hlead c hc), htext.inNumber⟩

/-- Behind a foot mark it is the text behind the mark that decides. -/
theorem readUnsignedLength?_foot (h : decimalPart (a ++ x) = a) (cs : List Char) :
    readUnsignedLength? (a ++ '\x27' :: cs) = (Decimal.read? a).bind fun d =>
      readAfterFeet? (LengthUnit.foot.toInches (d.toDouble false)) cs := by
  have hfraction : takeFraction? (a ++ '\x27' :: cs) = none := by
    obtain ⟨lead, power, rfl, hlead, -, hpower⟩ := decimalPart_append_iff.1 h
    exact takeFraction?_eq_none_of_power hlead (hpower ▸ powerText_powerPart _) rfl rfl
  have hdecimal := decimalPart_append_of_stop (y := '\x27' :: cs) h rfl rfl
  have htake : takeDecimal? (a ++ '\x27' :: cs)
      = (Decimal.read? a).map fun d => (d.toDouble false, '\x27' :: cs) := by
    rw [takeDecimal?, scanDecimal, hdecimal, List.drop_left]
  rw [readUnsignedLength?, hfraction, htake]
  cases Decimal.read? a with
  | none => rfl
  | some d => rfl

/-- Behind a foot mark inches are read if the feet are a decimal. -/
theorem isSome_readUnsignedLength?_inches {gap lead : List Char} (h : decimalPart (a ++ x) = a)
    (hgap : IsGap gap) (hne : lead ≠ []) (hlead : ∀ c ∈ lead, isNumberLead c = true)
    (t : List Char) :
    (readUnsignedLength? (a ++ '\x27' :: (gap ++ (lead ++ t)))).isSome
      = ((Decimal.read? a).isSome && readsInches (lead ++ t)) := by
  have hspacer : startsWith isSpacer (lead ++ t) = false := by
    obtain ⟨c, lead, rfl⟩ := List.exists_cons_of_ne_nil hne
    exact isSpacer_of_isNumberLead (hlead c List.mem_cons_self)
  rw [readUnsignedLength?_foot h]
  cases Decimal.read? a with
  | none => rfl
  | some d =>
    rw [Option.bind_some, Option.isSome_some, Bool.true_and]
    exact isSome_readAfterFeet? _ hgap (List.append_ne_nil_of_left_ne_nil hne t) hspacer

/-- Feet and inches that are read alone and refused with a fraction part are refused with a shorter
one. -/
theorem readUnsignedLength?_inches_shorter {gap lead part' mark : List Char} {bar' : Bool}
    (h : decimalPart (a ++ x) = a) (hgap : IsGap gap) (hne : lead ≠ [])
    (hlead : ∀ c ∈ lead, isNumberLead c = true)
    (hshort : readUnsignedLength? (a ++ '\x27' :: (gap ++ lead)) = some v)
    (hpart : PartText part bar) (hmark : IsInchMarks mark)
    (hrefused : readUnsignedLength? (a ++ '\x27' :: (gap ++ (lead ++ (part ++ mark)))) = none)
    (hpart' : PartText part' bar') (hne' : part' ≠ []) (hinit : part' <+: part) :
    readUnsignedLength? (a ++ '\x27' :: (gap ++ (lead ++ part'))) = none := by
  have hreads := isSome_readUnsignedLength?_inches h hgap hne hlead
  have hfeet := hreads []
  rw [List.append_nil, hshort, Option.isSome_some, eq_comm, Bool.and_eq_true] at hfeet
  obtain ⟨d, hd⟩ := exists_read?_of_readsInches hlead hfeet.2
  have hwhole := hreads (part ++ mark)
  rw [hrefused, hfeet.1, Bool.true_and, Option.isSome_none] at hwhole
  have hshorter : readsInches (lead ++ part') = false := by
    rw [Bool.eq_false_iff]
    intro hinches
    rw [readsInches_of_isPrefix hlead hd hpart hpart' hne' hinit hmark hinches] at hwhole
    cases hwhole
  rw [← Option.isNone_iff_eq_none, ← Option.not_isSome, hreads, hshorter, Bool.and_false]
  rfl

/-- A length without marks is a decimal. -/
theorem LengthText.decimalText (h : LengthText cs v) (hfoot : '\x27' ∉ cs) (hinch : '\x22' ∉ cs) :
    DecimalText cs v := by
  cases h with
  | decimal hcs => exact hcs
  | fraction | marked => exact absurd (by simp) hinch
  | feet | feetInches => exact absurd (by simp) hfoot
  | mixed => exact absurd (by simp) hinch

theorem PartText.unmarked (h : PartText part bar) :
    ∀ c ∈ part, isFootMark c = false ∧ isInchMark c = false := by
  have hdigits : ∀ {b : List Char}, IsDigits b →
      ∀ c ∈ b, isFootMark c = false ∧ isInchMark c = false :=
    fun hb c hc => ⟨beq_eq_false_iff_ne.2 (ne_of_class (hb.2 c hc) rfl),
      beq_eq_false_iff_ne.2 (ne_of_class (hb.2 c hc) rfl)⟩
  have hspacer : ∀ {c : Char}, isSpacer c = true → isFootMark c = false ∧ isInchMark c = false :=
    fun hc => ⟨of_isSpacer hc rfl rfl, of_isSpacer hc rfl rfl⟩
  cases h with
  | none => simp
  | bar hb => exact List.forall_mem_cons.2 ⟨⟨rfl, rfl⟩, hdigits hb⟩
  | spacer hc ha => exact List.forall_mem_cons.2 ⟨hspacer hc, hdigits ha⟩
  | mixed hc ha hb =>
    exact List.forall_mem_cons.2 ⟨hspacer hc, List.forall_mem_append.2
      ⟨hdigits ha, List.forall_mem_cons.2 ⟨⟨rfl, rfl⟩, hdigits hb⟩⟩⟩

/-- A fraction part goes on with no decimal. -/
theorem PartText.stops (h : PartText part bar) :
    startsWith isNumberLead part = false ∧ startsWith isExponentMark part = false := by
  cases h with
  | none | bar => exact ⟨rfl, rfl⟩
  | spacer hc | mixed hc => exact ⟨isNumberLead_of_isSpacer hc, isExponentMark_of_isSpacer hc⟩

/-- A fraction part without feet is no length without a mark. -/
theorem readUnsignedLength?_part (h : decimalPart (a ++ x) = a) (hpart : PartText part bar)
    (hne : part ≠ []) : readUnsignedLength? (a ++ part) = none := by
  cases hread : readUnsignedLength? (a ++ part) with
  | none => rfl
  | some v =>
    have ha := inNumber_of_decimalPart h
    have hunmarked : ∀ {c : Char}, inNumber c = false → c ∉ part → c ∉ a ++ part := by
      intro c hc hpart hmem
      rcases List.mem_append.1 hmem with hmem | hmem
      · rw [ha c hmem] at hc
        cases hc
      · exact hpart hmem
    have htext := (lengthText_of_readUnsignedLength? hread).decimalText
      (hunmarked rfl fun hmem => absurd (hpart.unmarked _ hmem).1 (by decide))
      (hunmarked rfl fun hmem => absurd (hpart.unmarked _ hmem).2 (by decide))
    have hall : decimalPart (a ++ part ++ []) = a ++ part := htext.decimalPart_append rfl rfl
    rw [List.append_nil, decimalPart_append_of_stop h hpart.stops.1 hpart.stops.2] at hall
    exact absurd (List.self_eq_append_right.1 hall) hne

/-- Behind a bare foot mark no bar opens inches. -/
theorem readAfterFeet?_bar (feet : Float) (cs : List Char) :
    readAfterFeet? feet ('/' :: cs) = none := by
  have hfraction : takeFraction? ('/' :: cs) = none := by
    simp [takeFraction?, show isDigit '/' = false from rfl]
  have hinches : takeInches? ('/' :: cs) = none := by
    rw [takeInches?, hfraction]
    rfl
  simp [readAfterFeet?, show isSpacer '/' = false from rfl, hinches]

end Lengths

end LengthFormula
