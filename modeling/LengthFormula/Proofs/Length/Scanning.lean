import LengthFormula.Proofs.Length.Cutting

/-!
# Lengths as literals

The scanner of literals and the reader of lengths are two programs.  What is read as a length the
scanner takes as a whole, unless the inches behind the foot mark have a power of ten, or open with a
point behind a spacer (`LengthText.takesAll_or`): behind a foot mark the scanner looks for digits
and points only, and for a spacer only in front of a digit.
-/

namespace LengthFormula

/-! ## The inches behind a foot mark -/

/-- The text behind the first foot mark. -/
def behindFoot (cs : List Char) : List Char := (cs.dropWhile fun c => !isFootMark c).tail

/-- Behind the foot mark there is no power of ten, and no spacer right in front of a point. -/
def plainInches (cs : List Char) : Bool :=
  (behindFoot cs).all (fun c => !isExponentMark c) &&
    !(startsWith isSpacer (behindFoot cs) && startsWith isDot (behindFoot cs).tail)

theorem behindFoot_append {a : List Char} (h : ∀ c ∈ a, isFootMark c = false) (rest : List Char) :
    behindFoot (a ++ rest) = behindFoot rest := by
  rw [behindFoot, List.dropWhile_append_of_pos fun c hc => by rw [h c hc]; rfl, behindFoot]

theorem plainInches_of_behindFoot {cs : List Char} (h : behindFoot cs = []) :
    plainInches cs = true := by
  rw [plainInches, h]
  rfl

/-! ## Scanning whole lengths -/

namespace Literal

/-- The parts that are cut off one after the other. -/
theorem scan_eq {a rest feet part : List Char} {bar : Bool} (ha : decimalPart (a ++ rest) = a)
    (hfeet : feetPart rest = feet) (hpart : fractionPart (rest.drop feet.length) = (part, bar)) :
    scan (a ++ rest) = ⟨a, feet, part,
      markPart (bar && feet.isEmpty) ((rest.drop feet.length).drop part.length)⟩ := by
  simp only [scan, ha, List.drop_left, hfeet, hpart]

/-- The literal takes the whole text, and what it takes is no fraction of feet. -/
structure TakesAll (cs : List Char) : Prop where
  whole_eq : (scan cs).whole = cs
  not_fractionOfFeet : (scan cs).isFractionOfFeet = false

/-- All parts together are the text, with nothing or an inch mark at the end. -/
theorem takesAll_of_parts {a feet part mark : List Char} {bar : Bool}
    (ha : decimalPart (a ++ (feet ++ (part ++ mark))) = a)
    (hfeet : feetPart (feet ++ (part ++ mark)) = feet)
    (hpart : fractionPart (part ++ mark) = (part, bar)) (hmark : IsInchMarks mark) :
    TakesAll (a ++ (feet ++ (part ++ mark))) := by
  have hdrop : fractionPart ((feet ++ (part ++ mark)).drop feet.length) = (part, bar) := by
    rw [List.drop_left]
    exact hpart
  have hscan := scan_eq ha hfeet hdrop
  have hmarks : markPart (bar && feet.isEmpty) mark = mark ∧
      startsWith isFootMark mark = false := by
    rcases hmark with rfl | rfl
    · simp [markPart]
    · exact ⟨rfl, rfl⟩
  rw [List.drop_left, List.drop_left, hmarks.1] at hscan
  constructor
  · rw [hscan, whole]
    simp only [List.append_assoc]
  · rw [hscan, isFractionOfFeet]
    exact hmarks.2

end Literal

theorem feetPart_eq_nil {cs : List Char} (h : startsWith isFootMark cs = false) :
    feetPart cs = [] := by
  cases cs with
  | nil => rfl
  | cons c cs =>
    rw [startsWith_cons] at h
    rw [feetPart, if_neg (Bool.eq_false_iff.1 h)]

/-! ## Inches in parts -/

/-- The inches `b` are digits and points `lead` and `more` behind them: a power of ten opens there,
or all of it is a fraction part. -/
structure InchesParts (b lead more : List Char) : Prop where
  append_eq : b = lead ++ more
  ne_nil : lead ≠ []
  isNumberLead : ∀ c ∈ lead, isNumberLead c = true
  stops : startsWith LengthFormula.isNumberLead more = false
  power_or_part : startsWith isExponentMark more = true ∨
    (∀ c ∈ more, isExponentMark c = false) ∧
      ∀ mark, IsInchMarks mark → ∃ bar, fractionPart (more ++ mark) = (more, bar)

theorem isExponentMark_of_isDigit {c : Char} (h : isDigit c = true) : isExponentMark c = false :=
  isExponentMark_of_isNumberLead (isNumberLead_of_isDigit h)

theorem startsWith_isDigit_of_isInchMarks {mark : List Char} (h : IsInchMarks mark) :
    startsWith isDigit mark = false := by
  rcases h with rfl | rfl <;> rfl

theorem FractionText.isExponentMark {b : List Char} {y : Float} (h : FractionText b y) :
    ∀ c ∈ b, isExponentMark c = false := by
  cases h with
  | intro ha hb _ =>
    refine List.forall_mem_append.2 ⟨fun c hc => isExponentMark_of_isDigit (ha.2 c hc), ?_⟩
    exact List.forall_mem_cons.2 ⟨rfl, fun c hc => isExponentMark_of_isDigit (hb.2 c hc)⟩

/-- A decimal is digits and points, and perhaps a power of ten. -/
theorem DecimalText.exists_lead {a : List Char} {x : Float} (h : DecimalText a x) :
    ∃ lead power, a = lead ++ power ∧ lead ≠ [] ∧ (∀ c ∈ lead, isNumberLead c = true) ∧
      (power = [] ∨ startsWith LengthFormula.isExponentMark power = true) := by
  have hopens := h.opensNumber
  cases h with
  | @intro lead power _ hlead hpower _ =>
    have hmark : power = [] ∨ startsWith LengthFormula.isExponentMark power = true := by
      cases hpower with
      | none => exact .inl rfl
      | unsigned hexp | signed hexp => exact .inr hexp
    refine ⟨lead, power, rfl, ?_, hlead, hmark⟩
    rintro rfl
    rcases hmark with rfl | hmark
    · cases hopens
    · cases power with
      | nil => cases hmark
      | cons c power =>
        have hc := isExponentMark_of_isNumberLead (isNumberLead_of_opensNumber hopens)
        rw [startsWith_cons, hc] at hmark
        cases hmark

theorem startsWith_append_right {p : Char → Bool} {a : List Char} (h : startsWith p a = true)
    (rest : List Char) : startsWith p (a ++ rest) = true := by
  cases a with
  | nil => cases h
  | cons c a => exact h

theorem startsWith_isNumberLead_of_isExponentMark {cs : List Char}
    (h : startsWith isExponentMark cs = true) : startsWith isNumberLead cs = false := by
  cases cs with
  | nil => cases h
  | cons c cs =>
    rw [startsWith_cons] at h ⊢
    rw [Bool.eq_false_iff]
    intro hlead
    rw [isExponentMark_of_isNumberLead hlead] at h
    cases h

theorem InchesText.exists_parts {b : List Char} {y : Float} (h : InchesText b y) :
    ∃ lead more, InchesParts b lead more := by
  cases h with
  | fraction hb =>
    have hexp := hb.isExponentMark
    cases hb with
    | @intro n m hn hm _ =>
      refine ⟨n, '/' :: m, rfl, hn.1, fun c hc => isNumberLead_of_isDigit (hn.2 c hc), rfl,
        .inr ⟨?_, ?_⟩⟩
      · exact fun c hc => hexp c (List.mem_append_right _ hc)
      · intro mark hmark
        exact ⟨true, fractionPart_bar hm (startsWith_isDigit_of_isInchMarks hmark)⟩
  | decimal hb =>
    obtain ⟨lead, power, rfl, hne, hlead, rfl | hpower⟩ := hb.exists_lead
    · refine ⟨lead, [], rfl, hne, hlead, rfl, .inr ⟨by simp, ?_⟩⟩
      intro mark hmark
      refine ⟨false, fractionPart_eq_nil ?_ ?_⟩
      · rcases hmark with rfl | rfl <;> rfl
      · rcases hmark with rfl | rfl <;> rfl
    · exact ⟨lead, power, rfl, hne, hlead, startsWith_isNumberLead_of_isExponentMark hpower,
        .inl hpower⟩
  | @mixed a f c _ _ ha hspacer hf =>
    obtain ⟨lead, power, rfl, hne, hlead, rfl | hpower⟩ := ha.exists_lead
    · refine ⟨lead, c :: f, by simp, hne, hlead, isNumberLead_of_isSpacer hspacer, .inr ⟨?_, ?_⟩⟩
      · exact List.forall_mem_cons.2 ⟨isExponentMark_of_isSpacer hspacer, hf.isExponentMark⟩
      · intro mark hmark
        exact ⟨true, fractionPart_spacer hspacer hf (startsWith_isDigit_of_isInchMarks hmark)⟩
    · have hmore := startsWith_append_right hpower (c :: f)
      exact ⟨lead, power ++ c :: f, by simp, hne, hlead,
        startsWith_isNumberLead_of_isExponentMark hmore, .inl hmore⟩

theorem markPart_eq_nil {cs : List Char} (h : startsWith isInchMark cs = false) :
    markPart false cs = [] := by
  simp [markPart, h]

/-- Where neither a fraction part nor an inch mark follows the feet, the literal ends with them. -/
theorem Literal.whole_scan_ne_of_stop {a feet rest : List Char}
    (ha : decimalPart (a ++ (feet ++ rest)) = a) (hfeet : feetPart (feet ++ rest) = feet)
    (hbar : digitAfter isFractionBar rest = false) (hspacer : digitAfter isSpacer rest = false)
    (hinch : startsWith isInchMark rest = false) (hne : rest ≠ []) :
    (scan (a ++ (feet ++ rest))).whole ≠ a ++ (feet ++ rest) := by
  have hpart : fractionPart ((feet ++ rest).drop feet.length) = ([], false) := by
    rw [List.drop_left]
    exact fractionPart_eq_nil hbar hspacer
  have hscan := scan_eq ha hfeet hpart
  rw [List.drop_left, Bool.false_and, List.length_nil, List.drop_zero, markPart_eq_nil hinch]
    at hscan
  rw [hscan, whole]
  intro heq
  simp only [List.append_nil] at heq
  rw [← List.append_assoc] at heq
  exact hne (List.self_eq_append_right.1 heq)

section FeetInches

variable {a gap b mark lead more : List Char} {x : Float}

/-- In front of a spacer the digits and points open with a digit, unless a point comes first. -/
theorem startsWith_isDigit_of_isDot (hne : lead ≠ []) (hlead : ∀ c ∈ lead, isNumberLead c = true)
    (hdot : gap = [] ∨ startsWith isDot lead = false) :
    gap = [] ∨ startsWith isDigit lead = true := by
  refine hdot.imp_right fun hdot => ?_
  obtain ⟨d, ds, rfl⟩ := List.exists_cons_of_ne_nil hne
  have hd := hlead d List.mem_cons_self
  rw [startsWith_cons] at hdot ⊢
  rwa [isNumberLead, hdot, Bool.or_false] at hd

theorem LengthText.behindFoot_eq (ha : DecimalText a x) (rest : List Char) :
    behindFoot (a ++ '\x27' :: rest) = rest :=
  behindFoot_append (fun c hc => isFootMark_of_inNumber (ha.inNumber c hc)) _

/-- Whether the inches are plain can be seen at the start of their parts. -/
theorem plainInches_iff (ha : DecimalText a x) (hgap : IsGap gap) (hb : InchesParts b lead more)
    (hmark : IsInchMarks mark) :
    plainInches (a ++ '\x27' :: (gap ++ (b ++ mark))) = true ↔
      startsWith isExponentMark more = false ∧ (gap = [] ∨ startsWith isDot lead = false) := by
  obtain ⟨rfl, hne, hlead, -, hmore⟩ := hb
  obtain ⟨d, ds, rfl⟩ := List.exists_cons_of_ne_nil hne
  have hall : (gap ++ (d :: ds ++ more ++ mark)).all (fun c => !isExponentMark c) = true ↔
      startsWith isExponentMark more = false := by
    rw [List.all_eq_true]
    constructor
    · intro hno
      cases more with
      | nil => rfl
      | cons c more => simpa using hno c (by simp)
    · intro hpower c hc
      obtain ⟨hmore, -⟩ := hmore.resolve_left (by rw [hpower]; exact Bool.false_ne_true)
      rw [Bool.not_eq_true']
      rcases List.mem_append.1 hc with hc | hc
      · rcases hgap with rfl | ⟨e, he, rfl⟩
        · cases hc
        · rw [List.mem_singleton.1 hc]
          exact isExponentMark_of_isSpacer he
      · rcases List.mem_append.1 hc with hc | hc
        · rcases List.mem_append.1 hc with hc | hc
          · exact isExponentMark_of_isNumberLead (hlead c hc)
          · exact hmore c hc
        · rcases hmark with rfl | rfl
          · cases hc
          · rw [List.mem_singleton.1 hc]
            rfl
  have hpoint : (startsWith isSpacer (gap ++ (d :: ds ++ more ++ mark)) &&
      startsWith isDot (gap ++ (d :: ds ++ more ++ mark)).tail) = false ↔
      gap = [] ∨ startsWith isDot (d :: ds) = false := by
    rcases hgap with rfl | ⟨e, he, rfl⟩
    · simp [isSpacer_of_isNumberLead (hlead d List.mem_cons_self)]
    · simp [he]
  rw [plainInches, LengthText.behindFoot_eq ha, Bool.and_eq_true, hall, Bool.not_eq_true', hpoint]

/-- Plain inches are taken to their end. -/
theorem takesAll_feetInches (ha : DecimalText a x) (hgap : IsGap gap)
    (hb : InchesParts b lead more) (hmark : IsInchMarks mark)
    (hpower : startsWith isExponentMark more = false)
    (hdot : gap = [] ∨ startsWith isDot lead = false) :
    Literal.TakesAll (a ++ '\x27' :: (gap ++ (b ++ mark))) := by
  obtain ⟨rfl, hne, hlead, hstops, hmore⟩ := hb
  obtain ⟨-, hpart⟩ := hmore.resolve_left (by rw [hpower]; exact Bool.false_ne_true)
  obtain ⟨bar, hbar⟩ := hpart mark hmark
  have hdigit := startsWith_isDigit_of_isDot hne hlead hdot
  have hstops' : startsWith isNumberLead (more ++ mark) = false := by
    cases more with
    | nil => rcases hmark with rfl | rfl <;> rfl
    | cons c more => exact hstops
  have hfeet := feetPart_append hgap hne hlead hdigit hstops'
  have htext : a ++ '\x27' :: (gap ++ (lead ++ more ++ mark))
      = a ++ (('\x27' :: (gap ++ lead)) ++ (more ++ mark)) := by simp
  rw [htext]
  refine Literal.takesAll_of_parts ?_ ?_ hbar hmark
  · exact ha.decimalPart_append rfl rfl
  · simpa using hfeet

/-- Where the inches are not plain the scanner stops behind the foot mark, or behind the digits and
points that follow. -/
theorem whole_scan_ne_feetInches (ha : DecimalText a x) (hgap : IsGap gap)
    (hb : InchesParts b lead more)
    (hnot : ¬ (startsWith isExponentMark more = false ∧
      (gap = [] ∨ startsWith isDot lead = false))) :
    (Literal.scan (a ++ '\x27' :: (gap ++ (b ++ mark)))).whole
      ≠ a ++ '\x27' :: (gap ++ (b ++ mark)) := by
  obtain ⟨rfl, hne, hlead, hstops, -⟩ := hb
  obtain ⟨d, ds, rfl⟩ := List.exists_cons_of_ne_nil hne
  by_cases hdot : gap = [] ∨ startsWith isDot (d :: ds) = false
  · -- the power of ten is left over
    have hpower : startsWith isExponentMark more = true := by
      rw [← Bool.not_eq_false]
      exact fun hpower => hnot ⟨hpower, hdot⟩
    have hfeet := feetPart_append hgap hne hlead (startsWith_isDigit_of_isDot hne hlead hdot)
      (startsWith_isNumberLead_of_isExponentMark (startsWith_append_right hpower mark))
    have htext : a ++ '\x27' :: (gap ++ (d :: ds ++ more ++ mark))
        = a ++ (('\x27' :: (gap ++ d :: ds)) ++ (more ++ mark)) := by simp
    cases more with
    | nil => cases hpower
    | cons c more =>
      rw [startsWith_cons, isExponentMark, Bool.or_eq_true, beq_iff_eq, beq_iff_eq] at hpower
      rw [htext]
      refine Literal.whole_scan_ne_of_stop (ha.decimalPart_append rfl rfl) (by simpa using hfeet)
        ?_ ?_ ?_ (by simp)
      all_goals rcases hpower with rfl | rfl <;> rfl
  · -- the spacer is left over, and all behind it
    rw [not_or] at hdot
    obtain ⟨c, hc, rfl⟩ := hgap.resolve_left hdot.1
    have hd : isDigit d = false := by
      have hpoint : isDot d = true := by simpa using hdot.2
      rw [isDot, beq_iff_eq] at hpoint
      rw [hpoint]
      rfl
    have hdigit : digitAfter isSpacer (c :: (d :: ds ++ more ++ mark)) = false := by
      simp [digitAfter, hd]
    have hfeet : feetPart (['\x27'] ++ c :: (d :: ds ++ more ++ mark)) = ['\x27'] := by
      rw [List.singleton_append, feetPart, if_pos (show isFootMark '\x27' = true from rfl),
        if_neg (Bool.eq_false_iff.1 hdigit), List.takeWhile_cons, isNumberLead_of_isSpacer hc]
      rfl
    have htext : a ++ '\x27' :: ([c] ++ (d :: ds ++ more ++ mark))
        = a ++ (['\x27'] ++ c :: (d :: ds ++ more ++ mark)) := rfl
    rw [htext]
    refine Literal.whole_scan_ne_of_stop (ha.decimalPart_append rfl rfl) hfeet ?_ hdigit ?_
      (by simp)
    · simp [digitAfter, hd]
    · rw [isSpacer, Bool.or_eq_true, beq_iff_eq, beq_iff_eq] at hc
      rcases hc with rfl | rfl <;> rfl

end FeetInches

/-! ## Lengths of every form -/

section Lengths

variable {cs : List Char} {v : Float}

/-- Without a foot mark there are no inches behind it. -/
theorem plainInches_of_forall (h : ∀ c ∈ cs, isFootMark c = false) : plainInches cs = true := by
  refine plainInches_of_behindFoot ?_
  rw [← List.append_nil cs, behindFoot_append h]
  rfl

/-- A decimal and what follows it make up a literal where no feet follow. -/
theorem takesAll_of_decimal {a part mark : List Char} {bar : Bool}
    (ha : decimalPart (a ++ (part ++ mark)) = a)
    (hfeet : startsWith isFootMark (part ++ mark) = false)
    (hpart : fractionPart (part ++ mark) = (part, bar)) (hmark : IsInchMarks mark) :
    Literal.TakesAll (a ++ (part ++ mark)) := by
  have htakes : Literal.TakesAll (a ++ ([] ++ (part ++ mark))) :=
    Literal.takesAll_of_parts ha (feetPart_eq_nil hfeet) hpart hmark
  exact htakes

/-- What reads as a length is taken as a whole if its inches are plain, and not taken as a whole
if they are not. -/
theorem LengthText.takesAll_or (h : LengthText cs v) :
    plainInches cs = true ∧ Literal.TakesAll cs ∨
      plainInches cs = false ∧ (Literal.scan cs).whole ≠ cs := by
  cases h with
  | fraction hf =>
    have hfoot : ∀ c ∈ _ ++ ['\x22'], isFootMark c = false := List.forall_mem_append.2
      ⟨fun c hc => isFootMark_of_inNumber (hf.inNumber c hc), by simp; decide⟩
    refine .inl ⟨plainInches_of_forall hfoot, ?_⟩
    cases hf with
    | @intro a b ha hb _ =>
      have hlead : decimalPart (a ++ [] ++ ('/' :: b ++ ['\x22'])) = a ++ [] :=
        decimalPart_append_exact (fun c hc => isNumberLead_of_isDigit (ha.2 c hc)) .none rfl rfl
      rw [List.append_nil] at hlead
      rw [List.append_assoc]
      exact takesAll_of_decimal hlead rfl (fractionPart_bar hb rfl) (.inr rfl)
  | decimal ha =>
    refine .inl ⟨plainInches_of_forall fun c hc => isFootMark_of_inNumber (ha.inNumber c hc), ?_⟩
    have htakes : Literal.TakesAll (cs ++ ([] ++ [])) :=
      takesAll_of_decimal (ha.decimalPart_append rfl rfl) rfl rfl (.inl rfl)
    simpa using htakes
  | marked ha =>
    have hfoot : ∀ c ∈ _ ++ ['\x22'], isFootMark c = false := List.forall_mem_append.2
      ⟨fun c hc => isFootMark_of_inNumber (ha.inNumber c hc), by simp; decide⟩
    refine .inl ⟨plainInches_of_forall hfoot, ?_⟩
    have htakes : Literal.TakesAll (_ ++ ([] ++ ['\x22'])) :=
      takesAll_of_decimal (ha.decimalPart_append rfl rfl) rfl rfl (.inr rfl)
    exact htakes
  | feet ha =>
    refine .inl ⟨plainInches_of_behindFoot (LengthText.behindFoot_eq ha []), ?_⟩
    have htakes : Literal.TakesAll (_ ++ (['\x27'] ++ ([] ++ []))) :=
      Literal.takesAll_of_parts (ha.decimalPart_append rfl rfl) rfl rfl (.inl rfl)
    exact htakes
  | @feetInches a gap b mark _ _ ha hgap hb hmark =>
    obtain ⟨lead, more, hparts⟩ := hb.exists_parts
    by_cases hplain : startsWith isExponentMark more = false ∧
        (gap = [] ∨ startsWith isDot lead = false)
    · refine .inl ⟨(plainInches_iff ha hgap hparts hmark).2 hplain, ?_⟩
      exact takesAll_feetInches ha hgap hparts hmark hplain.1 hplain.2
    · refine .inr ⟨?_, whole_scan_ne_feetInches ha hgap hparts hplain⟩
      rw [Bool.eq_false_iff]
      exact fun h => hplain ((plainInches_iff ha hgap hparts hmark).1 h)
  | @mixed a b c _ _ ha hc hf =>
    have hfoot : ∀ d ∈ a ++ c :: (b ++ ['\x22']), isFootMark d = false := by
      refine List.forall_mem_append.2 ⟨fun d hd => isFootMark_of_inNumber (ha.inNumber d hd), ?_⟩
      refine List.forall_mem_cons.2 ⟨isFootMark_of_isSpacer hc, List.forall_mem_append.2 ⟨?_, ?_⟩⟩
      · exact fun d hd => isFootMark_of_inNumber (hf.inNumber d hd)
      · simp; decide
    refine .inl ⟨plainInches_of_forall hfoot, ?_⟩
    have hlead : decimalPart (a ++ (c :: b ++ ['\x22'])) = a :=
      ha.decimalPart_append (isNumberLead_of_isSpacer hc) (isExponentMark_of_isSpacer hc)
    exact takesAll_of_decimal hlead (isFootMark_of_isSpacer hc) (fractionPart_spacer hc hf rfl)
      (.inr rfl)

end Lengths

end LengthFormula
