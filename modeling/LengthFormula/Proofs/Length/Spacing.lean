import LengthFormula.Proofs.Length.Refusal
import LengthFormula.Proofs.Text.Spaced

/-!
# Literals in front of a blank

What a number literal takes does not change when a blank is put into the text behind it
(`Literal.read_spaced`).  If the literal is all that the scanner cut off, its parts are cut off as
before (`Literal.CutOff.spaced`).  If it is shorter, because what was cut off is refused with its
fraction part, the blank may stand inside that part: then less is cut off, and that is refused as
well (`Literal.CutOff.readLength?_shorter`).
-/

namespace LengthFormula

/-! ## Parts in front of a text with a blank put in -/

namespace Spaced

variable {a part feet mark x x' : List Char} {bar foot : Bool}

/-- Where no power of ten opens, none opens with a blank put in. -/
theorem powerPart_eq_nil (hs : Spaced x x') (h : powerPart x = []) : powerPart x' = [] := by
  rw [powerPart_eq_nil_iff, opensPower, Bool.and_eq_false_iff] at h ⊢
  cases hs with
  | here hw => exact .inl (isExponentMark_of_isBlank hw)
  | behind hs =>
    refine h.imp_right fun h => ?_
    rw [List.tail_cons, Bool.or_eq_false_iff] at h ⊢
    exact ⟨hs.startsWith_eq_false isDigit_of_isBlank h.1,
      hs.digitAfter_eq_false isSign_of_isBlank h.2⟩

theorem powerPart_append (hs : Spaced x x') (h : powerPart (a ++ x) = a) :
    powerPart (a ++ x') = a := by
  by_cases hne : a = []
  · subst hne
    exact hs.powerPart_eq_nil h
  · have htext : PowerText a := h ▸ powerText_powerPart _
    rw [htext.powerPart_append_iff hne] at h ⊢
    exact hs.startsWith_eq_false isDigit_of_isBlank h

theorem decimalPart_append (hs : Spaced x x') (h : decimalPart (a ++ x) = a) :
    decimalPart (a ++ x') = a := by
  obtain ⟨lead, power, rfl, hlead, hstop, hpower⟩ := decimalPart_append_iff.1 h
  refine decimalPart_append_iff.2 ⟨lead, power, rfl, hlead, ?_, hs.powerPart_append hpower⟩
  exact (hs.append_left power).startsWith_eq_false isNumberLead_of_isBlank hstop

theorem feetEnd (hs : Spaced x x') (h : FeetEnd feet x) : FeetEnd feet x' := by
  match feet, h with
  | [], h => exact hs.startsWith_eq_false isFootMark_of_isBlank h
  | [_], h =>
    exact ⟨hs.startsWith_eq_false isNumberLead_of_isBlank h.1,
      hs.digitAfter_isSpacer_eq_false (startsWith_isDigit_of_isNumberLead h.1) h.2⟩
  | _ :: _ :: _, h => exact hs.startsWith_eq_false isNumberLead_of_isBlank h

theorem partEnd (hs : Spaced x x') (hdigit : part = [] → startsWith isDigit x = false)
    (h : PartEnd part bar x) : PartEnd part bar x' := by
  match part, h with
  | [], h =>
    exact ⟨hs.digitAfter_eq_false isFractionBar_of_isBlank h.1,
      hs.digitAfter_isSpacer_eq_false (hdigit rfl) h.2⟩
  | _ :: _, h =>
    exact ⟨hs.startsWith_eq_false isDigit_of_isBlank h.1,
      h.2.imp_right (hs.digitAfter_eq_false isFractionBar_of_isBlank)⟩

theorem markPart_append (hs : Spaced x x') (h : markPart foot (mark ++ x) = mark) :
    markPart foot (mark ++ x') = mark := by
  cases mark with
  | cons c mark => exact h
  | nil =>
    rw [List.nil_append, markPart] at h ⊢
    split at h
    · next hmark =>
      cases x with
      | nil => simp at hmark
      | cons c x => cases h
    · next hmark =>
      refine if_neg ?_
      rw [Bool.not_eq_true, Bool.or_eq_false_iff, Bool.and_eq_false_iff] at hmark ⊢
      exact ⟨hs.startsWith_eq_false isInchMark_of_isBlank hmark.1,
        hmark.2.imp_right (hs.startsWith_eq_false isFootMark_of_isBlank)⟩

end Spaced

/-! ## Literals cut off -/

namespace Literal

/-- In front of the text `x` the parts of the literal are cut off one after the other. -/
structure CutOff (l : Literal) (bar : Bool) (x : List Char) : Prop where
  decimalPart_eq : decimalPart (l.lead ++ (l.feet ++ (l.part ++ (l.mark ++ x)))) = l.lead
  feetText : FeetText l.feet
  feetEnd : FeetEnd l.feet (l.part ++ (l.mark ++ x))
  partText : PartText l.part bar
  partEnd : PartEnd l.part bar (l.mark ++ x)
  markPart_eq : markPart (bar && l.feet.isEmpty) (l.mark ++ x) = l.mark

theorem whole_append (l : Literal) (x : List Char) :
    l.whole ++ x = l.lead ++ (l.feet ++ (l.part ++ (l.mark ++ x))) := by
  simp only [whole, List.append_assoc]

variable {l : Literal} {bar : Bool} {x x' : List Char}

theorem CutOff.scan_eq (h : l.CutOff bar x) : scan (l.whole ++ x) = l := by
  have hpart : fractionPart ((l.feet ++ (l.part ++ (l.mark ++ x))).drop l.feet.length)
      = (l.part, bar) := by
    rw [List.drop_left]
    exact h.partText.fractionPart_append h.partEnd
  rw [whole_append, Literal.scan_eq h.decimalPart_eq (h.feetText.feetPart_append h.feetEnd) hpart,
    List.drop_left, List.drop_left, h.markPart_eq]

/-- Every text starts with a literal. -/
theorem exists_cutOff (cs : List Char) : ∃ l bar x, cs = l.whole ++ x ∧ CutOff l bar x := by
  obtain ⟨lead, hlead⟩ : ∃ lead, decimalPart cs = lead := ⟨_, rfl⟩
  obtain ⟨rest, hcs⟩ := decimalPart_isPrefix cs
  rw [hlead] at hcs
  subst hcs
  obtain ⟨feet, rest, rfl, hfeet, hfeetEnd⟩ := exists_feet rest
  obtain ⟨part, bar, rest, rfl, hpart, hpartEnd⟩ := exists_part rest
  obtain ⟨mark, hmark⟩ : ∃ mark, markPart (bar && feet.isEmpty) rest = mark := ⟨_, rfl⟩
  obtain ⟨x, hrest⟩ := markPart_isPrefix (bar && feet.isEmpty) rest
  rw [hmark] at hrest
  subst hrest
  exact ⟨⟨lead, feet, part, mark⟩, bar, x, (whole_append ⟨lead, feet, part, mark⟩ x).symm,
    ⟨hlead, hfeet, hfeetEnd, hpart, hpartEnd, hmark⟩⟩

/-- Without a fraction part no digit stands behind the digits in front. -/
theorem CutOff.startsWith_isDigit (h : l.CutOff bar x) (hpart : l.part = []) :
    startsWith isDigit (l.mark ++ x) = false := by
  have hfeet := h.feetEnd
  have hlead := startsWith_isDigit_of_decimalPart h.decimalPart_eq
  rw [hpart, List.nil_append] at hfeet hlead
  by_cases hne : l.feet = []
  · rwa [hne, List.nil_append] at hlead
  · exact hfeet.startsWith_isDigit hne

/-- A blank put in behind a literal does not change it. -/
theorem CutOff.spaced (h : l.CutOff bar x) (hs : Spaced x x') : l.CutOff bar x' where
  decimalPart_eq :=
    (((hs.append_left _).append_left _).append_left _).decimalPart_append h.decimalPart_eq
  feetText := h.feetText
  feetEnd := ((hs.append_left _).append_left _).feetEnd h.feetEnd
  partText := h.partText
  partEnd := (hs.append_left _).partEnd h.startsWith_isDigit h.partEnd
  markPart_eq := hs.markPart_append h.markPart_eq

/-! ## A blank inside the fraction part -/

/-- Behind its separator a fraction part opens with a digit, and no blank stands there. -/
theorem tail_of_partText {c : Char} {cs : List Char} (h : PartText (c :: cs) bar) :
    startsWith isDigit cs = true ∧ ∀ d ∈ cs, isBlank d = false := by
  have hdigits : ∀ {b : List Char}, IsDigits b → ∀ d ∈ b, isBlank d = false :=
    fun hb d hd => isBlank_of_inNumber (inNumber_of_isDigit (hb.2 d hd))
  have hstart : ∀ {b : List Char}, IsDigits b → startsWith isDigit b = true := by
    intro b hb
    have := hb.startsWith_append (x := [])
    rwa [List.append_nil] at this
  cases h with
  | bar hb => exact ⟨hstart hb, hdigits hb⟩
  | spacer _ ha => exact ⟨hstart ha, hdigits ha⟩
  | mixed _ ha hb =>
    refine ⟨ha.startsWith_append, List.forall_mem_append.2 ⟨hdigits ha, ?_⟩⟩
    exact List.forall_mem_cons.2 ⟨by decide, hdigits hb⟩

/-- The only blank in a fraction part is the separator in front. -/
theorem eq_nil_of_partText_blank {front more : List Char} {w : Char}
    (h : PartText (front ++ w :: more) bar) (hw : isBlank w = true) : front = [] := by
  cases front with
  | nil => rfl
  | cons c front =>
    have hmore := (tail_of_partText h).2 w (by simp)
    rw [hw] at hmore
    cases hmore

/-- With a blank put in before its end a fraction part is cut shorter, and no mark stands behind. -/
theorem exists_shorter_part {part mark front back y : List Char} {w : Char}
    (hpart : PartText part bar) (hne : part ≠ []) (hmark : mark.length ≤ 1)
    (hsplit : part ++ mark = front ++ back) (hback : back ≠ []) (hw : isBlank w = true) :
    ∃ part' bar' rest, front ++ w :: (back ++ y) = part' ++ rest ∧ PartText part' bar' ∧
      PartEnd part' bar' rest ∧ part' <+: part ∧ startsWith isFootMark rest = false ∧
        startsWith isInchMark rest = false := by
  have hfront : front <+: part := by
    refine List.prefix_of_prefix_length_le ⟨back, hsplit.symm⟩ (List.prefix_append part mark) ?_
    have := congrArg List.length hsplit
    simp only [List.length_append] at this
    have := List.length_pos_iff.2 hback
    omega
  obtain ⟨part', bar', rest, heq, hpart', hend⟩ := exists_part (front ++ w :: (back ++ y))
  refine ⟨part', bar', rest, heq, hpart', hend, ?_⟩
  rcases List.append_eq_append_iff.1 heq with ⟨more, rfl, hmore⟩ | ⟨more, rfl, rfl⟩
  · cases more with
    | nil =>
      rw [List.append_nil, ← List.nil_append rest, ← hmore]
      exact ⟨hfront, isFootMark_of_isBlank hw, isInchMark_of_isBlank hw⟩
    | cons c more =>
      -- the blank would be the separator, and the digit behind it the start of the part
      obtain ⟨rfl, hbehind⟩ := List.cons.inj hmore
      obtain rfl := eq_nil_of_partText_blank hpart' hw
      have hdigit := startsWith_append_right (tail_of_partText hpart').1 rest
      rw [← List.append_eq, ← hbehind, ← List.nil_append back, ← hsplit, List.append_assoc,
        startsWith_append_of_ne_nil hne,
        startsWith_isDigit_of_isNumberLead hpart.stops.1] at hdigit
      cases hdigit
  · refine ⟨(List.prefix_append part' more).trans hfront, ?_⟩
    cases more with
    | nil => exact ⟨isFootMark_of_isBlank hw, isInchMark_of_isBlank hw⟩
    | cons c more => exact hpart.unmarked c (hfront.subset (by simp))

/-! ## Literals that are read -/

variable {part' : List Char} {bar' : Bool} {v : Float}

/-- Behind feet only an inch mark closes a literal. -/
theorem isInchMarks_of_markPart {mark : List Char} (h : markPart false (mark ++ x) = mark) :
    IsInchMarks mark := by
  rw [markPart, Bool.false_and, Bool.or_false] at h
  split at h
  · next hinch =>
    cases hcs : mark ++ x with
    | nil =>
      rw [hcs] at hinch
      cases hinch
    | cons c cs =>
      rw [hcs, startsWith_cons] at hinch
      rw [← h, hcs, eq_inchMark hinch]
      exact .inr rfl
  · exact .inl h.symm

/-- Where no spacer opens a fraction part, a bar does. -/
theorem exists_bar_of_isPrefix {part y : List Char} (hpart : PartText part bar)
    (hpart' : PartText part' bar') (hne : part' ≠ []) (hinit : part' <+: part)
    (hspacer : digitAfter isSpacer (part ++ y) = false) : ∃ cs, part' = '/' :: cs := by
  have hfirst : ∀ {c : Char} {cs : List Char}, isSpacer c = true → c :: cs <+: part → False := by
    rintro c cs hc ⟨more, rfl⟩
    have hdigit := startsWith_append_right (tail_of_partText hpart).1 y
    rw [digitAfter, List.cons_append, List.cons_append, startsWith_cons, hc, List.tail_cons,
      Bool.true_and] at hspacer
    exact Bool.false_ne_true (hspacer.symm.trans hdigit)
  cases hpart' with
  | none => exact absurd rfl hne
  | bar => exact ⟨_, rfl⟩
  | spacer hc | mixed hc => exact (hfirst hc hinit).elim

/-- A text that opens with a digit or a point has no sign. -/
theorem readLength?_append {a : List Char} (h : startsWith isNumberLead a = true) (t : List Char) :
    readLength? (a ++ t) = readUnsignedLength? (a ++ t) := by
  cases a with
  | nil => cases h
  | cons c a =>
    rw [List.cons_append, readLength?, if_neg (Bool.eq_false_iff.1 (isMinus_of_isNumberLead h))]

/-- Where the text is refused with its fraction part, it is refused with a shorter one. -/
theorem CutOff.readLength?_shorter (h : l.CutOff bar x)
    (hlead : startsWith isNumberLead l.lead = true)
    (hshort : readLength? (l.lead ++ l.feet) = some v)
    (hwhole : l.wholeValue? readLength? = none) (hpart' : PartText part' bar') (hne : part' ≠ [])
    (hinit : part' <+: l.part) : readLength? (l.lead ++ (l.feet ++ part')) = none := by
  obtain ⟨a, feet, part, mark⟩ := l
  obtain ⟨hdecimal, hfeet, hfeetEnd, hpart, -, hmark⟩ := h
  simp only at hdecimal hfeet hfeetEnd hpart hmark hlead hshort hinit ⊢
  rw [readLength?_append hlead] at hshort ⊢
  cases hfeet with
  | none => exact readUnsignedLength?_part hdecimal hpart' hne
  | bare =>
    obtain ⟨cs, rfl⟩ := exists_bar_of_isPrefix hpart hpart' hne hinit hfeetEnd.2
    rw [List.singleton_append, readUnsignedLength?_foot hdecimal]
    simp only [readAfterFeet?_bar, Option.bind_fun_none]
  | @inches gap inches hgap hinches hall =>
    have hmarks : IsInchMarks mark := isInchMarks_of_markPart (by simpa using hmark)
    -- behind inches only an inch mark can stand, so the text is not cut off at its mark
    have hfoot : isFractionOfFeet ⟨a, '\x27' :: (gap ++ inches), part, mark⟩ = false := by
      rw [isFractionOfFeet]
      rcases hmarks with rfl | rfl <;> rfl
    have htext : whole ⟨a, '\x27' :: (gap ++ inches), part, mark⟩
        = a ++ '\x27' :: (gap ++ (inches ++ (part ++ mark))) := by
      simp [whole]
    rw [wholeValue?, hfoot, if_neg Bool.false_ne_true, htext, readLength?_append hlead] at hwhole
    rw [List.cons_append, List.append_assoc]
    exact readUnsignedLength?_inches_shorter hdecimal hgap hinches hall hshort hpart hmarks hwhole
      hpart' hne hinit

/-- Where the text with the fraction part is refused, the literal ends in front of that part. -/
theorem read_of_refused {convert : Converter} (h : l.wholeValue? convert = none)
    (hpart : l.part ≠ []) : l.read convert = (l.lead ++ l.feet, convert (l.lead ++ l.feet)) := by
  have hempty : l.part.isEmpty = false := by simpa using hpart
  rw [read, h, isPlain, shorter, hempty, Bool.and_false]
  rfl

/-- A literal that ends with its feet is read as a whole. -/
theorem read_of_feet {convert : Converter} {lead feet : List Char}
    (h : convert (lead ++ feet) = some v) :
    read convert ⟨lead, feet, [], []⟩ = (lead ++ feet, some v) := by
  have hwhole : whole ⟨lead, feet, [], []⟩ = lead ++ feet := by simp [whole]
  have hvalue : wholeValue? convert ⟨lead, feet, [], []⟩ = some v := by
    rw [wholeValue?, isFractionOfFeet, startsWith_nil, if_neg Bool.false_ne_true, hwhole, h]
  rw [read, hvalue, hwhole]

/-- A text that opens with a digit or a point opens with the decimal of its literal. -/
theorem CutOff.startsWith_lead (h : l.CutOff bar x)
    (hlead : startsWith isNumberLead (l.whole ++ x) = true) :
    startsWith isNumberLead l.lead = true := by
  rw [whole_append] at hlead
  by_cases hne : l.lead = []
  · have hdecimal := h.decimalPart_eq
    rw [hne] at hdecimal hlead
    obtain ⟨lead, power, hnil, -, hstop, -⟩ := decimalPart_append_iff.1 hdecimal
    rw [(List.nil_eq_append_iff.1 hnil).2] at hstop
    rw [hstop] at hlead
    cases hlead
  · rwa [startsWith_append_of_ne_nil hne] at hlead

/-- A literal without a fraction part is refused only if it has feet, and then it ends in front of
their mark. -/
theorem read_of_no_part {convert : Converter} (h : l.wholeValue? convert = none)
    (hpart : l.part = []) {body : List Char} (hread : l.read convert = (body, some v)) :
    body = l.lead ∧ l.feet ≠ [] := by
  rw [read, h] at hread
  simp only at hread
  split at hread
  · cases hread
  · next hplain =>
    simp only [isPlain, hpart, List.isEmpty_nil, Bool.and_true, List.isEmpty_iff] at hplain
    rw [shorter, hpart] at hread
    exact ⟨(Prod.mk.inj hread).1.symm, hplain⟩

theorem length_mark_le_one (h : l.CutOff bar x) : l.mark.length ≤ 1 := by
  rw [← h.markPart_eq, markPart]
  split
  · exact List.length_take_le 1 _
  · simp

/-- With a blank put in before the end of its fraction part the literal is shorter, and it has no
mark. -/
theorem CutOff.exists_shorter {front back y : List Char} {w : Char} (h : l.CutOff bar y)
    (hpart : l.part ≠ []) (hsplit : l.part ++ l.mark = front ++ back) (hback : back ≠ [])
    (hw : isBlank w = true) :
    ∃ part' bar' rest, front ++ w :: (back ++ y) = part' ++ rest ∧ part' <+: l.part ∧
      PartText part' bar' ∧ CutOff ⟨l.lead, l.feet, part', []⟩ bar' rest := by
  obtain ⟨part', bar', rest, heq, hpart', hend, hinit, hfoot, hinch⟩ :=
    exists_shorter_part (y := y) h.partText hpart (length_mark_le_one h) hsplit hback hw
  have hs : Spaced (l.part ++ (l.mark ++ y)) (part' ++ rest) := by
    rw [← heq, ← List.append_assoc, hsplit, List.append_assoc]
    exact Spaced.insert hw front (back ++ y)
  refine ⟨part', bar', rest, heq, hinit, hpart', ?_⟩
  exact {
    decimalPart_eq := (hs.append_left _).decimalPart_append h.decimalPart_eq
    feetText := h.feetText
    feetEnd := hs.feetEnd h.feetEnd
    partText := hpart'
    partEnd := hend
    markPart_eq := by simp [markPart, hfoot, hinch] }

/-- A literal that is refused with its fraction part is read without it, also with a blank put in
behind its feet. -/
theorem CutOff.read_spaced_part {y : List Char} (h : l.CutOff bar y)
    (hlead : startsWith isNumberLead l.lead = true)
    (hshort : readLength? (l.lead ++ l.feet) = some v) (hwhole : l.wholeValue? readLength? = none)
    (hpart : l.part ≠ []) (hs : Spaced (l.part ++ l.mark ++ y) x') :
    (scan (l.lead ++ (l.feet ++ x'))).read readLength? = (l.lead ++ l.feet, some v) := by
  rcases hs.append_cases with ⟨front, w, back, hsplit, hback, hw, rfl⟩ | ⟨y', hy, rfl⟩
  · obtain ⟨part', bar', rest, heq, hinit, hpart', hcut'⟩ := h.exists_shorter hpart hsplit hback hw
    have hscan := hcut'.scan_eq
    rw [whole_append] at hscan
    simp only [List.nil_append] at hscan
    rw [heq, hscan]
    by_cases hne : part' = []
    · rw [hne]
      exact read_of_feet hshort
    · rw [read_of_refused _ hne]
      · exact congrArg (Prod.mk _) hshort
      · have hrefused := h.readLength?_shorter hlead hshort hwhole hpart' hne hinit
        rw [wholeValue?, isFractionOfFeet, startsWith_nil, if_neg Bool.false_ne_true, whole,
          List.append_nil, List.append_assoc, hrefused]
  · have hscan := (h.spaced hy).scan_eq
    rw [whole_append] at hscan
    rw [List.append_assoc, hscan, read_of_refused hwhole hpart, hshort]

/-- What is taken as a number in front of a text that opens with no foot mark is taken with the same
value in front of that text with a blank put in. -/
theorem read_spaced {body : List Char} (hlead : startsWith isNumberLead (body ++ x) = true)
    (h : (scan (body ++ x)).read readLength? = (body, some v))
    (hfoot : startsWith isFootMark x = false) (hs : Spaced x x') :
    (scan (body ++ x')).read readLength? = (body, some v) := by
  obtain ⟨l, bar, y, htext, hcut⟩ := exists_cutOff (body ++ x)
  rw [htext, hcut.scan_eq] at h
  cases hwhole : l.wholeValue? readLength? with
  | some u =>
    rw [read, hwhole] at h
    obtain ⟨rfl, hu⟩ := Prod.mk.inj h
    obtain rfl := List.append_cancel_left htext
    rw [(hcut.spaced hs).scan_eq, read, hwhole, hu]
  | none =>
    by_cases hpart : l.part = []
    · obtain ⟨rfl, hfeet⟩ := read_of_no_part hwhole hpart h
      rw [whole_append, List.append_cancel_left_eq] at htext
      rw [htext, hcut.feetText.startsWith_isFootMark hfeet] at hfoot
      cases hfoot
    · have hopens := hcut.startsWith_lead (htext ▸ hlead)
      rw [read_of_refused hwhole hpart] at h
      obtain ⟨rfl, hshort⟩ := Prod.mk.inj h
      have hx : x = l.part ++ l.mark ++ y := by
        rw [whole_append, List.append_assoc, List.append_cancel_left_eq,
          List.append_cancel_left_eq] at htext
        rw [htext, List.append_assoc]
      rw [List.append_assoc]
      exact hcut.read_spaced_part hopens hshort hwhole hpart (hx ▸ hs)

/-- What is taken from a text that opens with a digit or a point opens with it. -/
theorem startsWith_of_read {convert : Converter} {text body : List Char} {value : Option Float}
    (hlead : startsWith isNumberLead text = true) (h : (scan text).read convert = (body, value)) :
    startsWith isNumberLead body = true := by
  obtain ⟨more, hmore⟩ := lead_isPrefix_text_read convert (scan text)
  rw [h] at hmore
  cases text with
  | nil => cases hlead
  | cons c cs =>
    rw [startsWith_cons] at hlead
    simp only [scan, decimalPart, List.takeWhile_cons_of_pos hlead, List.cons_append] at hmore
    rw [← hmore]
    exact hlead

end Literal

end LengthFormula
