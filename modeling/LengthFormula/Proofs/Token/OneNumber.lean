import LengthFormula.Proofs.Length.Completeness
import LengthFormula.Proofs.Token.Standing

/-!
# Lengths as tokens

A text that is read as a length is one number token with its value exactly when its inches are plain
(`tokenize_readLength?`).  Elsewhere the scanner ends the number early: `5'-.5` is a subtraction,
and in `5'1e2` a name follows the number.
-/

namespace LengthFormula

/-! ## The ends of a length -/

theorem exists_last_of_forall {p : Char → Bool} {cs : List Char} (hne : cs ≠ [])
    (h : ∀ c ∈ cs, p c = true) : ∃ front c, cs = front ++ [c] ∧ p c = true :=
  ⟨cs.dropLast, cs.getLast hne, (List.dropLast_concat_getLast hne).symm,
    h _ (List.getLast_mem hne)⟩

theorem ne_nil_of_opensNumber {cs : List Char} (h : opensNumber cs = true) : cs ≠ [] := by
  rintro rfl
  cases h

theorem FractionText.exists_last {cs : List Char} {x : Float} (h : FractionText cs x) :
    ∃ front c, cs = front ++ [c] ∧ LengthFormula.inNumber c = true := by
  refine exists_last_of_forall ?_ h.inNumber
  have hfirst := h.startsWith_isDigit
  rintro rfl
  cases hfirst

theorem DecimalText.exists_last {cs : List Char} {x : Float} (h : DecimalText cs x) :
    ∃ front c, cs = front ++ [c] ∧ LengthFormula.inNumber c = true :=
  exists_last_of_forall (ne_nil_of_opensNumber h.opensNumber) h.inNumber

theorem InchesText.exists_last {cs : List Char} {x : Float} (h : InchesText cs x) :
    ∃ front c, cs = front ++ [c] ∧ LengthFormula.inNumber c = true := by
  cases h with
  | fraction hcs => exact hcs.exists_last
  | decimal hcs => exact hcs.exists_last
  | @mixed a b c _ _ _ _ hb =>
    obtain ⟨front, d, rfl, hd⟩ := hb.exists_last
    exact ⟨a ++ c :: front, d, by simp, hd⟩

/-- No length ends with white space. -/
theorem LengthText.exists_last {cs : List Char} {v : Float} (h : LengthText cs v) :
    ∃ front c, cs = front ++ [c] ∧ isBlank c = false := by
  cases h with
  | fraction | marked => exact ⟨_, '\x22', rfl, by decide⟩
  | feet => exact ⟨_, '\x27', rfl, by decide⟩
  | decimal hcs =>
    obtain ⟨front, c, rfl, hc⟩ := hcs.exists_last
    exact ⟨front, c, rfl, isBlank_of_inNumber hc⟩
  | @feetInches a gap b mark _ _ _ _ hb hmark =>
    rcases hmark with rfl | rfl
    · obtain ⟨front, c, rfl, hc⟩ := hb.exists_last
      exact ⟨a ++ '\x27' :: (gap ++ front), c, by simp, isBlank_of_inNumber hc⟩
    · exact ⟨a ++ '\x27' :: (gap ++ b), '\x22', by simp, by decide⟩
  | @mixed a b c => exact ⟨a ++ c :: b, '\x22', by simp, by decide⟩

/-! ## Lengths with their sign -/

/-- A length with a sign in front, as it is read: the value of the length behind the sign is
negated by a minus. -/
inductive SignedLength : List Char → List Char → Float → Float → Prop
  | plain {body : List Char} {v : Float} : LengthText body v → SignedLength [] body v v
  | minus {body : List Char} {v : Float} : LengthText body v → SignedLength ['-'] body v (-v)

/-- What is read as a length is a sign and a length without one, each read by itself. -/
theorem exists_signedLength {text : List Char} {v : Float} (h : readLength? text = some v) :
    ∃ sign body u, text = sign ++ body ∧ SignedLength sign body u v ∧
      readLength? body = some u := by
  rcases lengthText_of_readLength? h with hbody | ⟨body, u, rfl, hbody, rfl⟩
  · exact ⟨[], text, v, rfl, .plain hbody, h⟩
  · have hread : readLength? body = some u :=
      (readLength?_of_opensNumber hbody.opensNumber).trans hbody.readUnsignedLength?_eq
    exact ⟨['-'], body, u, rfl, .minus hbody, hread⟩

section Signed

variable {sign body : List Char} {u v : Float}

theorem SignedLength.lengthText (h : SignedLength sign body u v) : LengthText body u := by
  cases h with
  | plain hbody | minus hbody => exact hbody

theorem SignedLength.plainInches_eq (h : SignedLength sign body u v) :
    plainInches (sign ++ body) = plainInches body := by
  have hbehind : behindFoot (sign ++ body) = behindFoot body := by
    refine behindFoot_append ?_ body
    cases h with
    | plain => simp
    | minus =>
      intro c hc
      rw [List.mem_singleton.1 hc]
      rfl
  rw [plainInches, hbehind, plainInches]

/-- The sign in front of a length is the sign of its literal. -/
theorem SignedLength.signPart_eq (h : SignedLength sign body u v) :
    signPart (sign ++ body) = sign := by
  have hopens := h.lengthText.opensNumber
  obtain ⟨c, cs, rfl⟩ := List.exists_cons_of_ne_nil (ne_nil_of_opensNumber hopens)
  have hlead := isNumberLead_of_opensNumber hopens
  cases h with
  | plain => exact signPart_of_isNumberLead hlead
  | minus =>
    rw [List.singleton_append, signPart_of_isSign rfl, List.takeWhile_cons,
      isBlank_of_isNumberLead hlead]
    rfl

theorem SignedLength.atNumber (h : SignedLength sign body u v) :
    atNumber none (sign ++ body) = true := by
  have hopens := h.lengthText.opensNumber
  have hbody := dropWhile_isBlank_of_opensNumber hopens
  cases h with
  | plain =>
    obtain ⟨c, cs, rfl⟩ := List.exists_cons_of_ne_nil (ne_nil_of_opensNumber hopens)
    rw [List.nil_append, LengthFormula.atNumber, startsWith_cons,
      isNumberLead_of_opensNumber hopens, if_pos rfl]
    exact hopens
  | minus =>
    have hminus : LengthFormula.atNumber none ('-' :: body)
        = opensNumber (body.dropWhile isBlank) := rfl
    rw [List.singleton_append, hminus, hbody]
    exact hopens

theorem SignedLength.exists_first (h : SignedLength sign body u v) :
    ∃ c cs, sign ++ body = c :: cs ∧ isBlank c = false := by
  have hopens := h.lengthText.opensNumber
  obtain ⟨c, cs, rfl⟩ := List.exists_cons_of_ne_nil (ne_nil_of_opensNumber hopens)
  cases h with
  | plain => exact ⟨c, cs, rfl, isBlank_of_isNumberLead (isNumberLead_of_opensNumber hopens)⟩
  | minus => exact ⟨'-', c :: cs, rfl, by decide⟩

theorem SignedLength.exists_last (h : SignedLength sign body u v) :
    ∃ front c, sign ++ body = front ++ [c] ∧ isBlank c = false := by
  obtain ⟨front, c, rfl, hc⟩ := h.lengthText.exists_last
  exact ⟨sign ++ front, c, by simp, hc⟩

theorem SignedLength.kind_eq (h : SignedLength sign body u v) :
    TokenKind.number (if startsWith isMinus sign then -u else u) = .number v := by
  cases h with
  | plain | minus => rfl

/-- The literal of the length takes all of it exactly when the inches are plain. -/
theorem SignedLength.scanNumber_iff (h : SignedLength sign body u v)
    (hread : readLength? body = some u) :
    scanNumber readLength? (sign ++ body) = .ok (.number v, sign ++ body) ↔
      plainInches (sign ++ body) = true := by
  rw [scanNumber_eq_ok_iff, h.signPart_eq, List.drop_left, h.plainInches_eq]
  rcases h.lengthText.takesAll_or with ⟨hplain, htakes⟩ | ⟨hplain, hwhole⟩
  · have hvalue : (Literal.scan body).wholeValue? readLength? = some u := by
      rw [Literal.wholeValue?, htakes.not_fractionOfFeet, if_neg Bool.false_ne_true,
        htakes.whole_eq, hread]
    refine iff_of_true ⟨body, u, ?_, rfl, h.kind_eq.symm⟩ hplain
    rw [Literal.read, hvalue, htakes.whole_eq]
  · refine iff_of_false ?_ (by rw [hplain]; exact Bool.false_ne_true)
    rintro ⟨taken, x, htaken, heq, -⟩
    obtain rfl := List.append_cancel_left heq
    have hprefix := Literal.text_read_isPrefix_whole readLength? (Literal.scan body)
    rw [htaken] at hprefix
    exact hwhole ((Literal.whole_scan_isPrefix body).eq_of_length_le hprefix.length_le)

end Signed

/-! ## The tokens of a length -/

/-- A row of one lexeme is all of its text, if no white space stands at the ends of the text. -/
theorem eq_chars_of_ends {l : Lexeme} {trail front text : List Char} {c d : Char}
    {behind : List Char} (htext : text = textOf [l] trail)
    (hgap : ∀ x ∈ l.gap, isBlank x = true) (htrail : ∀ x ∈ trail, isBlank x = true)
    (hfirst : text = c :: behind) (hc : isBlank c = false)
    (hlast : text = front ++ [d]) (hd : isBlank d = false) : text = l.chars ∧ trail = [] := by
  have hnogap : l.gap = [] := by
    cases hl : l.gap with
    | nil => rfl
    | cons g gap =>
      rw [textOf, hl, hfirst, List.cons_append] at htext
      have hblank := hgap g (hl ▸ List.mem_cons_self)
      rw [← (List.cons.inj htext).1, hc] at hblank
      cases hblank
  have hnotrail : trail = [] := by
    rcases List.eq_nil_or_concat trail with hnil | ⟨t, x, rfl⟩
    · exact hnil
    · have hends : front ++ [d] = (l.gap ++ l.first :: (l.others ++ t)) ++ [x] := by
        rw [← hlast, htext]
        simp [textOf]
      have hblank := htrail x (by simp)
      rw [← List.singleton_inj.1 (List.append_inj' hends rfl).2, hd] at hblank
      cases hblank
  refine ⟨?_, hnotrail⟩
  rw [htext, textOf, textOf, hnogap, hnotrail, List.append_nil]
  rfl

/-- A text is one number token exactly when its literal takes all of it. -/
theorem tokenize_one_number_iff {convert : Converter} {text front : List Char} {c d : Char}
    {behind : List Char} {v : Float} (hat : atNumber none text = true)
    (hfirst : text = c :: behind) (hc : isBlank c = false) (hlast : text = front ++ [d])
    (hd : isBlank d = false) :
    (∃ tokens, tokenize convert text = .ok tokens ∧ kindsOf tokens = [.number v, .finish]) ↔
      scanNumber convert text = .ok (.number v, text) := by
  constructor
  · rintro ⟨tokens, htokens, hkinds⟩
    obtain ⟨ls, trail, htext, hcut, rfl⟩ := tokenize_eq_ok_iff.1 htokens
    rw [kindsOf_tokensFrom] at hkinds
    obtain ⟨l, rfl, hkind⟩ : ∃ l, ls = [l] ∧ l.kind = .number v := by
      match ls, hkinds with
      | [l], hkinds => exact ⟨l, rfl, (List.cons.inj hkinds).1⟩
      | _ :: _ :: ls, hkinds => simp at hkinds
    obtain ⟨hgap, -, hstands, htrail⟩ := cut_cons_iff.1 hcut
    obtain ⟨rfl, rfl⟩ := eq_chars_of_ends htext hgap htrail hfirst hc hlast hd
    rw [Lexeme.Stands] at hstands
    simp only [hkind, textOf, List.append_nil] at hstands
    exact hstands.2
  · intro hscan
    have htoken : scanToken convert none c behind = .ok (.number v, c :: behind) := by
      rw [scanToken, ← hfirst, if_pos hat, hscan]
    have hcut : Cut convert none [⟨[], .number v, c, behind⟩] [] := by
      refine ⟨by simp, hc, ?_, by simp [Cut]⟩
      rw [textOf, List.append_nil]
      exact htoken
    refine ⟨tokensFrom 0 [⟨[], .number v, c, behind⟩] [], ?_, rfl⟩
    rw [← tokenize_of_cut hcut, hfirst]
    simp [textOf]

/-- A text that is read as a length is one number token with its value exactly when its inches are
plain. -/
theorem tokenize_readLength? {text : List Char} {v : Float} (h : readLength? text = some v) :
    (∃ tokens, tokenize readLength? text = .ok tokens ∧
        kindsOf tokens = [.number v, .finish]) ↔ plainInches text = true := by
  obtain ⟨sign, body, u, rfl, hsigned, hread⟩ := exists_signedLength h
  obtain ⟨c, behind, hfirst, hc⟩ := hsigned.exists_first
  obtain ⟨front, d, hlast, hd⟩ := hsigned.exists_last
  rw [tokenize_one_number_iff hsigned.atNumber hfirst hc hlast hd]
  exact hsigned.scanNumber_iff hread

/-- Feet, inches and a fraction of an inch are one token. -/
theorem tokenize_readLength?_fraction :
    ∃ tokens, tokenize readLength? "-5'-6 1/2\"".toList = .ok tokens ∧
      kindsOf tokens = [.number (-66.5), .finish] := by
  have hread : readLength? "-5'-6 1/2\"".toList = some (-66.5) := by decide +kernel
  exact (tokenize_readLength? hread).2 (by decide)

/-- Half an inch without a leading zero behind a spacer is read as a length, but it is a
subtraction; and a power of ten in the inches is read as one, but it is a name. -/
theorem tokenize_readLength?_split :
    readLength? "5'-.5".toList = some 60.5 ∧
      (tokenize readLength? "5'-.5".toList).toOption.map kindsOf
        = some [.number 60, .minus, .number 0.5, .finish] ∧
      readLength? "5'1e2".toList = some 160 ∧
      (tokenize readLength? "5'1e2".toList).toOption.map kindsOf
        = some [.number 61, .name "e2", .finish] := by
  decide +kernel

end LengthFormula
