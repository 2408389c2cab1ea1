import LengthFormula.Json.Fields
import LengthFormula.Json.Reader
import LengthFormula.Proofs.Decimal.Parts
import LengthFormula.Proofs.Double.Bits

/-!
# The text of JSON numbers

`NumberText` is the form of a JSON number.  Such a text is read in front of whatever does not
continue it (`numberText?_append`).  The text that is written for a finite double has this form
(`numberText_chars`) and is read as the double, bit for bit (`readDouble?_chars`).
-/

namespace LengthFormula

namespace Json

/-! ## The form of a number -/

/-- The digits in front of the point: a zero, or digits that do not start with one. -/
inductive WholeText : List Char → Prop
  | zero : WholeText ['0']
  | digits {c : Char} {cs : List Char} : IsDigits (c :: cs) → c ≠ '0' → WholeText (c :: cs)

/-- A point with digits behind it, or nothing. -/
inductive PointText : List Char → Prop
  | none : PointText []
  | digits {ds : List Char} : IsDigits ds → PointText ('.' :: ds)

/-- A number without a sign: whole digits, an optional point with digits, and an optional power of
ten. -/
inductive MagnitudeText : List Char → Prop
  | mk {whole part power : List Char} :
      WholeText whole → PointText part → PowerText power → MagnitudeText (whole ++ part ++ power)

/-- A number: an optional minus and a number without a sign. -/
inductive NumberText : List Char → Prop
  | positive {text : List Char} : MagnitudeText text → NumberText text
  | negative {text : List Char} : MagnitudeText text → NumberText ('-' :: text)

/-- No number goes on with this text. -/
def EndsNumber (rest : List Char) : Prop :=
  startsWith isNumberLead rest = false ∧ startsWith isExponentMark rest = false

section Reading

variable {rest : List Char}

theorem someDigits?_append {ds : List Char} (h : IsDigits ds)
    (hrest : startsWith isDigit rest = false) : someDigits? (ds ++ rest) = some (ds, rest) := by
  obtain ⟨hne, hdigits⟩ := h
  have hstart : someDigits?.startsWithDigit (ds ++ rest) = true := by
    obtain ⟨d, ds, rfl⟩ := List.exists_cons_of_ne_nil hne
    simp [someDigits?.startsWithDigit, hdigits d List.mem_cons_self]
  rw [someDigits?, if_pos hstart, takeWhile_append_exact hdigits hrest,
    dropWhile_append_exact hdigits hrest]

theorem WholeText.wholeDigits?_append {whole : List Char} (h : WholeText whole)
    (hrest : startsWith isDigit rest = false) :
    wholeDigits? (whole ++ rest) = some (whole, rest) := by
  cases h with
  | zero => rfl
  | @digits c cs hdigits hzero =>
    have hfirst : wholeDigits? (c :: cs ++ rest) = someDigits? (c :: cs ++ rest) := by
      unfold wholeDigits?
      split
      · next heq => exact absurd (List.cons.inj heq).1 hzero
      · rfl
    rw [hfirst, someDigits?_append hdigits hrest]

theorem PointText.pointDigits?_append {part : List Char} (h : PointText part)
    (hrest : startsWith isNumberLead rest = false) :
    pointDigits? (part ++ rest) = some (part, rest) := by
  cases h with
  | none =>
    unfold pointDigits?
    split
    · next heq =>
      rw [List.nil_append] at heq
      rw [heq] at hrest
      cases hrest
    · rfl
  | digits hds =>
    rw [List.cons_append, pointDigits?,
      someDigits?_append hds (startsWith_isDigit_of_isNumberLead hrest)]
    rfl

theorem powerDigits?_append {power : List Char} (h : PowerText power) (hrest : EndsNumber rest) :
    powerDigits? (power ++ rest) = some (power, rest) := by
  have hdigit := startsWith_isDigit_of_isNumberLead hrest.1
  cases h with
  | none =>
    cases rest with
    | nil => rfl
    | cons c rest =>
      have hmark := hrest.2
      rw [startsWith_cons] at hmark
      simp [powerDigits?, hmark]
  | @unsigned mark ds hexp hds =>
    obtain ⟨d, ds, rfl⟩ := List.exists_cons_of_ne_nil hds.1
    have hd := isSign_of_isNumberLead (isNumberLead_of_isDigit (hds.2 d List.mem_cons_self))
    have hread := someDigits?_append hds hdigit
    rw [List.cons_append] at hread
    simp only [List.cons_append, powerDigits?, hexp, if_true, hd, Bool.false_eq_true, if_false,
      hread, Option.map_some]
  | signed hexp hsign hds =>
    simp only [List.cons_append, powerDigits?, hexp, if_true, hsign, someDigits?_append hds hdigit,
      Option.map_some]

theorem WholeText.exists_cons {whole : List Char} (h : WholeText whole) :
    ∃ c cs, whole = c :: cs ∧ isDigit c = true := by
  cases h with
  | zero => exact ⟨'0', [], rfl, rfl⟩
  | @digits c cs hdigits => exact ⟨c, cs, rfl, hdigits.2 c List.mem_cons_self⟩

namespace MagnitudeText

variable {text : List Char}

theorem magnitudeText?_append (h : MagnitudeText text) (hrest : EndsNumber rest) :
    magnitudeText? (text ++ rest) = some (text, rest) := by
  obtain ⟨hwhole, hpart, hpower⟩ := h
  next whole part power =>
  have hlead := hpower.startsWith_append hrest.1
  have hdigit : startsWith isDigit (part ++ (power ++ rest)) = false := by
    cases hpart with
    | none => exact startsWith_isDigit_of_isNumberLead hlead
    | digits => rfl
  simp only [magnitudeText?, List.append_assoc, hwhole.wholeDigits?_append hdigit,
    hpart.pointDigits?_append hlead, powerDigits?_append hpower hrest]

/-- A number without a sign starts with a digit. -/
theorem exists_cons (h : MagnitudeText text) : ∃ c cs, text = c :: cs ∧ isDigit c = true := by
  obtain ⟨hwhole, -, -⟩ := h
  obtain ⟨c, cs, rfl, hc⟩ := hwhole.exists_cons
  exact ⟨c, _, rfl, hc⟩

end MagnitudeText

/-- A number is read in front of whatever does not continue it. -/
theorem numberText?_append {text : List Char} (h : NumberText text) (hrest : EndsNumber rest) :
    numberText? (text ++ rest) = some (text, rest) := by
  cases h with
  | positive h =>
    rw [← h.magnitudeText?_append hrest]
    obtain ⟨c, cs, rfl, hc⟩ := h.exists_cons
    unfold numberText?
    split
    · next heq =>
      rw [(List.cons.inj heq).1] at hc
      cases hc
    · rfl
  | negative h =>
    rw [List.cons_append, numberText?, h.magnitudeText?_append hrest]
    rfl

/-- A number starts with a digit or a minus. -/
theorem NumberText.exists_cons {text : List Char} (h : NumberText text) :
    ∃ c cs, text = c :: cs ∧ (isDigit c = true ∨ c = '-') := by
  cases h with
  | positive h =>
    obtain ⟨c, cs, rfl, hc⟩ := h.exists_cons
    exact ⟨c, cs, rfl, .inl hc⟩
  | negative => exact ⟨'-', _, rfl, .inr rfl⟩

end Reading

end Json

/-! ## The text of a finite double -/

namespace Significant

/-- The digits start with a zero only where they are the zero itself. -/
structure IsNormal (s : Significant) : Prop where
  isDigits : IsDigits s.digits
  zero : s.digits.head? = some '0' → s.digits = ['0'] ∧ s.exponent = 0

theorem head?_toDigits {n : Nat} (h : 0 < n) : (Nat.toDigits 10 n).head? ≠ some '0' := by
  induction n using Nat.strongRecOn with
  | _ n ih =>
    by_cases hlt : n < 10
    · rw [Nat.toDigits_of_lt_base hlt, List.head?_cons]
      simpa using Nat.ne_of_gt h
    · rw [Nat.toDigits_of_base_le (by decide) (Nat.not_lt.1 hlt),
        List.head?_append_of_ne_nil _ Nat.toDigits_ne_nil]
      exact ih (n / 10) (by omega) (by omega)

/-- The digits of a decimal that is not zero do not start with a zero. -/
theorem head?_ofDecimal {d : Decimal} (h : 0 < d.coefficient) :
    (ofDecimal d).digits.head? ≠ some '0' := by
  have hhead := head?_toDigits h
  obtain ⟨j, hj⟩ := exists_zeros (Nat.toDigits 10 d.coefficient)
  simp only [ofDecimal]
  generalize ((Nat.toDigits 10 d.coefficient).reverse.dropWhile (· == '0')).reverse = kept at hj ⊢
  rw [hj] at hhead
  cases kept with
  | nil =>
    cases j with
    | zero => exact absurd hj Nat.toDigits_ne_nil
    | succ j => exact absurd rfl hhead
  | cons c kept => exact hhead

/-- The digits of a finite magnitude are normal. -/
theorem isNormal_shortest (tie : Tie) {k : Nat} (h : k < Double.infinityMagnitude) :
    (ofDecimal (Decimal.shortest tie k)).IsNormal := by
  refine ⟨isDigits_ofDecimal _, fun hhead => ?_⟩
  by_cases hk : k = 0
  · rw [hk]
    simp [Decimal.shortest, ofDecimal]
  · refine absurd hhead (head?_ofDecimal ?_)
    rw [Nat.pos_iff_ne_zero]
    intro hzero
    have hmagnitude := Decimal.magnitude_shortest tie h
    generalize Decimal.shortest tie k = d at hzero hmagnitude
    obtain ⟨n, e⟩ := d
    subst hzero
    rw [Decimal.magnitude_zero] at hmagnitude
    exact hk hmagnitude.symm

section Text

open Json

variable {s : Significant}

theorem IsNormal.exists_cons (h : s.IsNormal) :
    ∃ d ds, s.digits = d :: ds ∧ isDigit d = true ∧ (∀ c ∈ ds, isDigit c = true) ∧
      (d = '0' → ds = [] ∧ s.exponent = 0) := by
  obtain ⟨d, ds, hdigits⟩ := List.exists_cons_of_ne_nil h.isDigits.1
  have hall := h.isDigits.2
  have hzero := h.zero
  rw [hdigits] at hall hzero
  refine ⟨d, ds, hdigits, hall d List.mem_cons_self, fun c hc => hall c (List.mem_cons_of_mem d hc),
    fun hd => ?_⟩
  obtain ⟨heq, hexponent⟩ := hzero (by rw [hd, List.head?_cons])
  exact ⟨(List.cons.inj heq).2, hexponent⟩

/-- The digits in front of the point stand as they are, or are a single zero. -/
theorem wholeText_cons {d : Char} {ds : List Char} (hd : isDigit d = true)
    (hds : ∀ c ∈ ds, isDigit c = true) (hzero : d = '0' → ds = []) : WholeText (d :: ds) := by
  by_cases h : d = '0'
  · rw [h, hzero h]
    exact .zero
  · refine .digits ⟨List.cons_ne_nil d ds, fun c hc => ?_⟩ h
    rcases List.mem_cons.1 hc with rfl | hc
    · exact hd
    · exact hds c hc

theorem isDigit_of_mem_zeros {j : Nat} {c : Char} (h : c ∈ List.replicate j '0') :
    isDigit c = true := by
  rw [List.eq_of_mem_replicate h]
  rfl

/-- Without a power of ten, normal digits stand around a point. -/
theorem IsNormal.exists_plain (h : s.IsNormal) :
    ∃ whole part, s.plain true = whole ++ '.' :: part ∧ WholeText whole ∧ IsDigits part := by
  obtain ⟨d, ds, hdigits, hd, hds, hzero⟩ := h.exists_cons
  by_cases hexponent : 0 ≤ s.exponent
  · by_cases hlength : (d :: ds).length ≤ s.exponent.toNat + 1
    · -- zeros up to the point, and one behind it
      refine ⟨d :: (ds ++ List.replicate (s.exponent.toNat + 1 - (d :: ds).length) '0'), ['0'],
        ?_, wholeText_cons hd ?_ ?_, by simp, by simp [isDigit_zero]⟩
      · simp only [plain, hdigits, if_pos hexponent, if_pos hlength, if_true, List.cons_append]
      · intro c hc
        exact (List.mem_append.1 hc).elim (hds c) isDigit_of_mem_zeros
      · intro h0
        obtain ⟨rfl, he⟩ := hzero h0
        simp [he]
    · refine ⟨d :: ds.take s.exponent.toNat, ds.drop s.exponent.toNat,
        ?_, wholeText_cons hd ?_ ?_, ?_, ?_⟩
      · simp only [plain, hdigits, if_pos hexponent, if_neg hlength, List.take_succ_cons,
          List.drop_succ_cons, List.append_assoc, List.singleton_append]
      · exact fun c hc => hds c (List.mem_of_mem_take hc)
      · intro h0
        rw [(hzero h0).1, List.take_nil]
      · simpa using hlength
      · exact fun c hc => hds c (List.mem_of_mem_drop hc)
  · -- zeros between the point and the digits
    refine ⟨['0'], List.replicate (-s.exponent - 1).toNat '0' ++ d :: ds, ?_, .zero, by simp, ?_⟩
    · simp only [plain, hdigits, if_neg hexponent, List.append_assoc, List.cons_append,
        List.nil_append]
    · intro c hc
      refine (List.mem_append.1 hc).elim isDigit_of_mem_zeros fun hc => ?_
      exact (List.mem_cons.1 hc).elim (fun h => h ▸ hd) (hds c)

/-- The digits behind the first one, with the point in front of them. -/
def pointed : List Char → List Char
  | [] => []
  | d :: ds => '.' :: d :: ds

/-- The sign of a power of ten. -/
def powerSign (e : Int) : Char := if e < 0 then '-' else '+'

theorem scientific_of_cons {d : Char} {ds : List Char} (h : s.digits = d :: ds) :
    s.scientific true
      = [d] ++ pointed ds ++ 'e' :: powerSign s.exponent :: Nat.toDigits 10 s.exponent.natAbs := by
  have hpower : (if s.exponent < 0 then '-' :: Nat.toDigits 10 s.exponent.natAbs
      else '+' :: Nat.toDigits 10 s.exponent.natAbs)
      = powerSign s.exponent :: Nat.toDigits 10 s.exponent.natAbs := by
    rw [powerSign]
    split <;> rfl
  cases ds <;> simp [scientific, h, pointed, hpower]

theorem pointText_pointed {ds : List Char} (h : ∀ c ∈ ds, isDigit c = true) :
    PointText (pointed ds) := by
  cases ds with
  | nil => exact .none
  | cons d ds => exact .digits ⟨List.cons_ne_nil d ds, h⟩

theorem fractionDigits_pointed {ds rest : List Char} (h : ∀ c ∈ ds, isDigit c = true)
    (hrest : startsWith isNumberLead rest = false) :
    fractionDigits (pointed ds ++ rest) = (ds, rest) := by
  cases ds with
  | nil => exact fractionDigits_of_startsWith (startsWith_isDot_of_isNumberLead hrest)
  | cons d ds => exact fractionDigits_dot h (startsWith_isDigit_of_isNumberLead hrest)

theorem isDigits_toDigits (n : Nat) : IsDigits (Nat.toDigits 10 n) :=
  ⟨Nat.toDigits_ne_nil, fun _ hc => Nat.isDigit_of_mem_toDigits (by decide) (by decide) hc⟩

theorem readNatural?_toDigits (n : Nat) : readNatural? (Nat.toDigits 10 n) = some n := by
  rw [readNatural?_of_isDigits (isDigits_toDigits n), Nat.ofDigitChars_ten_toDigits]

theorem readInteger?_power (e : Int) :
    readInteger? (powerSign e :: Nat.toDigits 10 e.natAbs) = some e := by
  by_cases h : e < 0
  · have hvalue : some (-(e.natAbs : Int)) = some e := by congr 1; omega
    rwa [powerSign, if_pos h, readInteger?, readNatural?_toDigits]
  · have hvalue : some (e.natAbs : Int) = some e := by congr 1; omega
    rwa [powerSign, if_neg h, readInteger?, readNatural?_toDigits]

theorem isSign_powerSign (e : Int) : isSign (powerSign e) = true := by
  rw [powerSign]
  split <;> rfl

/-- Normal digits are written as a number. -/
theorem IsNormal.magnitudeText_scientific (h : s.IsNormal) : MagnitudeText (s.scientific true) := by
  obtain ⟨d, ds, hdigits, hd, hds, hzero⟩ := h.exists_cons
  rw [scientific_of_cons hdigits]
  exact .mk (wholeText_cons hd (by simp) fun _ => rfl) (pointText_pointed hds)
    (.signed rfl (isSign_powerSign _) (isDigits_toDigits _))

/-- Digits with a power of ten are read as their decimal. -/
theorem IsNormal.read?_scientific (h : s.IsNormal) :
    Decimal.read? (s.scientific true) = some s.toDecimal := by
  obtain ⟨d, ds, hdigits, hd, hds, -⟩ := h.exists_cons
  have hwhole : ∀ c ∈ [d], isDigit c = true := by simpa using hd
  have hrest : startsWith isDigit (pointed ds ++ 'e' :: powerSign s.exponent ::
      Nat.toDigits 10 s.exponent.natAbs) = false := by
    cases ds <;> rfl
  have hpower : readExponent? ('e' :: powerSign s.exponent :: Nat.toDigits 10 s.exponent.natAbs)
      = some s.exponent := by
    rw [← readInteger?_power s.exponent]
    rfl
  have hfraction : fractionDigits (pointed ds ++ 'e' :: powerSign s.exponent ::
      Nat.toDigits 10 s.exponent.natAbs) = (ds, _) := fractionDigits_pointed hds rfl
  rw [scientific_of_cons hdigits, List.append_assoc]
  simp only [Decimal.read?, takeWhile_append_exact hwhole hrest,
    dropWhile_append_exact hwhole hrest, hfraction, hpower]
  rw [if_neg (by simp), Option.map_some, toDecimal, hdigits]
  congr 2
  rw [List.length_cons]
  omega

end Text

end Significant

/-! ## Writing and reading -/

namespace Layout

variable {k : Nat}

/-- The text of a finite magnitude is a number, and a decimal that rounds to the magnitude. -/
theorem json_magnitudeText (h : k < Double.infinityMagnitude) :
    Json.MagnitudeText (json.magnitudeText k) ∧
      ∃ d, Decimal.read? (json.magnitudeText k) = some d ∧ d.magnitude = k := by
  have hnormal := Significant.isNormal_shortest .even h
  have hmagnitude := (Significant.magnitude_toDecimal_ofDecimal (Decimal.shortest .even k)).trans
    (Decimal.magnitude_shortest .even h)
  simp only [magnitudeText, show json.tie = .even from rfl, show json.keepsPoint = true from rfl,
    show json.plusSign = true from rfl]
  split
  · obtain ⟨whole, part, heq, hwhole, hpart⟩ := hnormal.exists_plain
    obtain ⟨d, hd, hround⟩ := Significant.plainDecimal_plain hnormal.isDigits true
    refine ⟨?_, d, hd.read?_eq, hround.trans hmagnitude⟩
    have hmk := Json.MagnitudeText.mk hwhole (.digits hpart) .none
    rwa [List.append_nil, ← heq] at hmk
  · exact ⟨hnormal.magnitudeText_scientific, _, hnormal.read?_scientific, hmagnitude⟩

end Layout

theorem readMagnitude?_of_isDigit {c : Char} {cs : List Char} (h : isDigit c = true)
    (negative : Bool) :
    readMagnitude? negative (c :: cs) = (Decimal.read? (c :: cs)).map (·.toDouble negative) := by
  have hi : c ≠ 'i' := ne_of_class h rfl
  have hn : c ≠ 'n' := ne_of_class h rfl
  simp [readMagnitude?, toLower_of_isDigit h, hi, hn]

theorem readDouble?_of_isDigit {c : Char} {cs : List Char} (h : isDigit c = true) :
    readDouble? (c :: cs) = readMagnitude? false (c :: cs) := by
  unfold readDouble?
  split
  · next heq => rw [(List.cons.inj heq).1] at h; cases h
  · next heq => rw [(List.cons.inj heq).1] at h; cases h
  · rfl

section Doubles

variable {x : Float}

/-- The text of a finite double is a number. -/
theorem numberText_chars (h : Double.isFinite x = true) :
    Json.NumberText (Layout.json.chars x) := by
  have htext := (Layout.json_magnitudeText (Double.magnitude_lt h)).1
  rw [Layout.chars_of_isFinite Layout.json h]
  split
  · exact .negative htext
  · exact .positive htext

/-- The text of a finite double is read as the double, bit for bit. -/
theorem readDouble?_chars (h : Double.isFinite x = true) :
    readDouble? (Layout.json.chars x) = some x := by
  obtain ⟨htext, d, hd, hround⟩ := Layout.json_magnitudeText (Double.magnitude_lt h)
  obtain ⟨c, cs, heq, hc⟩ := htext.exists_cons
  have hdouble : ∀ negative, (Decimal.read? (c :: cs)).map (·.toDouble negative)
      = some (Double.ofMagnitude negative (Double.magnitude x)) := by
    intro negative
    rw [← heq, hd, Option.map_some, Decimal.toDouble, hround]
  have hx := Double.ofMagnitude_magnitude h
  rw [Layout.chars_of_isFinite Layout.json h, heq]
  cases hsign : Double.isNegative x with
  | true =>
    rw [hsign] at hx
    rw [if_pos rfl, List.singleton_append, readDouble?, readMagnitude?_of_isDigit hc, hdouble, hx]
  | false =>
    rw [hsign] at hx
    rw [if_neg Bool.false_ne_true, List.nil_append, readDouble?_of_isDigit hc,
      readMagnitude?_of_isDigit hc, hdouble, hx]

/-- What is written for a double is read as the double where it is finite, and as none where it is
not. -/
theorem Json.asDouble?_ofDouble (x : Float) :
    (Json.ofDouble x).asDouble? = if Double.isFinite x then some x else none := by
  rw [ofDouble]
  split
  · next h => rw [asDouble?, readDouble?_chars h, Option.filter_some, if_pos h]
  · rfl

end Doubles

end LengthFormula
