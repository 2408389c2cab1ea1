import LengthFormula.Text.LowerCase

/-!
# Lower case stays lower case

No small letter that a capital one is mapped to is itself in a run of capital letters.  So a text in
lower case is its own lower case (`lowerCase_lowerCase`).
-/

namespace LengthFormula

/-- The character is its own small letter, wherever it stands. -/
def isSettled (c : Char) : Bool := c != '\u03A3' && c != '\u0130' && lowerChar c == c

theorem isSettled_iff {c : Char} : isSettled c = true ↔
    c ≠ '\u03A3' ∧ c ≠ '\u0130' ∧ lowerChar c = c := by
  simp [isSettled, and_assoc]

/-! ## The images of the runs -/

namespace CaseRun

/-- The least small letter of a run. -/
def low (run : CaseRun) : Nat := (run.first + run.shift).toNat

/-- The greatest small letter of a run. -/
def high (run : CaseRun) : Nat := (run.last + run.shift).toNat

/-- All code points of a run have the parity of the first one. -/
def keepsParity (run : CaseRun) : Bool := run.first == run.last || run.step % 2 == 0

/-- No small letter of `run` is a capital letter of `other`. -/
def misses (run other : CaseRun) : Bool :=
  Nat.blt other.last run.low || Nat.blt run.high other.first
    || (run.keepsParity && other.keepsParity && (run.low + other.first) % 2 == 1)

/-- The small letters of a run are characters of their own: outside the ASCII range or single, no
surrogates, and no letter that `lowerIn` treats apart. -/
def isSound (run : CaseRun) : Bool :=
  decide (0 ≤ run.first + run.shift)
    && (Nat.blt run.high 0xD800 || (Nat.ble 0xE000 run.low && Nat.blt run.high 0x110000))
    && run.misses ⟨0x3A3, 0x3A3, 1, 0⟩ && run.misses ⟨0x130, 0x130, 1, 0⟩

theorem bounds_of_covers {run : CaseRun} {n : Nat} (h : run.covers n = true) :
    run.first ≤ n ∧ n ≤ run.last ∧ (n - run.first) % run.step = 0 := by
  simpa [covers, and_assoc] using h

theorem parity_of_covers {run : CaseRun} (hparity : run.keepsParity = true) {n : Nat}
    (h : run.covers n = true) : n % 2 = run.first % 2 := by
  obtain ⟨hlo, hhi, hstep⟩ := bounds_of_covers h
  simp only [keepsParity, Bool.or_eq_true, beq_iff_eq] at hparity
  rcases hparity with hone | heven
  · omega
  · obtain ⟨k, hk⟩ := Nat.dvd_of_mod_eq_zero hstep
    obtain ⟨s, hs⟩ := Nat.dvd_of_mod_eq_zero heven
    rw [hs, Nat.mul_assoc] at hk
    omega

/-- What a run maps a letter to lies between its bounds and has their parity. -/
theorem image_of_covers {run : CaseRun} (hsound : 0 ≤ run.first + run.shift) {n : Nat}
    (h : run.covers n = true) :
    run.low ≤ (n + run.shift).toNat ∧ (n + run.shift).toNat ≤ run.high ∧
      (run.keepsParity = true → (n + run.shift).toNat % 2 = run.low % 2) := by
  obtain ⟨hlo, hhi, -⟩ := bounds_of_covers h
  rw [low, high]
  refine ⟨by omega, by omega, ?_⟩
  intro hparity
  have := parity_of_covers hparity h
  omega

/-- A run that misses another one maps no letter into it. -/
theorem covers_image_of_misses {run other : CaseRun} (hsound : 0 ≤ run.first + run.shift)
    (hmisses : run.misses other = true) {n : Nat} (h : run.covers n = true) :
    other.covers (n + run.shift).toNat = false := by
  rw [Bool.eq_false_iff]
  intro hother
  obtain ⟨hlo, hhi, hparity⟩ := image_of_covers hsound h
  obtain ⟨hlo', hhi', -⟩ := bounds_of_covers hother
  simp only [misses, Bool.or_eq_true, Bool.and_eq_true, Nat.blt_eq, beq_iff_eq] at hmisses
  rcases hmisses with (hbelow | habove) | ⟨⟨hrun, hkeeps⟩, hodd⟩
  · omega
  · omega
  · have := hparity hrun
    have := parity_of_covers hkeeps hother
    omega

end CaseRun

/-- The runs of capital letters are sound, and none maps a letter into one of them. -/
def caseRunsSettle : Bool :=
  caseRuns.all fun run => run.isSound && caseRuns.all run.misses

theorem caseRunsSettle_eq : caseRunsSettle = true := by decide +kernel

/-! ## Characters and texts -/

theorem isSettled_toLower {c : Char} (h : c.toNat < 0x80) : isSettled c.toLower = true := by
  have hall : ∀ n < 0x80, isSettled (Char.ofNat n).toLower = true := by decide
  have := hall c.toNat h
  rwa [Char.ofNat_toNat] at this

/-- In the ASCII range the capital letters are one run. -/
theorem toLower_of_covers {c : Char} (h : c.toNat < 0x80)
    (hcovers : CaseRun.covers ⟨0x41, 0x5A, 1, 32⟩ c.toNat = false) : c.toLower = c := by
  have hall : ∀ n < 0x80, CaseRun.covers ⟨0x41, 0x5A, 1, 32⟩ n = false →
      (Char.ofNat n).toLower = Char.ofNat n := by decide
  have := hall c.toNat h hcovers
  rwa [Char.ofNat_toNat] at this

theorem toNat_ofNat {n : Nat} (h : n < 0xD800 ∨ 0xE000 ≤ n ∧ n < 0x110000) :
    (Char.ofNat n).toNat = n := by
  have hvalid : n.isValidChar := by
    rw [Nat.isValidChar]
    omega
  rw [Char.ofNat, dif_pos hvalid]
  rfl

theorem isSettled_lowerChar {c : Char} (hsigma : c ≠ '\u03A3') (hdotted : c ≠ '\u0130') :
    isSettled (lowerChar c) = true := by
  by_cases hascii : c.toNat < 0x80
  · rw [lowerChar, if_pos hascii]
    exact isSettled_toLower hascii
  · cases hfind : caseRuns.find? (·.covers c.toNat) with
    | none =>
      have hsame : lowerChar c = c := by simp only [lowerChar, if_neg hascii, hfind]
      rw [hsame]
      exact isSettled_iff.2 ⟨hsigma, hdotted, hsame⟩
    | some run =>
      have himage : lowerChar c = Char.ofNat (c.toNat + run.shift).toNat := by
        simp only [lowerChar, if_neg hascii, hfind]
      have hcovers : run.covers c.toNat = true := by simpa using List.find?_some hfind
      have hrun := List.all_eq_true.1 caseRunsSettle_eq run (List.mem_of_find?_eq_some hfind)
      rw [Bool.and_eq_true] at hrun
      obtain ⟨hsound, hmisses⟩ := hrun
      simp only [CaseRun.isSound, Bool.and_eq_true, Bool.or_eq_true, decide_eq_true_eq,
        Nat.blt_eq, Nat.ble_eq] at hsound
      obtain ⟨⟨⟨hpos, hvalid⟩, hnosigma⟩, hnodotted⟩ := hsound
      obtain ⟨hlo, hhi, -⟩ := CaseRun.image_of_covers hpos hcovers
      have hnat : (lowerChar c).toNat = (c.toNat + run.shift).toNat := by
        rw [himage]
        exact toNat_ofNat (by omega)
      have houtside : ∀ other, run.misses other = true →
          other.covers (lowerChar c).toNat = false := by
        intro other hother
        rw [hnat]
        exact CaseRun.covers_image_of_misses hpos hother hcovers
      refine isSettled_iff.2 ⟨?_, ?_, ?_⟩
      · intro heq
        have := houtside _ hnosigma
        rw [heq] at this
        revert this
        decide
      · intro heq
        have := houtside _ hnodotted
        rw [heq] at this
        revert this
        decide
      · by_cases hsmall : (lowerChar c).toNat < 0x80
        · have hcapital := houtside _ (List.all_eq_true.1 hmisses ⟨0x41, 0x5A, 1, 32⟩ (.head _))
          rw [lowerChar.eq_def (lowerChar c), if_pos hsmall]
          exact toLower_of_covers hsmall hcapital
        · have hnone : caseRuns.find? (·.covers (lowerChar c).toNat) = none := by
            rw [List.find?_eq_none]
            intro other hother
            rw [houtside other (List.all_eq_true.1 hmisses other hother)]
            exact Bool.false_ne_true
          rw [lowerChar.eq_def (lowerChar c), if_neg hsmall, hnone]

/-- Every character that lower case gives is settled. -/
theorem isSettled_of_mem_lowerIn {before after : List Char} {c d : Char}
    (h : d ∈ lowerIn before c after) : isSettled d = true := by
  unfold lowerIn at h
  split at h
  · split at h
    · rw [List.mem_singleton.1 h]
      decide
    · rw [List.mem_singleton.1 h]
      decide
  · next hsigma =>
    split at h
    · simp only [List.mem_cons, List.not_mem_nil, or_false] at h
      rcases h with rfl | rfl
      · decide
      · decide
    · next hdotted =>
      rw [List.mem_singleton.1 h]
      exact isSettled_lowerChar hsigma hdotted

theorem isSettled_of_mem_lowerFrom {before cs : List Char} {d : Char}
    (h : d ∈ lowerFrom before cs) : isSettled d = true := by
  induction cs generalizing before with
  | nil => cases h
  | cons c cs ih =>
    rw [lowerFrom] at h
    rcases List.mem_append.1 h with h | h
    · exact isSettled_of_mem_lowerIn h
    · exact ih h

/-- Lower case leaves settled characters as they are. -/
theorem lowerFrom_of_settled {before cs : List Char} (h : ∀ c ∈ cs, isSettled c = true) :
    lowerFrom before cs = cs := by
  induction cs generalizing before with
  | nil => rfl
  | cons c cs ih =>
    obtain ⟨hsigma, hdotted, hlower⟩ := isSettled_iff.1 (h c List.mem_cons_self)
    rw [lowerFrom, ih fun d hd => h d (List.mem_cons_of_mem _ hd), lowerIn, if_neg hsigma,
      if_neg hdotted, hlower]
    rfl

/-- A text in lower case is its own lower case. -/
@[simp]
theorem lowerCase_lowerCase (s : String) : lowerCase (lowerCase s) = lowerCase s := by
  have hsettled : lowerChars (lowerChars s.toList) = lowerChars s.toList :=
    lowerFrom_of_settled fun _ hc => isSettled_of_mem_lowerFrom hc
  rw [lowerCase, toList_lowerCase, hsettled]
  rfl

end LengthFormula
