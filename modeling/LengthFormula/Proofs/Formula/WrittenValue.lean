import LengthFormula.Proofs.Formula.Acceptance
import LengthFormula.Proofs.Formula.ValueText

/-!
# The text of a value as a formula

The text that stands for a fixed value is itself a formula, and its tree is just the value
(`Formula.parse_valueText`).  The scanner takes the digits of a value alone as one literal, and in
parentheses as one literal with the minus in front (`cut_ofValue`); there are no names in such a
text, so nothing is put in.
-/

namespace LengthFormula

section Value

variable {scope : Scope} {x : Float}

/-- The text of a value is cut into its lexemes. -/
theorem cut_ofValue (h : Double.isFinite x = true) :
    Cut readLength? none (Lexeme.ofValue [] x) [] := by
  obtain ⟨d, hd, hx⟩ := exists_plainDecimal h
  obtain ⟨c, ds, hcons, hc⟩ := hd.exists_cons
  have hnil : ∀ c ∈ ([] : List Char), isBlank c = true := List.forall_mem_nil _
  unfold Lexeme.ofValue
  split
  · next hnegative =>
    rw [if_pos hnegative] at hx
    have hopens : opensNumber (digitsOf x ++ [')']) = true := by
      rw [hcons, List.cons_append]
      exact opensNumber_of_isDigit hc
    have hminus := hd.scanNumber_minus []
    rw [hx] at hminus
    -- the sign belongs to the number because of the parenthesis in front of it
    have hat : atNumber (some .leftParen) ('-' :: (digitsOf x ++ [')'])) = true := by
      have hblank : (digitsOf x ++ [')']).dropWhile isBlank = digitsOf x ++ [')'] := by
        rw [hcons, List.cons_append, List.dropWhile_cons,
          isBlank_of_isWord (isWord_of_isDigit hc)]
        rfl
      rw [← hblank] at hopens
      exact hopens
    refine cut_cons_iff.2 ⟨hnil, by decide, ⟨rfl, rfl, (absurd · Bool.false_ne_true)⟩, ?_⟩
    have hsign : isBlank '-' = false := by decide
    refine cut_cons_iff.2 ⟨hnil, hsign, ⟨hat, hminus⟩, ?_⟩
    exact cut_cons_iff.2
      ⟨hnil, by decide, ⟨rfl, rfl, (absurd · Bool.false_ne_true)⟩, hnil⟩
  · next hnegative =>
    rw [if_neg hnegative] at hx
    have hscan := hd.scanNumber_eq
    rw [hx] at hscan
    have hchars : Lexeme.chars ⟨[], .number x, (digitsOf x).headD '0', (digitsOf x).tail⟩
        = digitsOf x := digitsOf_eq_cons h
    refine cut_cons_iff.2 ⟨hnil, ?_, ?_, hnil⟩
    · rw [hcons]
      exact isBlank_of_isWord (isWord_of_isDigit hc)
    · show atNumber none (Lexeme.chars _ ++ []) = true ∧
        scanNumber readLength? (Lexeme.chars _ ++ []) = .ok (.number x, Lexeme.chars _)
      rw [hchars, List.append_nil]
      refine ⟨?_, hscan⟩
      rw [hcons]
      exact atNumber_of_isDigit hc

/-- The tokens of a value are a sum with the value as its tree. -/
theorem derives_valueKinds (scope : Scope) (x : Float) :
    Derives scope 1 (.chain .sum) (valueKinds x ++ [.finish]) (.number x) [.finish] := by
  have hsum : ∀ {levels : Nat} {ks rest : List TokenKind} {t : Term},
      Derives scope levels .atom ks t rest → Derives scope levels (.chain .sum) ks t rest :=
    fun hatom =>
      .operand (c := .sum) (.operand (c := .product) (.operand (c := .power) hatom))
  unfold valueKinds
  split
  · exact hsum (.paren (hsum .number))
  · exact hsum .number

/-- Nothing is put into a row without names. -/
theorem written_of_forall_ne_name {ls : List Lexeme} (h : ∀ l ∈ ls, ∀ name, l.kind ≠ .name name)
    (trail : List Char) : written scope ls trail = textOf ls trail := by
  induction ls with
  | nil => rfl
  | cons l ls ih =>
    have hl : l.replacement? scope ls = none := by
      unfold Lexeme.replacement?
      split
      · next name hname => exact absurd hname (h l List.mem_cons_self name)
      · rfl
    rw [written, hl, ih fun l' hl' => h l' (List.mem_cons_of_mem l hl')]
    rfl

theorem Lexeme.kind_ne_name_of_mem_ofValue {gap : List Char} {l : Lexeme}
    (h : l ∈ ofValue gap x) (name : String) : l.kind ≠ .name name := by
  have hkind : l.kind ∈ valueKinds x := by
    rw [← map_kind_ofValue gap]
    exact List.mem_map_of_mem h
  rintro hname
  rw [hname] at hkind
  unfold valueKinds at hkind
  split at hkind <;> simp at hkind

end Value

namespace Formula

/-- The text of a finite value reads back: in every scope it is a formula that is this very value,
the negative zero and the smallest numbers included, and it is its own translated text. -/
theorem parse_valueText (scope : Scope) {x : Float} (h : Double.isFinite x = true) :
    parse scope readLength? (valueText x) = .ok ⟨.number x, valueText x⟩ := by
  have htext : (valueText x).toList = textOf (Lexeme.ofValue [] x) [] := by
    rw [Lexeme.textOf_ofValue [] h, List.nil_append, List.append_nil]
  have hderives := derives_valueKinds scope x
  rw [← Lexeme.map_kind_ofValue []] at hderives
  rcases parse_of_derives htext (cut_ofValue h) hderives with ⟨f, hf, hterm⟩ | ⟨hlimits, -⟩
  · obtain ⟨ls, trail, htext', hcut, -, -, htranslated⟩ := exists_of_parse hf
    obtain ⟨rfl, rfl⟩ := cut_unique (cut_ofValue h) hcut (htext.symm.trans htext')
    rw [written_of_forall_ne_name fun l hl => Lexeme.kind_ne_name_of_mem_ofValue hl, ← htext,
      String.ofList_toList] at htranslated
    rw [hf, ← hterm, ← htranslated]
  · have hheight : (Term.number x).height ≤ maxDepth := one_le_maxDepth
    exact absurd ⟨one_le_maxDepth, hheight⟩ hlimits

/-- The text of the negative zero is the negative zero. -/
theorem parse_valueText_negZero :
    parse Scope.initial readLength? "(-0)" = .ok ⟨.number (-0.0), "(-0)"⟩ := by
  have htext : valueText (-0.0) = "(-0)" := by decide +kernel
  have hparse := parse_valueText Scope.initial (x := -0.0) (by decide +kernel)
  rwa [htext] at hparse

end Formula

end LengthFormula
