import LengthFormula.Text.CharClass

/-!
# Scanning decimals

`scanDecimal` cuts the longest decimal off the front of a text: digits and points, and a power of
ten where at least one digit follows its mark.  Whether the digits and points make a number is left
to the reader of decimals.
-/

namespace LengthFormula

/-- The first character is there and belongs to the class. -/
def startsWith (p : Char → Bool) (cs : List Char) : Bool := cs.head?.any p

@[simp]
theorem startsWith_nil (p : Char → Bool) : startsWith p [] = false := rfl

@[simp]
theorem startsWith_cons (p : Char → Bool) (c : Char) (cs : List Char) :
    startsWith p (c :: cs) = p c := by
  simp [startsWith]

/-- The power of ten at the front of a text: the mark, an optional sign and the digits, or nothing
where no digit follows. -/
def powerPart : List Char → List Char
  | [] => []
  | mark :: cs =>
    if isExponentMark mark then
      match cs with
      | [] => []
      | c :: ds =>
        if isDigit c then mark :: (c :: ds).takeWhile isDigit
        else if isSign c && startsWith isDigit ds then mark :: c :: ds.takeWhile isDigit
        else []
    else []

/-- The decimal at the front of a text. -/
def decimalPart (cs : List Char) : List Char :=
  cs.takeWhile isNumberLead ++ powerPart (cs.dropWhile isNumberLead)

/-- Cuts the decimal off the front of a text. -/
def scanDecimal (cs : List Char) : List Char × List Char :=
  (decimalPart cs, cs.drop (decimalPart cs).length)

/-- A power of ten is cut from the front. -/
theorem powerPart_isPrefix (cs : List Char) : powerPart cs <+: cs := by
  unfold powerPart
  split
  · exact List.nil_prefix
  · split
    · split
      · exact List.nil_prefix
      · split
        · exact (List.cons_prefix_cons).2 ⟨rfl, List.takeWhile_prefix _⟩
        · split
          · exact (List.cons_prefix_cons).2
              ⟨rfl, (List.cons_prefix_cons).2 ⟨rfl, List.takeWhile_prefix _⟩⟩
          · exact List.nil_prefix
    · exact List.nil_prefix

/-- A decimal is cut from the front. -/
theorem decimalPart_isPrefix (cs : List Char) : decimalPart cs <+: cs := by
  have h : cs.takeWhile isNumberLead ++ cs.dropWhile isNumberLead = cs :=
    List.takeWhile_append_dropWhile
  have := (List.prefix_append_right_inj (cs.takeWhile isNumberLead)).2
    (powerPart_isPrefix (cs.dropWhile isNumberLead))
  rwa [h] at this

/-- Nothing is lost: the decimal and the rest make up the text. -/
theorem scanDecimal_append (cs : List Char) :
    (scanDecimal cs).1 ++ (scanDecimal cs).2 = cs := by
  obtain ⟨t, ht⟩ := decimalPart_isPrefix cs
  simp only [scanDecimal]
  conv => lhs; arg 2; arg 2; rw [← ht]
  rw [List.drop_left]
  exact ht

end LengthFormula
