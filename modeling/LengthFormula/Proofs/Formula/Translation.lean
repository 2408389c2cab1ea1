import LengthFormula.Proofs.Formula.Parsing

/-!
# The translated text

The edits of a row of lexemes put new text in the places of single lexemes and leave all white space
and all other lexemes as they are (`applyEdits_editsOf`).
-/

namespace LengthFormula

/-! ## Bytes at the front of a text -/

theorem charsWithin_zero (count : Nat) (cs : List Char) : charsWithin count 0 cs = count := by
  cases cs <;> rfl

theorem charsWithin_add (count more bytes : Nat) (cs : List Char) :
    charsWithin (count + more) bytes cs = charsWithin count bytes cs + more := by
  induction cs generalizing count bytes with
  | nil => cases bytes <;> rfl
  | cons c cs ih =>
    cases bytes with
    | zero => rfl
    | succ bytes =>
      rw [charsWithin, charsWithin, Nat.add_right_comm, ih]

/-- The characters of a text whose bytes are counted in are counted in. -/
theorem charsWithin_append (a cs : List Char) (count bytes : Nat) :
    charsWithin count (utf8Length a + bytes) (a ++ cs)
      = charsWithin count bytes cs + a.length := by
  induction a generalizing count with
  | nil => simp
  | cons c a ih =>
    obtain ⟨b, hb⟩ : ∃ b, utf8Length (c :: a) + bytes = b + 1 :=
      ⟨utf8Length (c :: a) + bytes - 1, by
        have := c.utf8Size_pos
        rw [utf8Length_cons]
        omega⟩
    have hrest : b + 1 - c.utf8Size = utf8Length a + bytes := by
      rw [← hb, utf8Length_cons]
      omega
    rw [hb, List.cons_append, charsWithin, hrest, ih, charsWithin_add, List.length_cons]
    omega

theorem takeBytes_append (a cs : List Char) (bytes : Nat) :
    takeBytes (utf8Length a + bytes) (a ++ cs) = a ++ takeBytes bytes cs := by
  rw [takeBytes, charsWithin_append, takeBytes, Nat.add_comm, List.take_length_add_append]

theorem dropBytes_append (a cs : List Char) (bytes : Nat) :
    dropBytes (utf8Length a + bytes) (a ++ cs) = dropBytes bytes cs := by
  rw [dropBytes, charsWithin_append, dropBytes, Nat.add_comm, List.drop_length_add_append]

theorem takeBytes_zero (cs : List Char) : takeBytes 0 cs = [] := by
  rw [takeBytes, charsWithin_zero, List.take_zero]

theorem dropBytes_zero (cs : List Char) : dropBytes 0 cs = cs := by
  rw [dropBytes, charsWithin_zero, List.drop_zero]

/-! ## Edits behind a text -/

/-- No edit starts in front of the byte `position`, and none stops before it starts. -/
def StartFrom (position : Nat) (edits : List Edit) : Prop :=
  ∀ e ∈ edits, position ≤ e.span.start ∧ e.span.start ≤ e.span.stop

/-- Edits that start behind a text leave it as it is. -/
theorem applyEdits_append {position : Nat} {a cs : List Char} {edits : List Edit}
    (h : StartFrom (position + utf8Length a) edits) :
    applyEdits position (a ++ cs) edits = a ++ applyEdits (position + utf8Length a) cs edits := by
  cases edits with
  | nil => rfl
  | cons e edits =>
    obtain ⟨hstart, hstop⟩ := h e List.mem_cons_self
    have htake : e.span.start - position
        = utf8Length a + (e.span.start - (position + utf8Length a)) := by omega
    have hdrop : e.span.stop - position
        = utf8Length a + (e.span.stop - (position + utf8Length a)) := by omega
    rw [applyEdits, htake, takeBytes_append, hdrop, dropBytes_append, applyEdits]
    simp only [List.append_assoc]

/-- An edit of the text at the front puts its replacement there. -/
theorem applyEdits_cons {position : Nat} {a cs : List Char} {replacement : String}
    {edits : List Edit} :
    applyEdits position (a ++ cs)
        (⟨⟨position, position + utf8Length a⟩, replacement⟩ :: edits)
      = replacement.toList ++ applyEdits (position + utf8Length a) cs edits := by
  have hdrop : position + utf8Length a - position = utf8Length a + 0 := by omega
  rw [applyEdits, Nat.sub_self, takeBytes_zero, hdrop, dropBytes_append, dropBytes_zero,
    List.nil_append]

/-! ## The edits of lexemes -/

/-- The text that is put in for a lexeme in front of the others, if one is. -/
def Lexeme.replacement? (scope : Scope) (l : Lexeme) (others : List Lexeme) : Option String :=
  match l.kind with
  | .name name =>
    if (others.map Lexeme.kind).head? = some .leftParen then none else scope.replacement? name
  | _ => none

/-- The text of a row of lexemes with the replacements put in. -/
def written (scope : Scope) : List Lexeme → List Char → List Char
  | [], trail => trail
  | l :: ls, trail =>
    l.gap ++ (((l.replacement? scope ls).map String.toList).getD l.chars ++ written scope ls trail)

theorem bareEdits_tokensFrom (scope : Scope) (l : Lexeme) (span : Span) (position : Nat)
    (ls : List Lexeme) (trail : List Char) :
    bareEdits scope ⟨l.kind, span⟩ (tokensFrom position ls trail)
      = (l.replacement? scope ls).toList.map (Edit.mk span) := by
  have hhead : (kindsOf (tokensFrom position ls trail)).head? = some .leftParen ↔
      (ls.map Lexeme.kind).head? = some .leftParen := by
    cases ls with
    | nil => simp
    | cons l ls => simp
  rw [bareEdits, Lexeme.replacement?]
  cases l.kind with
  | name name =>
    simp only [hhead]
    split
    · rfl
    · rw [reference_edits]
  | _ => rfl

theorem startFrom_editsOf (scope : Scope) (ls : List Lexeme) (trail : List Char) (position : Nat) :
    StartFrom position (editsOf scope (tokensFrom position ls trail)) := by
  induction ls generalizing position with
  | nil => simp [StartFrom, tokensFrom, editsOf, bareEdits]
  | cons l ls ih =>
    rw [tokensFrom, editsOf, bareEdits_tokensFrom]
    intro e he
    rcases List.mem_append.1 he with he | he
    · obtain ⟨text, -, rfl⟩ := List.mem_map.1 he
      exact ⟨Nat.le_add_right _ _, Nat.le_add_right _ _⟩
    · obtain ⟨hstart, hstop⟩ := ih _ e he
      exact ⟨by omega, hstop⟩

/-- The edits of a row of lexemes put its replacements in and change nothing else. -/
theorem applyEdits_editsOf (scope : Scope) (ls : List Lexeme) (trail : List Char) (position : Nat) :
    applyEdits position (textOf ls trail) (editsOf scope (tokensFrom position ls trail))
      = written scope ls trail := by
  induction ls generalizing position with
  | nil => simp [tokensFrom, editsOf, bareEdits, textOf, written]
  | cons l ls ih =>
    have htext : textOf (l :: ls) trail = l.gap ++ (l.chars ++ textOf ls trail) := rfl
    rw [htext, tokensFrom, editsOf, bareEdits_tokensFrom, written]
    have hlater := startFrom_editsOf scope ls trail
      (position + utf8Length l.gap + utf8Length l.chars)
    cases l.replacement? scope ls with
    | none =>
      simp only [Option.toList_none, List.map_nil, List.nil_append, Option.map_none,
        Option.getD_none]
      rw [applyEdits_append, applyEdits_append hlater, ih]
      intro e he
      obtain ⟨hstart, hstop⟩ := hlater e he
      exact ⟨by omega, hstop⟩
    | some text =>
      simp only [Option.toList_some, List.map_cons, List.map_nil, List.cons_append,
        List.nil_append, Option.map_some, Option.getD_some]
      rw [applyEdits_append, applyEdits_cons, ih]
      intro e he
      rcases List.mem_cons.1 he with rfl | he
      · exact ⟨Nat.le_refl _, Nat.le_add_right _ _⟩
      · obtain ⟨hstart, hstop⟩ := hlater e he
        exact ⟨by omega, hstop⟩

end LengthFormula
