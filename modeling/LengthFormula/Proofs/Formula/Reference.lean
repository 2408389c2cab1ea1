import LengthFormula.Proofs.Formula.Grammar

/-!
# What the parser makes of a name

A name that is not called is a leaf of the tree, and either stays in the text or is replaced there.
-/

namespace LengthFormula

theorem reference_term (scope : Scope) (name : String) (span : Span) :
    (reference scope name span).term = scope.nameTerm name := by
  rw [reference, Scope.nameTerm]
  split
  · rfl
  · split
    · rfl
    · split
      · split <;> rfl
      · rfl

theorem reference_height (scope : Scope) (name : String) (span : Span) :
    (reference scope name span).height = 1 := by
  unfold reference
  split
  · rfl
  · split
    · rfl
    · split
      · split <;> rfl
      · rfl

theorem height_nameTerm (scope : Scope) (name : String) : (scope.nameTerm name).height = 1 := by
  unfold Scope.nameTerm
  split
  · rfl
  · split <;> rfl

/-- The text that is put in for a name that is not called, unless the name stays as it is. -/
def Scope.replacement? (scope : Scope) (name : String) : Option String :=
  if name = Builtin.randomName then none
  else if scope.isFixed name then some (valueText ((scope.value? name).getD 0.0))
  else (scope.displayName? name).filter (· ≠ name)

theorem reference_edits (scope : Scope) (name : String) (span : Span) :
    (reference scope name span).edits = (scope.replacement? name).toList.map (Edit.mk span) := by
  rw [reference, Scope.replacement?]
  split
  · rfl
  · split
    · rfl
    · cases scope.displayName? name with
      | none => rfl
      | some display =>
        by_cases h : display = name
        · simp [h, Phrase.leaf]
        · simp [h, Phrase.replaced, Option.filter]

end LengthFormula
