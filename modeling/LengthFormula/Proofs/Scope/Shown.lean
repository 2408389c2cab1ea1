import LengthFormula.Double.Bits
import LengthFormula.Scope

/-!
# What a scope shows

Until variables are renamed, a scope shows every variable under its own name.  The values that it
can put into a text are those of its fixed variables.
-/

namespace LengthFormula.Scope

/-- Every variable is shown under its own name. -/
def ShowsOwnNames (scope : Scope) : Prop :=
  ∀ name display, scope.displayName? name = some display → display = lowerCase name

/-- All values are finite. -/
def HoldsFinite (scope : Scope) : Prop :=
  ∀ name x, scope.value? name = some x → Double.isFinite x = true

/-- The values of all fixed variables are finite. -/
def FixesFinite (scope : Scope) : Prop :=
  ∀ name x, scope.isFixed name = true → scope.value? name = some x → Double.isFinite x = true

theorem showsOwnNames_empty : empty.ShowsOwnNames := fun _ _ h => nomatch h

theorem holdsFinite_empty : empty.HoldsFinite := fun _ _ h => nomatch h

variable {scope : Scope}

theorem HoldsFinite.fixesFinite (h : scope.HoldsFinite) : scope.FixesFinite :=
  fun name x _ hx => h name x hx

/-- A declaration shows the variable under its own name. -/
theorem ShowsOwnNames.declare (h : scope.ShowsOwnNames) (name : String) (x : Float) :
    (scope.declare name x).ShowsOwnNames := by
  intro other display hdisplay
  rw [displayName?, Scope.declare, Table.get?_insert] at hdisplay
  split at hdisplay
  · next hname => rw [← hname, Option.some.inj hdisplay]
  · exact h other display hdisplay

theorem ShowsOwnNames.markFixed (h : scope.ShowsOwnNames) (name : String) :
    (scope.markFixed name).ShowsOwnNames := h

theorem HoldsFinite.declare (h : scope.HoldsFinite) (name : String) {x : Float}
    (hx : Double.isFinite x = true) : (scope.declare name x).HoldsFinite := by
  intro other y hy
  rw [value?, Scope.declare, Table.get?_insert] at hy
  split at hy
  · rw [← Option.some.inj hy]
    exact hx
  · exact h other y hy

theorem HoldsFinite.markFixed (h : scope.HoldsFinite) (name : String) :
    (scope.markFixed name).HoldsFinite := h

end LengthFormula.Scope
