import LengthFormula.Proofs.Text.LowerCase
import LengthFormula.Scope

/-!
# The tables of a scope fit together

A scope keeps the values of its names, their order, their marks and their display names in four
tables.  However names are declared, marked and renamed, the order lists each declared name once,
and each declared name is shown under some name (`Scope.Consistent`).
-/

namespace LengthFormula

/-- A list of names with a name behind the others, unless it is among them. -/
def listed (names : List String) (name : String) : List String :=
  if name ∈ names then names else names ++ [name]

theorem mem_listed_iff {names : List String} {name key : String} :
    key ∈ listed names name ↔ key ∈ names ∨ key = name := by
  rw [listed]
  split
  · next hmem =>
    refine ⟨Or.inl, ?_⟩
    rintro (hkey | rfl)
    · exact hkey
    · exact hmem
  · rw [List.mem_append, List.mem_singleton]

theorem nodup_listed {names : List String} (h : names.Nodup) (name : String) :
    (listed names name).Nodup := by
  rw [listed]
  split
  · exact h
  · next hnew =>
    refine List.nodup_append.2 ⟨h, List.pairwise_singleton _ _, fun key hkey other hother => ?_⟩
    rw [List.mem_singleton.1 hother]
    rintro rfl
    exact hnew hkey

namespace Scope

/-- The order and the display names of a scope belong to its declared names. -/
structure Consistent (scope : Scope) : Prop where
  names_nodup : scope.names.Nodup
  mem_names_iff : ∀ key, key ∈ scope.names ↔ scope.values.has key = true
  lowerCase_eq : ∀ key ∈ scope.names, lowerCase key = key
  shown : ∀ key ∈ scope.names, (scope.displayName? key).isSome = true

/-- After a declaration the name has the new value, in whatever case it is written, and all other
names have their old ones. -/
theorem value?_declare (scope : Scope) (name : String) (value : Float) (other : String) :
    (scope.declare name value).value? other
      = if lowerCase name = lowerCase other then some value else scope.value? other := by
  rw [value?, declare, Table.get?_insert]
  rfl

variable {scope : Scope}

/-- A name is listed in lower case if it is declared. -/
theorem Consistent.contains_eq_true_iff (h : scope.Consistent) (name : String) :
    scope.contains name = true ↔ lowerCase name ∈ scope.names :=
  (h.mem_names_iff (lowerCase name)).symm

/-- A declaration lists its key. -/
theorem Consistent.names_declare (h : scope.Consistent) (name : String) (value : Float) :
    (scope.declare name value).names = listed scope.names (lowerCase name) := by
  simp only [listed, h.mem_names_iff]
  rfl

/-- The names after a declaration are the names before it and the declared one. -/
theorem Consistent.mem_names_declare_iff (h : scope.Consistent) (name : String) (value : Float)
    (key : String) :
    key ∈ (scope.declare name value).names ↔ key ∈ scope.names ∨ key = lowerCase name := by
  rw [h.names_declare, mem_listed_iff]

/-- A declaration adds the name behind all others, or finds it among them. -/
theorem names_isPrefix_declare (scope : Scope) (name : String) (value : Float) :
    scope.names <+: (scope.declare name value).names := by
  show scope.order <+: if scope.values.has (lowerCase name) then scope.order
    else scope.order ++ [lowerCase name]
  split
  · exact List.prefix_rfl
  · exact List.prefix_append _ _

theorem Consistent.declare (h : scope.Consistent) (name : String) (value : Float) :
    (scope.declare name value).Consistent where
  names_nodup := by
    rw [h.names_declare]
    exact nodup_listed h.names_nodup _
  mem_names_iff := by
    intro key
    rw [h.mem_names_declare_iff, h.mem_names_iff, Scope.declare, Table.has_insert, Bool.or_eq_true,
      decide_eq_true_eq, or_comm, eq_comm]
  lowerCase_eq := by
    intro key hkey
    rcases (h.mem_names_declare_iff name value key).1 hkey with hmem | rfl
    · exact h.lowerCase_eq key hmem
    · exact lowerCase_lowerCase name
  shown := by
    intro key hkey
    rw [displayName?, Scope.declare, Table.get?_insert]
    split
    · rfl
    · next hne =>
      rcases (h.mem_names_declare_iff name value key).1 hkey with hmem | rfl
      · exact h.shown key hmem
      · exact absurd (lowerCase_lowerCase name).symm hne

/-- A mark leaves the declared names alone. -/
theorem Consistent.markFixed (h : scope.Consistent) (name : String) :
    (scope.markFixed name).Consistent :=
  ⟨h.names_nodup, h.mem_names_iff, h.lowerCase_eq, h.shown⟩

/-- A rename only shows one more name, or an old one differently. -/
theorem Consistent.rename (h : scope.Consistent) (name display : String) :
    (scope.rename name display).Consistent where
  names_nodup := h.names_nodup
  mem_names_iff := h.mem_names_iff
  lowerCase_eq := h.lowerCase_eq
  shown := by
    intro key hkey
    rw [displayName?, Scope.rename, Table.get?_insert]
    split
    · rfl
    · exact h.shown key hkey

theorem consistent_empty : empty.Consistent where
  names_nodup := List.nodup_nil
  mem_names_iff := by simp [names, empty, Table.has]
  lowerCase_eq := fun _ hkey => nomatch hkey
  shown := fun _ hkey => nomatch hkey

theorem consistent_initial : initial.Consistent :=
  (consistent_empty.declare _ _).declare _ _

theorem names_initial : initial.names = builtinConstants.map Prod.fst := by decide +kernel

theorem fixed_initial : initial.fixed = [] := rfl

end Scope

end LengthFormula
