import LengthFormula.Formula
import LengthFormula.Proofs.Json.Fields
import LengthFormula.Proofs.Scope.History
import LengthFormula.Proofs.Scope.Shown
import LengthFormula.Scope.Json
import LengthFormula.Term.Evaluation

/-!
# Stored scopes are read back

A scope is stored as four parts, whose order does not matter, and neither does the order of the
entries of a table or of the fixed names (`Scope.StoredAs`).  Every way of storing it is read back
as the scope itself if its values are finite, and is not read otherwise
(`Scope.ofJson?_of_storedAs`).  This needs the tables of the scope to be in order, as they are
whatever is done to a new scope (`Scope.sorted_after`).
-/

namespace LengthFormula.Scope

open Json

/-! ## The tables are in order -/

/-- The tables of a scope have their keys in order. -/
structure Sorted (scope : Scope) : Prop where
  values : Table.Sorted scope.values
  fixed : Table.Sorted scope.fixed
  renames : Table.Sorted scope.renames

variable {scope : Scope}

theorem sorted_empty : empty.Sorted := ⟨Table.sorted_nil, Table.sorted_nil, Table.sorted_nil⟩

/-- Every change of a scope keeps its tables in order. -/
theorem Sorted.apply (h : scope.Sorted) (c : Change) : (scope.apply c).Sorted := by
  cases c with
  | declare name value =>
    exact ⟨Table.sorted_insert h.values _ _, h.fixed, Table.sorted_insert h.renames _ _⟩
  | markFixed name => exact ⟨h.values, Table.sorted_insert h.fixed _ _, h.renames⟩
  | rename name display => exact ⟨h.values, h.fixed, Table.sorted_insert h.renames _ _⟩

theorem sorted_initial : initial.Sorted :=
  (sorted_empty.apply (.declare _ _)).apply (.declare _ _)

theorem sorted_after (history : List Change) : (after history).Sorted := by
  induction history using List.reverseRecOn with
  | nil => exact sorted_initial
  | append_singleton history c ih =>
    rw [after_concat]
    exact ih.apply c

/-- The values are finite if all entries of the table are. -/
theorem holdsFinite_iff (hsorted : scope.Sorted) (h : scope.Consistent) :
    scope.HoldsFinite ↔ ∀ e ∈ scope.values, Double.isFinite e.2 = true := by
  constructor
  · rintro hfinite ⟨key, x⟩ hmem
    have hget := (Table.get?_eq_some_iff hsorted.values).2 hmem
    have hname : key ∈ scope.names := by
      rw [h.mem_names_iff, Table.has, hget]
      rfl
    refine hfinite key x ?_
    rw [value?, h.lowerCase_eq key hname, hget]
  · intro hfinite name x hx
    exact hfinite _ ((Table.get?_eq_some_iff hsorted.values).1 hx)

/-! ## Ways of storing a scope -/

/-- A scope is stored as an object of its four parts.  The parts, the entries of the tables and the
fixed names stand in any order, while the declared names keep theirs. -/
inductive StoredAs (scope : Scope) : Json → Prop
  | mk {values : List (String × Float)} {fixed : List String} {renames : List (String × String)}
      {parts : List (String × Json)} :
      values.Perm scope.values → fixed.Perm (Table.keys scope.fixed) → renames.Perm scope.renames →
      parts.Perm
        [("values", .object (values.map fun e => (e.1, .ofDouble e.2))),
         ("order", .array (scope.order.map .string)),
         ("fixed", .array (fixed.map .string)),
         ("renames", .object (renames.map fun e => (e.1, .string e.2)))] →
      scope.StoredAs (.object parts)

theorem storedAs_toJson (scope : Scope) : scope.StoredAs scope.toJson := by
  refine .mk (.refl _) (.refl _) (.refl _) ?_
  -- the parts are written by ascending names
  exact (List.reverse_perm _).symm.trans ((List.perm_append_singleton _ _).symm.cons _)

/-- Any way of storing a scope is a well-formed value. -/
theorem StoredAs.wellFormed {j : Json} (h : scope.StoredAs j) : j.WellFormed := by
  obtain ⟨-, -, -, hparts⟩ := h
  rw [WellFormed, membersWellFormed_iff]
  intro part hpart
  have hmem := hparts.mem_iff.1 hpart
  simp only [List.mem_cons, List.not_mem_nil, or_false] at hmem
  rcases hmem with rfl | rfl | rfl | rfl
  · exact wellFormed_object_map wellFormed_ofDouble _
  · exact itemsWellFormed_map wellFormed_string _
  · exact itemsWellFormed_map wellFormed_string _
  · exact wellFormed_object_map wellFormed_string _

/-- The fixed names make up their set again, in any order. -/
theorem ofNames_of_perm {fixed : NameSet} (h : Table.Sorted fixed) {names : List String}
    (hperm : names.Perm (Table.keys fixed)) : NameSet.ofNames names = fixed := by
  refine Table.ofEntries_of_perm h ((hperm.map fun name => (name, ())).trans ?_)
  rw [Table.keys, List.map_map]
  exact .of_eq (List.map_id _)

/-- A scope with its tables in order is read back however it is stored, if its values are finite.
Otherwise no scope is read. -/
theorem ofJson?_of_storedAs (hsorted : scope.Sorted) {j : Json} (h : scope.StoredAs j) :
    ofJson? j
      = if scope.values.all fun e => Double.isFinite e.2 then some scope else none := by
  obtain ⟨hvalues, hfixed, hrenames, hparts⟩ := h
  next values fixed renames parts =>
  have hrecord : record? partNames (.object parts)
      = some [some (.object (values.map fun e => (e.1, .ofDouble e.2))),
          some (.array (scope.order.map .string)), some (.array (fixed.map .string)),
          some (.object (renames.map fun e => (e.1, .string e.2)))] :=
    record?_of_perm (by simp) hparts
  have hshown : (Json.object (renames.map fun e => (e.1, .string e.2))).asTable? asString?
      = some scope.renames := by
    rw [asTable?_map fun _ _ => rfl, Table.ofEntries_of_perm hsorted.renames hrenames]
  rw [ofJson?, hrecord]
  simp only [asTable?_doubles, asList?_texts, hshown, hvalues.all_eq,
    Table.ofEntries_of_perm hsorted.values hvalues]
  cases scope.values.all fun e => Double.isFinite e.2 with
  | true => simp only [if_true, ofNames_of_perm hsorted.fixed hfixed]
  | false => simp only [Bool.false_eq_true, if_false]

/-! ## Reading back -/

/-- The text of a scope with a history is read as the scope if its values are finite, and as none if
they are not. -/
theorem read?_eq_of_storedAs (history : List Change) {j : Json} (h : (after history).StoredAs j) :
    ((after history).HoldsFinite → read? j.render = some (after history)) ∧
      (¬ (after history).HoldsFinite → read? j.render = none) := by
  have hsorted := sorted_after history
  have hread : read? j.render = if (after history).values.all fun e => Double.isFinite e.2
      then some (after history) else none := by
    rw [read?, Json.read?_render h.wellFormed, Option.bind_some, ofJson?_of_storedAs hsorted h]
  rw [hread, holdsFinite_iff hsorted (consistent_after history), ← List.all_eq_true]
  exact ⟨fun hall => if_pos hall, fun hall => if_neg hall⟩

/-- Whatever was done to a new scope, each way of storing it is read back as an equal scope if all
values are finite: with the same values bit for bit, the same order, the same fixed names and the
same display names, so that formulas are read and evaluated alike in it.  If a value is not finite,
no scope is read. -/
theorem exists_read?_of_storedAs (history : List Change) :
    (after history).StoredAs (after history).toJson ∧
    ∀ j, (after history).StoredAs j →
      ((after history).HoldsFinite → ∃ copy, read? j.render = some copy ∧ copy = after history ∧
        (∀ convert text,
          Formula.parse copy convert text = Formula.parse (after history) convert text) ∧
        ∀ (t : Term) strict draws,
          t.eval copy strict draws = t.eval (after history) strict draws) ∧
      (¬ (after history).HoldsFinite → read? j.render = none) := by
  refine ⟨storedAs_toJson _, fun j hj => ⟨fun hfinite => ?_, (read?_eq_of_storedAs history hj).2⟩⟩
  refine ⟨after history, (read?_eq_of_storedAs history hj).1 hfinite, rfl, ?_, ?_⟩
  · intro convert text
    rfl
  · intro t strict draws
    rfl

/-- A fixed variable that is shown under a name with a quote in it is read back; an infinite one is
not. -/
theorem exists_read?_of_storedAs_quoted :
    (∃ copy, read? (after [.declare "X" 1.5, .markFixed "x", .rename "x" "5\" board"]).toJson.render
        = some copy ∧
      copy.values = [("e", 2.718281828459045), ("pi", 3.141592653589793), ("x", 1.5)] ∧
      copy.names = ["pi", "e", "x"] ∧ copy.isFixed "X" = true ∧
      copy.displayName? "x" = some "5\" board") ∧
    read? (after [.declare "x" (Double.ofMagnitude false Double.infinityMagnitude)]).toJson.render
      = none := by
  have hfinite :
      (after [.declare "X" 1.5, .markFixed "x", .rename "x" "5\" board"]).HoldsFinite := by
    rw [holdsFinite_iff (sorted_after _) (consistent_after _)]
    decide +kernel
  have hinfinite : ¬ (after [.declare "x"
      (Double.ofMagnitude false Double.infinityMagnitude)]).HoldsFinite := by
    rw [holdsFinite_iff (sorted_after _) (consistent_after _)]
    decide +kernel
  obtain ⟨hstored, hread⟩ :=
    exists_read?_of_storedAs [.declare "X" 1.5, .markFixed "x", .rename "x" "5\" board"]
  obtain ⟨copy, hcopy, rfl, -, -⟩ := (hread _ hstored).1 hfinite
  obtain ⟨hstored', hread'⟩ := exists_read?_of_storedAs
    [.declare "x" (Double.ofMagnitude false Double.infinityMagnitude)]
  refine ⟨⟨_, hcopy, ?_⟩, (hread' _ hstored').2 hinfinite⟩
  decide +kernel

end LengthFormula.Scope
