import LengthFormula.Proofs.Term.Dependence
import Mathlib.Data.List.Basic
import Mathlib.Data.List.Induction

/-!
# Variables are listed by their first occurrence

Collecting the variables of a term goes through its leaves from left to right
(`Term.collectVariables_eq_foldl`).  Each leaf leaves the list as it is or puts one name behind it,
so behind the names that were there at first stand the new ones: each of them once, by its first
occurrence among the leaves (`Term.NewNames`).  A second pass finds nothing new
(`Term.collectVariables_appends`).
-/

namespace LengthFormula.Term

/-- What is new among the names of some leaves to a list of names: the leaves that are neither
built-in constants nor in the list, each of them once, by first occurrence. -/
structure NewNames (names leaves fresh : List String) : Prop where
  nodup : fresh.Nodup
  mem_iff : ∀ x, x ∈ fresh ↔ x ∈ leaves ∧ isBuiltinConstant x = false ∧ x ∉ names
  ordered : fresh.Pairwise fun x y => leaves.idxOf x < leaves.idxOf y

namespace NewNames

variable {names leaves fresh : List String}

theorem nil (names : List String) : NewNames names [] [] :=
  ⟨List.nodup_nil, by simp, List.Pairwise.nil⟩

/-- One more leaf does not change the order of the leaves before it. -/
theorem ordered_concat (h : NewNames names leaves fresh) (name : String) :
    fresh.Pairwise fun x y => (leaves ++ [name]).idxOf x < (leaves ++ [name]).idxOf y := by
  refine h.ordered.imp_of_mem fun {x y} hx hy hlt => ?_
  rw [List.idxOf_append_of_mem ((h.mem_iff x).1 hx).1,
    List.idxOf_append_of_mem ((h.mem_iff y).1 hy).1]
  exact hlt

/-- A built-in constant brings nothing new, and neither does a name that is known. -/
theorem concat_of_known (h : NewNames names leaves fresh) {name : String}
    (hknown : isBuiltinConstant name = true ∨ name ∈ names ++ fresh) :
    NewNames names (leaves ++ [name]) fresh where
  nodup := h.nodup
  mem_iff := by
    intro x
    rw [h.mem_iff, List.mem_append, List.mem_singleton]
    constructor
    · exact fun ⟨hx, hnew⟩ => ⟨.inl hx, hnew⟩
    · rintro ⟨hx | rfl, hconstant, hx'⟩
      · exact ⟨hx, hconstant, hx'⟩
      · rw [hconstant, List.mem_append] at hknown
        have hfresh : x ∈ fresh := (hknown.resolve_left Bool.false_ne_true).resolve_left hx'
        exact (h.mem_iff x).1 hfresh
  ordered := h.ordered_concat name

/-- Any other name is new, and it occurs behind all leaves before it. -/
theorem concat_of_unknown (h : NewNames names leaves fresh) {name : String}
    (hconstant : isBuiltinConstant name = false) (hunknown : name ∉ names ++ fresh) :
    NewNames names (leaves ++ [name]) (fresh ++ [name]) := by
  rw [List.mem_append, not_or] at hunknown
  obtain ⟨hnames, hfresh⟩ := hunknown
  have hleaves : name ∉ leaves := fun hmem => hfresh ((h.mem_iff name).2 ⟨hmem, hconstant, hnames⟩)
  refine ⟨?_, ?_, ?_⟩
  · refine List.nodup_append.2 ⟨h.nodup, List.pairwise_singleton _ _, ?_⟩
    intro x hx y hy
    rw [List.mem_singleton.1 hy]
    rintro rfl
    exact hfresh hx
  · intro x
    simp only [List.mem_append, List.mem_singleton, h.mem_iff]
    constructor
    · rintro (⟨hx, hnew⟩ | rfl)
      · exact ⟨.inl hx, hnew⟩
      · exact ⟨.inr rfl, hconstant, hnames⟩
    · rintro ⟨hx | rfl, hnew⟩
      · exact .inl ⟨hx, hnew⟩
      · exact .inr rfl
  · refine List.pairwise_append.2 ⟨h.ordered_concat name, List.pairwise_singleton _ _, ?_⟩
    intro x hx y hy
    have hx' : x ∈ leaves := ((h.mem_iff x).1 hx).1
    rw [List.mem_singleton.1 hy, List.idxOf_append_of_mem hx', List.idxOf_append_of_notMem hleaves]
    exact Nat.lt_of_lt_of_le (List.idxOf_lt_length_of_mem hx') (Nat.le_add_right _ _)

/-- A leaf leaves the list as it is, or puts its name behind what is new so far. -/
theorem addVariable_append (h : NewNames names leaves fresh) (name : String) :
    ∃ more, addVariable (names ++ fresh) name = names ++ more ∧
      NewNames names (leaves ++ [name]) more := by
  rw [addVariable]
  split
  · next hskip =>
    rw [Bool.or_eq_true, List.contains_iff_mem] at hskip
    exact ⟨fresh, rfl, h.concat_of_known hskip⟩
  · next hskip =>
    rw [Bool.not_eq_true, Bool.or_eq_false_iff] at hskip
    have hunknown : name ∉ names ++ fresh := by simpa using hskip.2
    exact ⟨fresh ++ [name], List.append_assoc _ _ _, h.concat_of_unknown hskip.1 hunknown⟩

end NewNames

/-- The leaves are gone through from left to right. -/
theorem collectVariables_eq_foldl (t : Term) (names : List String) :
    t.collectVariables names = t.leafNames.foldl addVariable names := by
  induction t generalizing names with
  | number | random | var => rfl
  | negate operand ih => exact ih names
  | binary op left right ihl ihr =>
    rw [collectVariables, ihl, ihr, leafNames, List.foldl_append]
  | call function argument ih => exact ih names
  | call2 function first second ihf ihs =>
    rw [collectVariables, ihf, ihs, leafNames, List.foldl_append]

/-- A row of leaves puts what is new in it behind the list. -/
theorem exists_newNames (names leaves : List String) :
    ∃ fresh, leaves.foldl addVariable names = names ++ fresh ∧ NewNames names leaves fresh := by
  induction leaves using List.reverseRecOn with
  | nil => exact ⟨[], (List.append_nil names).symm, .nil names⟩
  | append_singleton leaves name ih =>
    obtain ⟨fresh, heq, hnew⟩ := ih
    rw [List.foldl_append, heq]
    exact hnew.addVariable_append name

/-- Collecting the variables of a term leaves the list that is there as it is, also where a name
repeats in it, and puts the names of the leaves behind it that are neither built-in constants nor in
the list, each of them once and by its first occurrence among the leaves.  Collecting them again
changes nothing. -/
theorem collectVariables_appends (t : Term) (names : List String) :
    (∃ fresh, t.collectVariables names = names ++ fresh ∧ NewNames names t.leafNames fresh) ∧
      t.collectVariables (t.collectVariables names) = t.collectVariables names := by
  obtain ⟨fresh, heq, hnew⟩ := exists_newNames names t.leafNames
  rw [← collectVariables_eq_foldl] at heq
  refine ⟨⟨fresh, heq, hnew⟩, ?_⟩
  obtain ⟨more, hagain, hmore⟩ := exists_newNames (names ++ fresh) t.leafNames
  have hnone : more = [] := by
    rw [List.eq_nil_iff_forall_not_mem]
    intro x hx
    obtain ⟨hleaf, hconstant, hx'⟩ := (hmore.mem_iff x).1 hx
    rw [List.mem_append, not_or] at hx'
    exact hx'.2 ((hnew.mem_iff x).2 ⟨hleaf, hconstant, hx'.1⟩)
  rw [heq, collectVariables_eq_foldl, hagain, hnone, List.append_nil]

/-- In `max(b, a) * pi + b` there are two variables, and one of them is known. -/
example : (binary .add (binary .mul (call2 "max" (var "b") (var "a")) (var "pi"))
      (var "b")).collectVariables ["a", "a"] = ["a", "a", "b"] := by decide +kernel

end LengthFormula.Term
