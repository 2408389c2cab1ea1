import LengthFormula.Proofs.Scope.Consistency
import Mathlib.Data.List.Induction

/-!
# A scope is what its history made of it

A new scope goes through declarations, marks and renames, in any order and for any names.  What it
answers afterwards can be read off the list of these changes (`Scope.after_answers`): the value of a
name is the last one that it was declared with, a mark stays, a display name lasts until the next
declaration, and names are listed in the order in which they were first declared.
-/

namespace LengthFormula.Scope

/-- A change of a scope. -/
inductive Change where
  | declare (name : String) (value : Float)
  | markFixed (name : String)
  | rename (name display : String)
  deriving DecidableEq, Repr

namespace Change

/-- The key that a change declares. -/
def declaredKey? : Change → Option String
  | declare name _ => some (lowerCase name)
  | markFixed _ | rename _ _ => none

/-- The value with which a change declares a key. -/
def valueOf? (key : String) : Change → Option Float
  | declare name value => if lowerCase name = key then some value else none
  | markFixed _ | rename _ _ => none

/-- The name under which a change shows a key from now on. -/
def displayOf? (key : String) : Change → Option String
  | rename name display => if lowerCase name = key then some display else none
  | declare _ _ | markFixed _ => none

/-- The change declares the key. -/
def declares (key : String) (c : Change) : Bool := c.declaredKey? == some key

end Change

/-- The scope after a change. -/
def apply (scope : Scope) : Change → Scope
  | .declare name value => scope.declare name value
  | .markFixed name => scope.markFixed name
  | .rename name display => scope.rename name display

/-- The scope after a row of changes to a new one. -/
def after (history : List Change) : Scope := history.foldl apply initial

/-- The names of the built-in constants. -/
def builtinNames : List String := builtinConstants.map Prod.fst

/-- The keys of a row of changes that are declared, each as often as it is. -/
def declaredKeys (history : List Change) : List String := history.filterMap Change.declaredKey?

/-- The value of the last declaration of a key. -/
def lastValue? (key : String) (history : List Change) : Option Float :=
  history.reverse.findSome? (Change.valueOf? key)

/-- The display name of the last rename of a key behind the last declaration of the key. -/
def lastDisplay? (key : String) (history : List Change) : Option String :=
  (history.reverse.takeWhile fun c => !c.declares key).findSome? (Change.displayOf? key)

/-! ## One more change -/

section Concat

variable (history : List Change) (c : Change) (key : String)

@[simp]
theorem after_nil : after [] = initial := rfl

@[simp]
theorem after_concat : after (history ++ [c]) = (after history).apply c := by
  rw [after, List.foldl_append]
  rfl

theorem declaredKeys_concat :
    declaredKeys (history ++ [c]) = declaredKeys history ++ c.declaredKey?.toList := by
  rw [declaredKeys, List.filterMap_append]
  cases h : c.declaredKey? <;> simp [declaredKeys, h]

theorem mem_declaredKeys_concat_iff :
    key ∈ declaredKeys (history ++ [c]) ↔ key ∈ declaredKeys history ∨ c.declares key = true := by
  rw [declaredKeys_concat, List.mem_append, Option.mem_toList, Change.declares, beq_iff_eq]

theorem lastValue?_concat :
    lastValue? key (history ++ [c]) = (c.valueOf? key).or (lastValue? key history) := by
  rw [lastValue?, List.reverse_concat, List.findSome?_cons, lastValue?]
  cases c.valueOf? key <;> rfl

/-- A declaration ends what renames before it have done. -/
theorem lastDisplay?_concat : lastDisplay? key (history ++ [c])
    = if c.declares key then none else (c.displayOf? key).or (lastDisplay? key history) := by
  rw [lastDisplay?, List.reverse_concat, List.takeWhile_cons, lastDisplay?]
  cases c.declares key with
  | true => rfl
  | false =>
    rw [Bool.not_false, if_pos rfl, if_neg Bool.false_ne_true, List.findSome?_cons]
    cases c.displayOf? key <;> rfl

end Concat

/-! ## What a scope answers -/

section Answers

variable (scope : Scope) (c : Change) (name : String)

theorem value?_apply :
    (scope.apply c).value? name = (c.valueOf? (lowerCase name)).or (scope.value? name) := by
  cases c with
  | declare declared value =>
    rw [apply, value?_declare, Change.valueOf?]
    split <;> rfl
  | markFixed | rename => rfl

theorem isFixed_apply : (scope.apply c).isFixed name = true ↔
    (∃ marked, c = .markFixed marked ∧ lowerCase marked = lowerCase name) ∨
      scope.isFixed name = true := by
  cases c with
  | markFixed marked => simp [apply, isFixed, markFixed, NameSet.add, Table.has_insert]
  | declare | rename => simp [apply, isFixed, declare, rename]

/-- A declaration shows its key under itself. -/
theorem displayName?_apply : (scope.apply c).displayName? name
    = if c.declares (lowerCase name) then some (lowerCase name)
      else (c.displayOf? (lowerCase name)).or (scope.displayName? name) := by
  cases c with
  | declare declared value =>
    rw [apply, displayName?, declare, Table.get?_insert]
    by_cases h : lowerCase declared = lowerCase name <;>
      simp [h, Change.declares, Change.declaredKey?, Change.displayOf?, displayName?]
  | markFixed => rfl
  | rename renamed display =>
    rw [apply, displayName?, rename, Table.get?_insert]
    by_cases h : lowerCase renamed = lowerCase name <;>
      simp [h, Change.declares, Change.declaredKey?, Change.displayOf?, displayName?]

theorem Consistent.apply {scope : Scope} (h : scope.Consistent) (c : Change) :
    (scope.apply c).Consistent := by
  cases c with
  | declare name value => exact h.declare name value
  | markFixed name => exact h.markFixed name
  | rename name display => exact h.rename name display

end Answers

/-- Of duplicates the first one stays, so one more key is listed unless it is there already. -/
theorem eraseDups_concat (keys : List String) (key : String) :
    (keys ++ [key]).eraseDups = listed keys.eraseDups key := by
  rw [List.eraseDups_append, List.removeAll, listed]
  by_cases h : key ∈ keys <;> simp [h, List.eraseDups_cons]

/-! ## The whole history -/

/-- A new scope holds the built-in constants. -/
theorem value?_initial (name : String) :
    initial.value? name = builtinConstants.lookup (lowerCase name) := by
  have hvalues : initial.values = [("e", 2.718281828459045), ("pi", 3.141592653589793)] := by
    decide +kernel
  rw [value?, hvalues, builtinConstants]
  generalize lowerCase name = key
  by_cases hpi : "pi" = key
  · subst hpi
    rfl
  · by_cases he : "e" = key
    · subst he
      rfl
    · have hnotPi : (key == "pi") = false := beq_eq_false_iff_ne.2 (Ne.symm hpi)
      have hnotE : (key == "e") = false := beq_eq_false_iff_ne.2 (Ne.symm he)
      simp [Table.get?, hpi, he, List.lookup_cons, hnotPi, hnotE]

/-- A new scope shows the built-in constants under their own names. -/
theorem displayName?_initial (name : String) : initial.displayName? name
    = if lowerCase name ∈ builtinNames then some (lowerCase name) else none := by
  have hrenames : initial.renames = [("e", "e"), ("pi", "pi")] := by decide +kernel
  have hnames : builtinNames = ["pi", "e"] := rfl
  rw [displayName?, hrenames, hnames]
  generalize lowerCase name = key
  by_cases hpi : "pi" = key
  · subst hpi
    rfl
  · by_cases he : "e" = key
    · subst he
      rfl
    · simp [Table.get?, hpi, he, Ne.symm hpi, Ne.symm he]

theorem consistent_after (history : List Change) : (after history).Consistent := by
  induction history using List.reverseRecOn with
  | nil => exact consistent_initial
  | append_singleton history c ih =>
    rw [after_concat]
    exact ih.apply c

theorem value?_after (history : List Change) (name : String) : (after history).value? name
    = (lastValue? (lowerCase name) history).or (builtinConstants.lookup (lowerCase name)) := by
  induction history using List.reverseRecOn with
  | nil => exact value?_initial name
  | append_singleton history c ih =>
    rw [after_concat, value?_apply, ih, lastValue?_concat, Option.or_assoc]

theorem isFixed_after (history : List Change) (name : String) :
    (after history).isFixed name = true ↔
      ∃ marked, .markFixed marked ∈ history ∧ lowerCase marked = lowerCase name := by
  induction history using List.reverseRecOn with
  | nil => simp [isFixed, fixed_initial, Table.has]
  | append_singleton history c ih =>
    rw [after_concat, isFixed_apply, ih]
    simp only [List.mem_append, List.mem_singleton, or_and_right, exists_or, eq_comm, or_comm]

theorem displayName?_after (history : List Change) (name : String) :
    (after history).displayName? name = (lastDisplay? (lowerCase name) history).or
      (if lowerCase name ∈ builtinNames ++ declaredKeys history then some (lowerCase name)
        else none) := by
  induction history using List.reverseRecOn with
  | nil => exact displayName?_initial name
  | append_singleton history c ih =>
    rw [after_concat, displayName?_apply, ih, lastDisplay?_concat]
    simp only [List.mem_append, mem_declaredKeys_concat_iff]
    cases c.declares (lowerCase name) with
    | true => simp
    | false => simp [Option.or_assoc]

theorem names_after (history : List Change) :
    (after history).names = (builtinNames ++ declaredKeys history).eraseDups := by
  induction history using List.reverseRecOn with
  | nil => decide +kernel
  | append_singleton history c ih =>
    rw [after_concat, declaredKeys_concat, ← List.append_assoc]
    cases c with
    | declare name value =>
      show _ = (builtinNames ++ declaredKeys history ++ [lowerCase name]).eraseDups
      rw [apply, (consistent_after history).names_declare, ih, eraseDups_concat]
    | markFixed | rename =>
      show (after history).names = (builtinNames ++ declaredKeys history ++ []).eraseDups
      rw [List.append_nil, ih]

/-- What a scope answers can be read off its history, whatever the names in it are.  A name has the
value of its last declaration, or else that of a built-in constant.  It is fixed if it was ever
marked.  It is shown as the last rename behind its last declaration shows it, and if there is none
under its own key, provided that it was ever declared or is built in.  The names are those of the
built-in constants and behind them each other declared key once, in the order of the first
declarations. -/
theorem after_answers (history : List Change) :
    (∀ name, (after history).value? name
      = (lastValue? (lowerCase name) history).or (builtinConstants.lookup (lowerCase name))) ∧
    (∀ name, (after history).isFixed name = true ↔
      ∃ marked, .markFixed marked ∈ history ∧ lowerCase marked = lowerCase name) ∧
    (∀ name, (after history).displayName? name = (lastDisplay? (lowerCase name) history).or
      (if lowerCase name ∈ builtinNames ++ declaredKeys history then some (lowerCase name)
        else none)) ∧
    (after history).names
      = builtinNames ++ ((declaredKeys history).removeAll builtinNames).eraseDups := by
  have hbuiltin : builtinNames.eraseDups = builtinNames := by decide +kernel
  refine ⟨value?_after history, isFixed_after history, displayName?_after history, ?_⟩
  rw [names_after, List.eraseDups_append, hbuiltin]

/-- A declaration takes a rename back, and a name need not be declared to be shown. -/
example : ["x", "ghost"].map (after [.rename "X" "length", .declare "x" 1.0,
      .rename "Ghost" "spirit"]).displayName?
    = [some "x", some "spirit"] := by decide +kernel

end LengthFormula.Scope
