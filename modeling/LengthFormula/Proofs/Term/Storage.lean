import LengthFormula.Proofs.Json.Fields
import LengthFormula.Term.Json

/-!
# Stored terms are read back

A term is written as a well-formed JSON value, so nothing is lost between the text and the value.
Two things can keep it from being read back (`Term.read?_render`): a number that is not finite,
which is written as `null`, and arrays and objects that nest deeper than the reader allows.  Another
term is never read (`Term.read?_render_eq_some_iff`).  How deeply a term nests depends on the kinds
of the terms on the longest way down (`Term.nesting_toJson`), and terms that are at most 64 high
never nest too deeply (`Term.read?_render_of_height`).
-/

namespace LengthFormula

namespace Json

mutual

/-- How many arrays and objects lie around the innermost part of a value, itself included. -/
def nesting : Json → Nat
  | array items => itemsNesting items + 1
  | object members => membersNesting members + 1
  | _ => 0

/-- The deepest nesting among the items of an array. -/
def itemsNesting : List Json → Nat
  | [] => 0
  | item :: items => max item.nesting (itemsNesting items)

/-- The deepest nesting among the values of an object. -/
def membersNesting : List (String × Json) → Nat
  | [] => 0
  | member :: members => max member.2.nesting (membersNesting members)

end

@[simp]
theorem nesting_ofDouble (x : Float) : (ofDouble x).nesting = 0 := by
  rw [ofDouble]
  split <;> rfl

end Json

theorem BinaryOp.ofJson?_storedName (levels : Nat) (op : BinaryOp) :
    ofJson? levels (.string op.storedName) = some op := by
  cases op <;> rfl

namespace Term

open Json

/-- No number of the term is an infinity or NaN. -/
def numbersFinite : Term → Bool
  | number x => Double.isFinite x
  | var _ | random => true
  | negate operand => operand.numbersFinite
  | binary _ left right => left.numbersFinite && right.numbersFinite
  | call _ argument => argument.numbersFinite
  | call2 _ first second => first.numbersFinite && second.numbersFinite

/-! ## How deeply stored terms nest -/

section Nesting

variable (x : Float) (name : String) (op : BinaryOp) (a b : Term)

@[simp]
theorem nesting_number : (number x).toJson.nesting = 1 := by
  simp [toJson, nesting, membersNesting]

@[simp]
theorem nesting_var : (var name).toJson.nesting = 1 := by
  simp [toJson, nesting, membersNesting]

@[simp]
theorem nesting_random : random.toJson.nesting = 0 := rfl

@[simp]
theorem nesting_negate : (negate a).toJson.nesting = a.toJson.nesting + 1 := by
  simp [toJson, nesting, membersNesting]

@[simp]
theorem nesting_binary :
    (binary op a b).toJson.nesting = max a.toJson.nesting b.toJson.nesting + 2 := by
  simp [toJson, nesting, membersNesting]

@[simp]
theorem nesting_call : (call name a).toJson.nesting = a.toJson.nesting + 2 := by
  simp [toJson, nesting, membersNesting]

@[simp]
theorem nesting_call2 :
    (call2 name a b).toJson.nesting = max a.toJson.nesting b.toJson.nesting + 2 := by
  simp [toJson, nesting, membersNesting]

end Nesting

/-- A term takes less than two arrays and objects for each term on the longest way down. -/
theorem nesting_lt (t : Term) : t.toJson.nesting < 2 * t.height := by
  induction t with
  | number | var | random => simp [height]
  | negate operand ih | call _ operand ih => simp only [nesting_negate, nesting_call, height]; omega
  | binary _ left right ihl ihr | call2 _ left right ihl ihr =>
    simp only [nesting_binary, nesting_call2, height]
    omega

/-! ## Reading back -/

theorem wellFormed_toJson (t : Term) : t.toJson.WellFormed := by
  induction t with
  | number x => simp [toJson, WellFormed, MembersWellFormed, wellFormed_ofDouble]
  | var | random => simp [toJson, WellFormed, MembersWellFormed]
  | negate _ ih | call _ _ ih => simp [toJson, WellFormed, MembersWellFormed, ih]
  | binary _ _ _ ihl ihr | call2 _ _ _ ihl ihr =>
    simp [toJson, WellFormed, MembersWellFormed, ihl, ihr]

section Levels

variable (levels : Nat)

theorem ofJson?_zero (members : List (String × Json)) : ofJson? 0 (.object members) = none := by
  simp [ofJson?]

theorem ofJson?_number (body : Json) :
    ofJson? (levels + 1) (.object [("Number", body)]) = body.asDouble?.map number := by
  simp [ofJson?]

theorem ofJson?_var (name : String) :
    ofJson? (levels + 1) (.object [("Variable", .string name)]) = some (var name) := by
  simp [ofJson?, asString?]

theorem ofJson?_negate (operand : Json) :
    ofJson? (levels + 1) (.object [("UnaryMinus", operand)])
      = (ofJson? levels operand).map negate := by
  simp [ofJson?]

/-- A term with a record of parts takes two levels. -/
theorem ofJson?_one {kind : String} (hkind : kind ∈ ["BinaryOp", "Function", "Function2"])
    (fields : List (String × Json)) : ofJson? 1 (.object [(kind, .object fields)]) = none := by
  simp only [List.mem_cons, List.not_mem_nil, or_false] at hkind
  rcases hkind with rfl | rfl | rfl <;> simp [ofJson?]

theorem ofJson?_binary (op : BinaryOp) (left right : Json) :
    ofJson? (levels + 2) (.object [("BinaryOp", .object
        [("op", .string op.storedName), ("left", left), ("right", right)])])
      = (ofJson? levels left).bind fun a => (ofJson? levels right).map (binary op a) := by
  have hrecord : record? ["op", "left", "right"]
      (.object [("op", .string op.storedName), ("left", left), ("right", right)])
      = some [some (.string op.storedName), some left, some right] := record?_object (by simp)
  rw [ofJson?.eq_def]
  simp only [hrecord, BinaryOp.ofJson?_storedName]
  cases ofJson? levels left <;> cases ofJson? levels right <;> rfl

theorem ofJson?_call (function : String) (argument : Json) :
    ofJson? (levels + 2) (.object [("Function", .object
        [("name", .string function), ("arg", argument)])])
      = (ofJson? levels argument).map (call function) := by
  have hrecord : record? ["name", "arg"]
      (.object [("name", .string function), ("arg", argument)])
      = some [some (.string function), some argument] := record?_object (by simp)
  rw [ofJson?.eq_def]
  simp only [hrecord, asString?]
  cases ofJson? levels argument <;> rfl

theorem ofJson?_call2 (function : String) (first second : Json) :
    ofJson? (levels + 2) (.object [("Function2", .object
        [("name", .string function), ("first", first), ("second", second)])])
      = (ofJson? levels first).bind fun a => (ofJson? levels second).map (call2 function a) := by
  have hrecord : record? ["name", "first", "second"]
      (.object [("name", .string function), ("first", first), ("second", second)])
      = some [some (.string function), some first, some second] := record?_object (by simp)
  rw [ofJson?.eq_def]
  simp only [hrecord, asString?]
  cases ofJson? levels first <;> cases ofJson? levels second <;> rfl

end Levels

/-- A part is read within the levels that a term leaves for it. -/
theorem map_if {levels m : Nat} {a : Bool} {part : Term} (wrap : Term → Term) (taken : Nat) :
    (if a && m ≤ levels then some part else none).map wrap
      = if a && m + taken ≤ levels + taken then some (wrap part) else none := by
  have hle : decide (m + taken ≤ levels + taken) = decide (m ≤ levels) := by
    rw [decide_eq_decide, Nat.add_le_add_iff_right]
  rw [hle]
  split <;> rfl

/-- Two parts are read within some levels if neither nests deeper. -/
theorem bind_map_if {levels m n : Nat} {a b : Bool} {left right : Term}
    (join : Term → Term → Term) :
    ((if a && m ≤ levels then some left else none).bind fun x =>
      (if b && n ≤ levels then some right else none).map (join x))
      = if (a && b) && max m n + 2 ≤ levels + 2 then some (join left right) else none := by
  have hmax : decide (max m n + 2 ≤ levels + 2) = (decide (m ≤ levels) && decide (n ≤ levels)) := by
    rw [← Bool.decide_and, decide_eq_decide, Nat.add_le_add_iff_right, Nat.max_le]
  rw [hmax]
  cases a <;> cases b <;> cases decide (m ≤ levels) <;> cases decide (n ≤ levels) <;> rfl

/-- Within some levels a stored term is read back if its numbers are finite and it nests no deeper;
otherwise no term is read. -/
theorem ofJson?_toJson (t : Term) (levels : Nat) : ofJson? levels t.toJson
    = if t.numbersFinite && t.toJson.nesting ≤ levels then some t else none := by
  induction t generalizing levels with
  | number x =>
    rw [nesting_number, numbersFinite]
    match levels with
    | 0 => rw [toJson, ofJson?_zero, if_neg (by simp)]
    | levels + 1 =>
      rw [toJson, ofJson?_number, asDouble?_ofDouble]
      split <;> simp_all
  | var name =>
    rw [nesting_var, numbersFinite]
    match levels with
    | 0 => rw [toJson, ofJson?_zero, if_neg (by simp)]
    | levels + 1 => rw [toJson, ofJson?_var, if_pos (by simp)]
  | negate operand ih =>
    rw [nesting_negate, numbersFinite]
    match levels with
    | 0 => rw [toJson, ofJson?_zero, if_neg (by simp)]
    | levels + 1 => rw [toJson, ofJson?_negate, ih, map_if negate 1]
  | random => simp [toJson, ofJson?, numbersFinite, nesting]
  | binary op left right ihl ihr =>
    rw [nesting_binary, numbersFinite]
    match levels with
    | 0 => rw [toJson, ofJson?_zero, if_neg (by simp)]
    | 1 => rw [toJson, ofJson?_one (by simp), if_neg (by simp)]
    | levels + 2 => rw [toJson, ofJson?_binary, ihl, ihr, bind_map_if (binary op)]
  | call function argument ih =>
    rw [nesting_call, numbersFinite]
    match levels with
    | 0 => rw [toJson, ofJson?_zero, if_neg (by simp)]
    | 1 => rw [toJson, ofJson?_one (by simp), if_neg (by simp)]
    | levels + 2 => rw [toJson, ofJson?_call, ih, map_if (call function) 2]
  | call2 function first second ihf ihs =>
    rw [nesting_call2, numbersFinite]
    match levels with
    | 0 => rw [toJson, ofJson?_zero, if_neg (by simp)]
    | 1 => rw [toJson, ofJson?_one (by simp), if_neg (by simp)]
    | levels + 2 => rw [toJson, ofJson?_call2, ihf, ihs, bind_map_if (call2 function)]

/-- The text of a term is read back as the term if its numbers are finite and it nests no deeper
than the reader allows; otherwise no term is read. -/
theorem read?_render (t : Term) : read? t.toJson.render
    = if t.numbersFinite && t.toJson.nesting ≤ maxNesting then some t else none := by
  rw [read?, Json.read?_render (wellFormed_toJson t), Option.bind_some, ofJson?_toJson]

/-- Terms of finite numbers that are at most 64 high are read back. -/
theorem read?_render_of_height {t : Term} (hfinite : t.numbersFinite = true) (h : t.height ≤ 64) :
    read? t.toJson.render = some t := by
  have hnesting := nesting_lt t
  have hle : t.toJson.nesting ≤ maxNesting := by
    rw [maxNesting]
    omega
  rw [read?_render, if_pos]
  simp [hfinite, hle]

/-- How many arrays and objects a stored term nests: on the way down one for each number, name and
negation, two for each operator and call, and none for a random draw. -/
def storedLevels : Term → Nat
  | number _ | var _ => 1
  | random => 0
  | negate operand => operand.storedLevels + 1
  | binary _ left right => max left.storedLevels right.storedLevels + 2
  | call _ argument => argument.storedLevels + 2
  | call2 _ first second => max first.storedLevels second.storedLevels + 2

theorem nesting_toJson (t : Term) : t.toJson.nesting = t.storedLevels := by
  induction t with
  | number | var | random => simp [storedLevels]
  | negate _ ih | call _ _ ih => simp [storedLevels, ih]
  | binary _ _ _ ihl ihr | call2 _ _ _ ihl ihr => simp [storedLevels, ihl, ihr]

/-- Whatever a term is made of, its text is read as the term itself, with every double the same bit
for bit, or it is not read at all.  It is read just if all numbers of the term are finite and it
nests at most 127 arrays and objects, counted by the kinds of the terms on the way down. -/
theorem read?_render_eq_some_iff (t u : Term) :
    (read? t.toJson.render = some u
      ↔ u = t ∧ t.numbersFinite = true ∧ t.toJson.nesting ≤ 127) ∧
    t.toJson.nesting = t.storedLevels := by
  refine ⟨?_, nesting_toJson t⟩
  have hfits : (t.numbersFinite && decide (t.toJson.nesting ≤ maxNesting)) = true
      ↔ t.numbersFinite = true ∧ t.toJson.nesting ≤ 127 := by
    rw [Bool.and_eq_true, decide_eq_true_eq, maxNesting]
  rw [read?_render, ← hfits]
  split
  · next h =>
    rw [Option.some.injEq, eq_comm]
    exact ⟨fun hu => ⟨hu, h⟩, And.left⟩
  · next h => exact ⟨fun hu => (nomatch hu), fun hu => absurd hu.2 h⟩

end Term

end LengthFormula
