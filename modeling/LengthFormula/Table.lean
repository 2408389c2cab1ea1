/-!
# Tables keyed by text

A table holds at most one entry for each key, with its keys in ascending order, so that two tables
with the same entries are equal.  `insert` keeps both properties.
-/

namespace LengthFormula

/-- Entries by key, in ascending order of the keys. -/
abbrev Table (α : Type) := List (String × α)

namespace Table

variable {α : Type}

/-- The entry of a key. -/
def get? (key : String) : Table α → Option α
  | [] => none
  | (k, v) :: rest => if k = key then some v else get? key rest

/-- The table has an entry for the key. -/
def has (key : String) (table : Table α) : Bool := (get? key table).isSome

/-- Sets the entry of a key. -/
def insert (key : String) (value : α) : Table α → Table α
  | [] => [(key, value)]
  | (k, v) :: rest =>
    if key = k then (key, value) :: rest
    else if key < k then (key, value) :: (k, v) :: rest
    else (k, v) :: insert key value rest

/-- The table of a list of entries; of two entries with one key the later one stands. -/
def ofEntries (entries : List (String × α)) : Table α :=
  entries.foldl (fun table entry => insert entry.1 entry.2 table) []

/-- The keys in ascending order. -/
def keys (table : Table α) : List String := table.map (·.1)

@[simp]
theorem get?_nil (key : String) : get? key ([] : Table α) = none := rfl

/-- After an insertion the key has the new entry and all other keys have their old ones. -/
theorem get?_insert (key other : String) (value : α) (table : Table α) :
    get? other (insert key value table) = if key = other then some value else get? other table := by
  induction table with
  | nil => simp [insert, get?]
  | cons entry rest ih =>
    obtain ⟨k, v⟩ := entry
    simp only [insert]
    split
    · next h => subst h; by_cases h' : key = other <;> simp [get?, h']
    · next h =>
      split
      · by_cases h' : key = other <;> simp [get?, h']
      · by_cases h' : k = other
        · have : key ≠ other := fun e => h (e.trans h'.symm)
          simp [get?, h', this]
        · simp [get?, h', ih]

@[simp]
theorem get?_insert_self (key : String) (value : α) (table : Table α) :
    get? key (insert key value table) = some value := by
  simp [get?_insert]

theorem get?_insert_of_ne {key other : String} (h : key ≠ other) (value : α) (table : Table α) :
    get? other (insert key value table) = get? other table := by
  simp [get?_insert, h]

/-- The keys ascend, so none of them repeats. -/
def Sorted (table : Table α) : Prop := table.Pairwise fun a b => a.1 < b.1

theorem sorted_nil : Sorted ([] : Table α) := List.Pairwise.nil

/-- An entry of a table after an insertion is the new one or an old one. -/
theorem mem_insert {key : String} {value : α} {table : Table α} {entry : String × α}
    (h : entry ∈ insert key value table) : entry = (key, value) ∨ entry ∈ table := by
  induction table with
  | nil => simpa [insert] using h
  | cons first rest ih =>
    obtain ⟨k, v⟩ := first
    simp only [insert] at h
    split at h
    · rcases List.mem_cons.1 h with h | h
      · exact Or.inl h
      · exact Or.inr (List.mem_cons_of_mem _ h)
    · split at h
      · exact List.mem_cons.1 h
      · rcases List.mem_cons.1 h with h | h
        · exact Or.inr (h ▸ List.mem_cons_self)
        · rcases ih h with h | h
          · exact Or.inl h
          · exact Or.inr (List.mem_cons_of_mem _ h)

/-- An insertion keeps the keys in order. -/
theorem sorted_insert {table : Table α} (h : Sorted table) (key : String) (value : α) :
    Sorted (insert key value table) := by
  induction table with
  | nil => exact List.pairwise_singleton _ _
  | cons first rest ih =>
    obtain ⟨k, v⟩ := first
    obtain ⟨below, sorted⟩ := List.pairwise_cons.1 h
    simp only [insert]
    split
    · next heq => exact List.pairwise_cons.2 ⟨fun e he => heq ▸ below e he, sorted⟩
    · next hne =>
      split
      · next hlt =>
        refine List.pairwise_cons.2 ⟨fun e he => ?_, h⟩
        rcases List.mem_cons.1 he with rfl | he
        · exact hlt
        · exact String.lt_trans hlt (below e he)
      · next hge =>
        refine List.pairwise_cons.2 ⟨fun e he => ?_, ih sorted⟩
        rcases mem_insert he with rfl | he
        · exact Std.lt_of_le_of_ne (String.not_lt.1 hge) (Ne.symm hne)
        · exact below e he

/-- A table of a list of entries has its keys in order. -/
theorem sorted_ofEntries (entries : List (String × α)) : Sorted (ofEntries entries) :=
  List.foldlRecOn entries _ sorted_nil fun _ h entry _ => sorted_insert h entry.1 entry.2

theorem has_insert (key other : String) (value : α) (table : Table α) :
    has other (insert key value table) = (key = other || has other table) := by
  by_cases h : key = other <;> simp [has, get?_insert, h]

end Table

/-- A set of names, in ascending order and without repetition. -/
abbrev NameSet := Table Unit

namespace NameSet

/-- Adds a name. -/
def add (name : String) (set : NameSet) : NameSet := Table.insert name () set

/-- The set of the names of a list. -/
def ofNames (names : List String) : NameSet := Table.ofEntries (names.map fun n => (n, ()))

end NameSet

end LengthFormula
