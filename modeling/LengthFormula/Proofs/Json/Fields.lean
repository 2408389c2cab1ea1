import LengthFormula.Proofs.Json.RoundTrip

/-!
# Records, lists and tables are read back

The parts of a JSON value are read back from what is written for them: a record with distinct names
(`Json.record?_of_perm`), a list (`Json.asList?_map`) and a table (`Json.asTable?_map`).  Records
and tables are read back from their members in any order, since it is the names and keys that say
which part a member is (`Table.ofEntries_of_perm`).
-/

namespace LengthFormula

namespace Json

/-! ## What is written is well formed -/

theorem wellFormed_string (s : String) : (string s).WellFormed := trivial

theorem wellFormed_ofDouble (x : Float) : (ofDouble x).WellFormed := by
  rw [ofDouble]
  split
  · next h =>
    rw [WellFormed]
    exact numberText_chars h
  · trivial

theorem itemsWellFormed_map {α : Type} {item : α → Json} (h : ∀ x, (item x).WellFormed)
    (xs : List α) : ItemsWellFormed (xs.map item) := by
  induction xs with
  | nil => trivial
  | cons x xs ih => exact ⟨h x, ih⟩

theorem membersWellFormed_iff {members : List (String × Json)} :
    MembersWellFormed members ↔ ∀ m ∈ members, m.2.WellFormed := by
  induction members with
  | nil => simp [MembersWellFormed]
  | cons m members ih => rw [MembersWellFormed, ih, List.forall_mem_cons]

/-- An object is well formed if its values are. -/
theorem wellFormed_object_map {α : Type} {member : α → Json} (h : ∀ x, (member x).WellFormed)
    (entries : List (String × α)) :
    (object (entries.map fun e => (e.1, member e.2))).WellFormed := by
  rw [WellFormed, membersWellFormed_iff]
  intro m hm
  obtain ⟨e, -, rfl⟩ := List.mem_map.1 hm
  exact h e.2

/-! ## Records -/

section Records

variable {members parts : List (String × Json)}

theorem valuesOf_of_mem (h : (members.map Prod.fst).Nodup) {key : String} {value : Json}
    (hmem : (key, value) ∈ members) : valuesOf key members = [value] := by
  induction members with
  | nil => cases hmem
  | cons m members ih =>
    rw [List.map_cons, List.nodup_cons] at h
    obtain ⟨hnew, hnodup⟩ := h
    rcases List.mem_cons.1 hmem with rfl | hmem
    · have hnone : members.filter (·.1 == key) = [] := by
        rw [List.filter_eq_nil_iff]
        intro other hother heq
        rw [beq_iff_eq] at heq
        exact hnew (List.mem_map.2 ⟨other, hother, heq⟩)
      simp [valuesOf, hnone]
    · have hne : (m.1 == key) = false := by
        rw [beq_eq_false_iff_ne]
        rintro rfl
        exact hnew (List.mem_map.2 ⟨_, hmem, rfl⟩)
      rw [valuesOf, List.filter_cons, if_neg (by simp [hne])]
      exact ih hnodup hmem

/-- The fields of a record with distinct names are read in the order of the names, in whatever order
they are written. -/
theorem record?_of_perm (h : (members.map Prod.fst).Nodup) (hparts : parts.Perm members) :
    record? (members.map Prod.fst) (.object parts) = some (members.map fun m => some m.2) := by
  have hnodup : (parts.map Prod.fst).Nodup := (hparts.map Prod.fst).nodup_iff.2 h
  have hfields : ∀ chosen, chosen ⊆ parts →
      (chosen.map Prod.fst).mapM (field? parts) = some (chosen.map fun m => some m.2) := by
    intro chosen
    induction chosen with
    | nil => intro _; rfl
    | cons m others ih =>
      intro hsub
      have hfield : field? parts m.1 = some (some m.2) := by
        rw [field?, valuesOf_of_mem hnodup (hsub List.mem_cons_self)]
      have hmore := ih fun other hother => hsub (List.mem_cons_of_mem m hother)
      simp [hfield, hmore]
  exact hfields members fun m hm => hparts.mem_iff.2 hm

/-- The fields of a record with distinct names are read in the order in which they are written. -/
theorem record?_object (h : (members.map Prod.fst).Nodup) :
    record? (members.map Prod.fst) (.object members) = some (members.map fun m => some m.2) :=
  record?_of_perm h (.refl members)

end Records

/-! ## Lists -/

/-- A list is read item by item. -/
theorem asList?_map {α β : Type} {item? : Json → Option β} {item : α → Json} {value : α → β}
    {xs : List α} (h : ∀ x ∈ xs, item? (item x) = some (value x)) :
    asList? item? (array (xs.map item)) = some (xs.map value) := by
  rw [asList?]
  induction xs with
  | nil => rfl
  | cons x xs ih =>
    have hfirst := h x List.mem_cons_self
    have hothers := ih fun y hy => h y (List.mem_cons_of_mem x hy)
    simp [hfirst, hothers]

/-- A list of texts is read as it is. -/
theorem asList?_texts (names : List String) :
    asList? asString? (array (names.map string)) = some names := by
  have hmap : asList? asString? (array (names.map string)) = some (names.map id) :=
    asList?_map fun _ _ => rfl
  rwa [List.map_id] at hmap

end Json

/-! ## Tables -/

namespace Table

variable {α : Type} {table other entries : Table α}

/-- The keys of a table are distinct. -/
theorem nodup_keys (h : Sorted table) : (table.map Prod.fst).Nodup := by
  rw [List.nodup_iff_pairwise_ne, List.pairwise_map]
  exact h.imp fun hlt => String.ne_of_lt hlt

/-- Of a key there is the entry with this key. -/
theorem get?_eq_some_iff (h : Sorted table) {key : String} {value : α} :
    get? key table = some value ↔ (key, value) ∈ table := by
  induction table with
  | nil => simp [get?]
  | cons entry rest ih =>
    obtain ⟨k, v⟩ := entry
    obtain ⟨below, sorted⟩ := List.pairwise_cons.1 h
    rw [get?, List.mem_cons]
    split
    · next heq =>
      subst heq
      have hrest : (k, value) ∉ rest := fun hmem => String.lt_irrefl k (below _ hmem)
      simp [hrest, eq_comm]
    · next hne => simp [ih sorted, Ne.symm hne]

/-- An entry with a new key is one entry more. -/
theorem insert_perm {key : String} (h : key ∉ table.map Prod.fst) (value : α) :
    (insert key value table).Perm ((key, value) :: table) := by
  induction table with
  | nil => exact .refl _
  | cons first rest ih =>
    obtain ⟨k, v⟩ := first
    rw [List.map_cons, List.mem_cons, not_or] at h
    rw [insert, if_neg h.1]
    split
    · exact .refl _
    · exact ((ih h.2).cons (k, v)).trans (.swap _ _ _)

/-- Entries with distinct keys all come into the table. -/
theorem ofEntries_perm (h : (entries.map Prod.fst).Nodup) : (ofEntries entries).Perm entries := by
  have hfold : ∀ done : Table α, (done.map Prod.fst ++ entries.map Prod.fst).Nodup →
      (entries.foldl (fun table entry => insert entry.1 entry.2 table) done).Perm
        (done ++ entries) := by
    clear h
    induction entries with
    | nil => exact fun done _ => by rw [List.append_nil]; exact .refl done
    | cons entry rest ih =>
      intro done hnodup
      have hmiddle : (done.map Prod.fst ++ (entry :: rest).map Prod.fst).Perm
          (((entry :: done).map Prod.fst) ++ rest.map Prod.fst) := List.perm_middle
      have hkeys := hmiddle.nodup_iff.1 hnodup
      have hnew : entry.1 ∉ done.map Prod.fst := fun hmem =>
        (List.nodup_cons.1 hkeys).1 (List.mem_append_left _ hmem)
      have hinsert := insert_perm hnew entry.2
      refine (ih _ ?_).trans ((hinsert.append_right rest).trans List.perm_middle.symm)
      exact ((hinsert.map Prod.fst).append_right _).nodup_iff.2 hkeys
  exact hfold [] h

/-- Tables with the same entries are equal. -/
theorem eq_of_perm (h : Sorted table) (hother : Sorted other) (hperm : table.Perm other) :
    table = other :=
  hperm.eq_of_pairwise (fun _ _ _ _ hlt hgt => absurd hlt (String.lt_asymm hgt)) h hother

/-- A table is made of its entries in any order. -/
theorem ofEntries_of_perm (h : Sorted table) (hperm : entries.Perm table) :
    ofEntries entries = table :=
  eq_of_perm (sorted_ofEntries entries) h
    ((ofEntries_perm ((hperm.map Prod.fst).nodup_iff.2 (nodup_keys h))).trans hperm)

end Table

namespace Json

section Tables

variable {α : Type} {member? : Json → Option α} {member : α → Json}

/-- A table is read entry by entry. -/
theorem asTable?_map {entries : List (String × α)}
    (h : ∀ e ∈ entries, member? (member e.2) = some e.2) :
    asTable? member? (object (entries.map fun e => (e.1, member e.2)))
      = some (Table.ofEntries entries) := by
  have hentries : (entries.map fun e => (e.1, member e.2)).mapM
      (fun m => (member? m.2).map (m.1, ·)) = some entries := by
    induction entries with
    | nil => rfl
    | cons e entries ih =>
      have hfirst := h e List.mem_cons_self
      have hothers := ih fun other hother => h other (List.mem_cons_of_mem e hother)
      simp [hfirst, hothers]
  rw [asTable?, hentries, Option.map_some]

/-- An entry that cannot be read spoils the table. -/
theorem asTable?_eq_none {members : List (String × Json)} {m : String × Json} (hm : m ∈ members)
    (h : member? m.2 = none) : asTable? member? (object members) = none := by
  have hentries : members.mapM (fun m => (member? m.2).map (m.1, ·)) = none := by
    induction members with
    | nil => cases hm
    | cons other members ih =>
      rcases List.mem_cons.1 hm with rfl | hm
      · simp [h]
      · cases member? other.2 <;> simp [ih hm]
  rw [asTable?, hentries, Option.map_none]

end Tables

/-- A table of doubles is read back if they are all finite, and not at all otherwise. -/
theorem asTable?_doubles (entries : List (String × Float)) :
    asTable? asDouble? (object (entries.map fun e => (e.1, ofDouble e.2)))
      = if entries.all fun e => Double.isFinite e.2 then some (Table.ofEntries entries)
        else none := by
  split
  · next h =>
    refine asTable?_map fun e he => ?_
    rw [asDouble?_ofDouble, if_pos (List.all_eq_true.1 h e he)]
  · next h =>
    rw [List.all_eq_true] at h
    obtain ⟨e, he⟩ := not_forall.1 h
    obtain ⟨hmem, hinfinite⟩ := Classical.not_imp.1 he
    refine asTable?_eq_none (List.mem_map.2 ⟨e, hmem, rfl⟩) ?_
    rw [asDouble?_ofDouble, if_neg hinfinite]

end Json

end LengthFormula
