import LengthFormula.Proofs.Json.Numbers

/-!
# Reading back JSON text

A value whose numbers have the form of numbers and which holds no half of a surrogate pair
(`Json.WellFormed`) is read back from its compact text (`Json.read?_render`).  Each reader is shown
to stop where the text of its part ends, whatever stands behind it; only the text behind a number
must not go on with the number.
-/

namespace LengthFormula.Json

/-! ## Strings -/

section Strings

variable {done rest : List Char}

/-- The two digits of a control character are read as its code point. -/
theorem hexUnit?_of_lt {n : Nat} (h : n < 0x20) :
    hexUnit? '0' '0' (hexDigit (n / 16)) (hexDigit (n % 16)) = some n := by
  have hall : ∀ n < 0x20, hexUnit? '0' '0' (hexDigit (n / 16)) (hexDigit (n % 16)) = some n := by
    decide
  exact hall n h

/-- A character of a string is read back from what is written for it. -/
theorem stringBody?_escapedChar (c : Char) :
    stringBody? done (escapedChar c ++ rest) = stringBody? (c :: done) rest := by
  unfold escapedChar
  -- seven characters are written by a letter of their own
  iterate 7
    split
    · next h => subst h; rfl
  split
  · next hcontrol =>
    simp only [List.cons_append, List.nil_append, stringBody?, hexUnit?_of_lt hcontrol]
    rw [if_neg, if_neg, Char.ofNat_toNat]
    all_goals simp [isHighSurrogate, isLowSurrogate]; omega
  · next hcontrol =>
    rw [List.singleton_append]
    simp [stringBody?, *]

theorem stringBody?_flatMap (cs : List Char) :
    stringBody? done (cs.flatMap escapedChar ++ '\x22' :: rest)
      = some (done.reverse ++ cs, rest) := by
  induction cs generalizing done with
  | nil => simp [stringBody?]
  | cons c cs ih =>
    rw [List.flatMap_cons, List.append_assoc, stringBody?_escapedChar, ih]
    simp

/-- A string is read back from what is written behind its opening quote. -/
theorem quotedText?_append (s : String) :
    quotedText? (s.toList.flatMap escapedChar ++ '\x22' :: rest) = some (some s, rest) := by
  rw [quotedText?, stringBody?_flatMap]
  simp

end Strings

/-! ## Values -/

mutual

/-- The numbers of a value have the form of numbers, and it holds no half of a surrogate pair. -/
def WellFormed : Json → Prop
  | unpaired => False
  | number text => NumberText text
  | array items => ItemsWellFormed items
  | object members => MembersWellFormed members
  | _ => True

/-- The items of an array are well formed. -/
def ItemsWellFormed : List Json → Prop
  | [] => True
  | item :: items => item.WellFormed ∧ ItemsWellFormed items

/-- The values of an object are well formed. -/
def MembersWellFormed : List (String × Json) → Prop
  | [] => True
  | member :: members => member.2.WellFormed ∧ MembersWellFormed members

end

theorem isJsonBlank_of_isDigit {c : Char} (h : isDigit c = true) : isJsonBlank c = false := by
  simp only [isJsonBlank, Bool.or_eq_false_iff, beq_eq_false_iff_ne]
  exact ⟨⟨⟨ne_of_class h rfl, ne_of_class h rfl⟩, ne_of_class h rfl⟩, ne_of_class h rfl⟩

/-- The text of a value starts with neither white space nor a closing bracket. -/
theorem WellFormed.exists_cons {j : Json} (h : j.WellFormed) :
    ∃ c cs, j.chars = c :: cs ∧ isJsonBlank c = false ∧ c ≠ ']' := by
  cases j with
  | null => exact ⟨_, _, rfl, rfl, by decide⟩
  | unpaired => exact h.elim
  | bool value => cases value <;> exact ⟨_, _, rfl, rfl, by decide⟩
  | number text =>
    rw [WellFormed] at h
    obtain ⟨c, cs, rfl, hc⟩ := h.exists_cons
    refine ⟨c, cs, by rw [chars], ?_, ?_⟩
    · rcases hc with hc | rfl
      · exact isJsonBlank_of_isDigit hc
      · rfl
    · rintro rfl
      rcases hc with hc | hc <;> cases hc
  | string value => exact ⟨_, _, rfl, rfl, by decide⟩
  | array items => cases items <;> exact ⟨_, _, rfl, rfl, by decide⟩
  | object members => cases members <;> exact ⟨_, _, rfl, rfl, by decide⟩

theorem WellFormed.skipBlanks_append {j : Json} (h : j.WellFormed) (rest : List Char) :
    skipBlanks (j.chars ++ rest) = j.chars ++ rest := by
  obtain ⟨c, cs, heq, hc, -⟩ := h.exists_cons
  rw [heq, skipBlanks, List.cons_append, List.dropWhile_cons, if_neg (by simp [hc])]

/-- An object all of whose keys were read is the object of its members. -/
theorem ofMembers_map (members : List (String × Json)) :
    ofMembers (members.map fun m => (some m.1, m.2)) = object members := by
  have hkeys : (members.map fun m => (some m.1, m.2)).mapM
      (fun m : Option String × Json => m.1.map (·, m.2)) = some members := by
    induction members with
    | nil => rfl
    | cons m members ih => simp [ih]
  rw [ofMembers, hkeys]

/-- A number is read as one, since it starts as no other value does. -/
theorem value?_number {text rest : List Char} (h : NumberText text) (hrest : EndsNumber rest)
    (bound : Nat) : value? (bound + 1) (text ++ rest) = some (number text, rest) := by
  have hread := numberText?_append h hrest
  have hskip := WellFormed.skipBlanks_append (j := number text) h rest
  rw [chars] at hskip
  obtain ⟨c, cs, rfl, hc⟩ := h.exists_cons
  have hfirst : ∀ {d : Char} {ds : List Char}, c :: cs ++ rest = d :: ds →
      isDigit d = true ∨ d = '-' :=
    fun heq => (List.cons.inj heq).1 ▸ hc
  unfold value?
  rw [hskip]
  split
  all_goals first | (next heq => exact absurd (hfirst heq) (by decide)) | skip
  rw [hread, Option.map_some]

section Closing

variable (rest : List Char)

theorem endsNumber_itemsChars (items : List Json) : EndsNumber (itemsChars items ++ rest) := by
  cases items <;> exact ⟨rfl, rfl⟩

theorem endsNumber_membersChars (members : List (String × Json)) :
    EndsNumber (membersChars members ++ rest) := by
  cases members <;> exact ⟨rfl, rfl⟩

theorem length_itemsChars_pos (items : List Json) : 0 < (itemsChars items).length := by
  cases items <;> simp [itemsChars]

theorem length_membersChars_pos (members : List (String × Json)) :
    0 < (membersChars members).length := by
  cases members <;> simp [membersChars]

end Closing

/-- Behind the characters of a string the closing quote stands. -/
theorem stringChars_append (s : String) (rest : List Char) :
    stringChars s ++ rest = '\x22' :: (s.toList.flatMap escapedChar ++ '\x22' :: rest) := by
  simp [stringChars]

theorem skipBlanks_of_cons {c : Char} {cs : List Char} (h : isJsonBlank c = false) :
    skipBlanks (c :: cs) = c :: cs := by
  rw [skipBlanks, List.dropWhile_cons, if_neg (Bool.eq_false_iff.1 h)]

/-- Behind an item the next one or the bracket stands. -/
theorem skipBlanks_itemsChars (items : List Json) (rest : List Char) :
    skipBlanks (itemsChars items ++ rest) = itemsChars items ++ rest := by
  cases items <;> exact skipBlanks_of_cons rfl

theorem skipBlanks_membersChars (members : List (String × Json)) (rest : List Char) :
    skipBlanks (membersChars members ++ rest) = membersChars members ++ rest := by
  cases members <;> exact skipBlanks_of_cons rfl

theorem value?_array {c : Char} {cs : List Char} (hc : isJsonBlank c = false) (hclosing : c ≠ ']')
    {bound : Nat} : value? (bound + 1) ('[' :: c :: cs)
      = (items? bound (c :: cs)).map fun (items, rest) => (array items, rest) := by
  rw [value?, skipBlanks_of_cons rfl]
  simp only [skipBlanks_of_cons hc]
  split
  · next heq => exact absurd (List.cons.inj heq).1 hclosing
  · rfl

theorem value?_object {cs : List Char} {bound : Nat} : value? (bound + 1) ('\x7b' :: '\x22' :: cs)
    = (members? bound ('\x22' :: cs)).map fun (members, rest) => (ofMembers members, rest) := by
  have hskip : skipBlanks ('\x22' :: cs) = '\x22' :: cs := skipBlanks_of_cons rfl
  rw [value?, skipBlanks_of_cons rfl]
  simp only [hskip]
  rfl

theorem length_chars_pos {j : Json} (h : j.WellFormed) : 0 < j.chars.length := by
  obtain ⟨c, cs, heq, -⟩ := h.exists_cons
  rw [heq]
  exact Nat.succ_pos _

/-! Each step of reading a value takes at least one character of its text, so the length of the text
bounds the steps. -/

mutual

/-- A value is read back in front of whatever does not go on with it. -/
theorem value?_append : ∀ (bound : Nat) (j : Json) (rest : List Char), j.WellFormed →
    j.chars.length ≤ bound → EndsNumber rest → value? bound (j.chars ++ rest) = some (j, rest)
  | 0, j, rest, h, hbound, _ => absurd (length_chars_pos h) (Nat.not_lt.2 hbound)
  | bound + 1, null, rest, _, _, _ => rfl
  | bound + 1, bool true, rest, _, _, _ => rfl
  | bound + 1, bool false, rest, _, _, _ => rfl
  | bound + 1, number text, rest, h, _, hrest => by
    rw [WellFormed] at h
    rw [chars, value?_number h hrest]
  | bound + 1, string value, rest, _, _, _ => by
    rw [chars, stringChars_append, value?, skipBlanks_of_cons rfl]
    simp only [quotedText?_append, Option.map_some, ofQuoted]
  | bound + 1, array [], rest, _, _, _ => rfl
  | bound + 1, array (item :: items), rest, h, hbound, _ => by
    rw [WellFormed, ItemsWellFormed] at h
    obtain ⟨hitem, hitems⟩ := h
    simp only [chars, List.cons_append, List.length_cons, List.length_append] at hbound
    have hread := items?_append bound item items rest hitem hitems (by omega)
    obtain ⟨c, cs, heq, hc, hclosing⟩ := hitem.exists_cons
    rw [heq] at hread
    rw [chars, List.cons_append, List.cons_append, List.append_assoc, heq, List.cons_append,
      value?_array hc hclosing, ← List.cons_append, hread, Option.map_some]
  | bound + 1, object [], rest, _, _, _ => rfl
  | bound + 1, object ((key, value) :: members), rest, h, hbound, _ => by
    rw [WellFormed, MembersWellFormed] at h
    obtain ⟨hvalue, hmembers⟩ := h
    simp only [chars, List.cons_append, List.length_cons, List.length_append] at hbound
    have hread := members?_append bound key value members rest hvalue hmembers (by omega)
    rw [stringChars_append] at hread
    simp only [chars, List.cons_append, List.append_assoc, stringChars_append]
    rw [value?_object, hread, ← ofMembers_map, Option.map_some]

/-- Items are read back with the bracket behind them. -/
theorem items?_append : ∀ (bound : Nat) (item : Json) (items : List Json) (rest : List Char),
    item.WellFormed → ItemsWellFormed items →
    item.chars.length + (itemsChars items).length ≤ bound →
    items? bound (item.chars ++ (itemsChars items ++ rest)) = some (item :: items, rest)
  | 0, item, items, rest, hitem, _, hbound => by
    have := length_chars_pos hitem
    omega
  | bound + 1, item, items, rest, hitem, hitems, hbound => by
    have hpos := length_itemsChars_pos items
    have hread := value?_append bound item (itemsChars items ++ rest) hitem (by omega)
      (endsNumber_itemsChars rest items)
    rw [items?, hread]
    simp only
    rw [skipBlanks_itemsChars]
    cases items with
    | nil => rfl
    | cons next items =>
      rw [ItemsWellFormed] at hitems
      simp only [itemsChars, List.cons_append, List.length_cons, List.length_append] at hbound
      have hmore := items?_append bound next items rest hitems.1 hitems.2 (by omega)
      rw [itemsChars, List.cons_append, List.cons_append, List.append_assoc]
      simp only [hmore, Option.map_some]

/-- Members are read back with the brace behind them. -/
theorem members?_append : ∀ (bound : Nat) (key : String) (value : Json)
    (members : List (String × Json)) (rest : List Char), value.WellFormed →
    MembersWellFormed members → value.chars.length + (membersChars members).length ≤ bound →
    members? bound (stringChars key ++ ':' :: (value.chars ++ (membersChars members ++ rest)))
      = some (((key, value) :: members).map fun m => (some m.1, m.2), rest)
  | 0, key, value, members, rest, hvalue, _, hbound => by
    have := length_chars_pos hvalue
    omega
  | bound + 1, key, value, members, rest, hvalue, hmembers, hbound => by
    have hpos := length_membersChars_pos members
    have hread := value?_append bound value (membersChars members ++ rest) hvalue (by omega)
      (endsNumber_membersChars rest members)
    rw [stringChars_append, members?, skipBlanks_of_cons rfl]
    simp only [quotedText?_append]
    rw [skipBlanks_of_cons rfl]
    simp only [hread]
    rw [skipBlanks_membersChars]
    cases members with
    | nil => rfl
    | cons next members =>
      obtain ⟨nextKey, nextValue⟩ := next
      rw [MembersWellFormed] at hmembers
      simp only [membersChars, List.cons_append, List.length_cons, List.length_append] at hbound
      have hmore := members?_append bound nextKey nextValue members rest hmembers.1 hmembers.2
        (by omega)
      simp only [membersChars, List.cons_append, List.append_assoc, hmore, Option.map_some,
        List.map_cons]

end

/-- A well-formed value is read back from its text. -/
theorem read?_render {j : Json} (h : j.WellFormed) : read? j.render = some j := by
  have hread := value?_append (2 * j.chars.length + 2) j [] h (by omega) ⟨rfl, rfl⟩
  rw [List.append_nil] at hread
  rw [read?, render, String.toList_ofList, readChars?, hread]
  rfl

end LengthFormula.Json
