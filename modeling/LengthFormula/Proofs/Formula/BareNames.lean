import LengthFormula.Proofs.Formula.Reference
import LengthFormula.Proofs.Term.Substitution

/-!
# Bare names

A name is bare where no `(` follows it.  In what derives from the grammar no number and no name
stands directly in front of another one (`Derives.isSpread`), and other atoms can be put in for bare
names (`Derives.mapBare`).
-/

namespace LengthFormula

/-- The bare names of a list, in order. -/
def bareNames : List TokenKind → List String
  | [] => []
  | .name name :: ks =>
    if ks.head? = some .leftParen then bareNames ks else name :: bareNames ks
  | _ :: ks => bareNames ks

/-- The list with the tokens `σ name` in the place of each bare name. -/
def mapBare (σ : String → List TokenKind) : List TokenKind → List TokenKind
  | [] => []
  | .name name :: ks =>
    (if ks.head? = some .leftParen then [.name name] else σ name) ++ mapBare σ ks
  | k :: ks => k :: mapBare σ ks

/-- A number or a name. -/
def TokenKind.isLeaf : TokenKind → Bool
  | number _ | name _ => true
  | _ => false

/-- The first token is a number or a name. -/
def startsLeaf (ks : List TokenKind) : Bool := ks.head?.any TokenKind.isLeaf

@[simp]
theorem startsLeaf_nil : startsLeaf [] = false := rfl

@[simp]
theorem startsLeaf_cons (k : TokenKind) (ks : List TokenKind) :
    startsLeaf (k :: ks) = k.isLeaf := by
  simp [startsLeaf]

/-- No number and no name stands directly in front of another one. -/
def Spread : List TokenKind → Prop
  | [] => True
  | k :: ks => (k.isLeaf = true → startsLeaf ks = false) ∧ Spread ks

theorem Spread.of_append {a b : List TokenKind} (h : Spread (a ++ b)) : Spread a := by
  induction a with
  | nil => trivial
  | cons k a ih =>
    refine ⟨fun hk => ?_, ih h.2⟩
    cases a with
    | nil => rfl
    | cons k' a => exact h.1 hk

theorem Spread.cons {k : TokenKind} {ks : List TokenKind} (hk : k.isLeaf = false) (h : Spread ks) :
    Spread (k :: ks) :=
  ⟨fun hleaf => absurd hleaf (Bool.eq_false_iff.1 hk), h⟩

theorem Chain.isLeaf_of_operator? {c : Chain} {k : TokenKind} {op : BinaryOp}
    (h : c.operator? k = some op) : k.isLeaf = false := by
  cases c <;> cases k <;> first | rfl | cases h

theorem bareNames_cons {k : TokenKind} {ks : List TokenKind} (h : k.isLeaf = false) :
    bareNames (k :: ks) = bareNames ks := by
  cases k <;> first | rfl | cases h

@[simp]
theorem bareNames_called (name : String) (ks : List TokenKind) :
    bareNames (.name name :: .leftParen :: ks) = bareNames ks := rfl

theorem bareNames_bare {name : String} {ks : List TokenKind} (h : ks.head? ≠ some .leftParen) :
    bareNames (.name name :: ks) = name :: bareNames ks := by
  rw [bareNames, if_neg h]

theorem bareNames_subset_of_isSuffix {ks rest : List TokenKind} (h : rest <:+ ks) :
    bareNames rest ⊆ bareNames ks := by
  induction ks with
  | nil =>
    rw [List.suffix_nil.1 h]
    exact List.Subset.refl _
  | cons k ks ih =>
    rcases List.suffix_cons_iff.1 h with rfl | h
    · exact List.Subset.refl _
    · refine List.Subset.trans (ih h) ?_
      cases k with
      | name name =>
        rw [bareNames]
        split
        · exact List.Subset.refl _
        · exact List.subset_cons_self _ _
      | _ => exact List.Subset.refl _

/-- The end of the text makes no difference to the names in front of it. -/
theorem bareNames_append_finish (ks : List TokenKind) :
    bareNames (ks ++ [.finish]) = bareNames ks := by
  induction ks with
  | nil => rfl
  | cons k ks ih =>
    cases k with
    | name name =>
      have hhead : (ks ++ [TokenKind.finish]).head? = some .leftParen ↔
          ks.head? = some .leftParen := by
        cases ks <;> simp
      rw [List.cons_append, bareNames, bareNames, ih]
      simp only [hhead]
    | _ => exact ih

section MapBare

variable {σ : String → List TokenKind}

@[simp]
theorem mapBare_nil : mapBare σ [] = [] := rfl

theorem mapBare_cons {k : TokenKind} {ks : List TokenKind} (h : ∀ name, k ≠ .name name) :
    mapBare σ (k :: ks) = k :: mapBare σ ks := by
  cases k with
  | name name => exact absurd rfl (h name)
  | _ => rfl

theorem mapBare_called (name : String) (ks : List TokenKind) :
    mapBare σ (.name name :: .leftParen :: ks) = .name name :: .leftParen :: mapBare σ ks := rfl

theorem mapBare_bare {name : String} {ks : List TokenKind} (h : ks.head? ≠ some .leftParen) :
    mapBare σ (.name name :: ks) = σ name ++ mapBare σ ks := by
  rw [mapBare, if_neg h]

/-- Where no leaf stands in front, the first token stays. -/
theorem head?_mapBare {ks : List TokenKind} (h : startsLeaf ks = false) :
    (mapBare σ ks).head? = ks.head? := by
  cases ks with
  | nil => rfl
  | cons k ks =>
    rw [mapBare_cons]
    · rfl
    · rintro name rfl
      cases h

theorem bindingOf_eq_of_head? {ks ks' : List TokenKind} (h : ks.head? = ks'.head?) :
    bindingOf ks = bindingOf ks' := by
  cases ks <;> cases ks' <;> simp_all

end MapBare

/-! ## Derivations -/

section Derivations

variable {scope scope' : Scope} {levels more : Nat} {r : Rank} {ks rest : List TokenKind} {t : Term}

/-- What the grammar takes has no number and no name directly in front of another one. -/
theorem Derives.isSpread (h : Derives scope levels r ks t rest) (hrest : Spread rest)
    (hleaf : startsLeaf rest = false) : Spread ks := by
  induction h with
  | operand _ ih => exact ih hrest hleaf
  | join _ hop _ ihl ihr =>
    have hk := Chain.isLeaf_of_operator? hop
    exact ihl (.cons hk (ihr hrest hleaf)) (by simpa using hk)
  | number => exact ⟨fun _ => hleaf, hrest⟩
  | name => exact ⟨fun _ => hleaf, hrest⟩
  | random => exact ⟨fun _ => rfl, .cons rfl (.cons rfl hrest)⟩
  | call _ _ ih => exact ⟨fun _ => rfl, .cons rfl (ih (.cons rfl hrest) rfl)⟩
  | call2 _ _ _ ihf ihs =>
    exact ⟨fun _ => rfl, .cons rfl (ihf (.cons rfl (ihs (.cons rfl hrest) rfl)) rfl)⟩
  | minus _ _ ih => exact .cons rfl (ih hrest hleaf)
  | plus _ _ ih => exact .cons rfl (ih hrest hleaf)
  | paren _ ih => exact .cons rfl (ih (.cons rfl hrest) rfl)

/-- With other atoms in the places of the bare names, a derivation derives the term with their trees
in the places of the variables. -/
theorem Derives.mapBare {σ : String → List TokenKind} {τ : String → Term}
    (h : Derives scope levels r ks t rest) (hleaf : startsLeaf rest = false)
    (hσ : ∀ name ∈ bareNames ks, ∀ rest, rest.head? ≠ some .leftParen →
      Derives scope' more .atom (σ name ++ rest) ((scope.nameTerm name).subst τ) rest) :
    Derives scope' (levels + more) r (mapBare σ ks) (t.subst τ) (mapBare σ rest) := by
  induction h with
  | operand _ ih => exact .operand (ih hleaf hσ)
  | @join _ c _ behind _ k op left right hl hop hr ihl ihr =>
    have hk := Chain.isLeaf_of_operator? hop
    have hleft := ihl (by simpa using hk) hσ
    rw [mapBare_cons (by rintro name rfl; cases hk)] at hleft
    refine .join hleft hop (ihr hleaf fun name hname => hσ name ?_)
    refine bareNames_subset_of_isSuffix hl.isSuffix ?_
    rw [bareNames_cons hk]
    exact hname
  | number =>
    rw [mapBare_cons (by simp)]
    exact .number
  | @name _ name rest hhead =>
    rw [mapBare_bare hhead]
    refine (hσ name ?_ _ ?_).mono (Nat.le_add_left _ _)
    · rw [bareNames_bare hhead]
      exact List.mem_cons_self
    · rw [head?_mapBare hleaf]
      exact hhead
  | random =>
    rw [mapBare_called, mapBare_cons (by simp), Nat.add_right_comm]
    exact .random
  | call hf _ ih =>
    rw [mapBare_called, Nat.add_right_comm]
    exact .call hf (ih rfl hσ)
  | @call2 _ _ ks behind _ _ _ hf h₁ _ ihf ihs =>
    rw [mapBare_called, Nat.add_right_comm]
    refine .call2 hf (ihf rfl hσ) (ihs rfl fun name hname => hσ name ?_)
    exact bareNames_subset_of_isSuffix h₁.isSuffix hname
  | minus _ hrest ih =>
    rw [mapBare_cons (by simp), Nat.add_right_comm]
    refine .minus (ih hleaf hσ) ?_
    rw [bindingOf_eq_of_head? (head?_mapBare hleaf)]
    exact hrest
  | plus _ hrest ih =>
    rw [mapBare_cons (by simp), Nat.add_right_comm]
    refine .plus (ih hleaf hσ) ?_
    rw [bindingOf_eq_of_head? (head?_mapBare hleaf)]
    exact hrest
  | paren _ ih =>
    rw [mapBare_cons (by simp), Nat.add_right_comm]
    exact .paren (ih rfl hσ)

end Derivations

end LengthFormula
