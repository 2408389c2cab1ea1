import LengthFormula.Proofs.Formula.Cursor
import LengthFormula.Proofs.Formula.Reference

/-!
# The counter of open levels

Whatever part of the parser runs, and wherever the cursor stands, the counter does not fall below
where it was and does not rise above the limit, and a part that is done leaves it as it was.  The
heights that the parser keeps track of are those of the trees.  Both are one property of runs
(`Run.Guarded`), which goes from the steps to the phrases of all ranks and to calls
(`Run.guarded_phrase`, `Run.guarded_call`).  So in a whole run the counter stays between zero and
the limit (`Run.depth_of_parsed`).
-/

namespace LengthFormula

/-- Between the cursors the counter is at least `low` and keeps the limit. -/
def Cursor.Passed (low : Int) (c c' : Cursor) : Prop :=
  ∃ places, c'.passed = places ++ c.passed ∧
    ∀ place ∈ places, low ≤ place.depth ∧ place.depth ≤ maxDepth

/-- The height that the parser keeps track of is that of the tree, and it keeps the limit. -/
def Node.Measured (node : Node) : Prop := node.height = node.term.height ∧ node.height ≤ maxDepth

/-- A run that started at the cursor did not lower the counter or raise it above the limit; if it is
done, it left the counter as it was, and its result has the property. -/
def Ending.Guarded {α : Type} (p : α → Prop) (c : Cursor) : Ending α → Prop
  | .done result c' =>
    p result ∧ c'.place.depth = c.place.depth ∧ c.Passed c.place.depth c'
  | .failed _ c' => c.Passed c.place.depth c'
  | .exhausted => True

/-- The part of the parser is guarded wherever it starts within the limit. -/
def Run.Guarded {α : Type} (p : α → Prop) (run : Run α) : Prop :=
  ∀ c : Cursor, c.place.depth ≤ maxDepth → (run c).Guarded p c

namespace Cursor

variable {a b c : Cursor} {low : Int}

theorem Passed.refl (low : Int) (c : Cursor) : c.Passed low c := ⟨[], rfl, by simp⟩

theorem Passed.trans (h : a.Passed low b) (h' : b.Passed low c) : a.Passed low c := by
  obtain ⟨places, hplaces, hbounds⟩ := h
  obtain ⟨places', hplaces', hbounds'⟩ := h'
  exact ⟨places' ++ places, by rw [hplaces', hplaces, List.append_assoc],
    List.forall_mem_append.2 ⟨hbounds', hbounds⟩⟩

theorem Passed.mono {lower : Int} (h : a.Passed low b) (hle : lower ≤ low) : a.Passed lower b := by
  obtain ⟨places, hplaces, hbounds⟩ := h
  exact ⟨places, hplaces, fun place hplace =>
    ⟨Int.le_trans hle (hbounds place hplace).1, (hbounds place hplace).2⟩⟩

theorem passed_goTo {place : Place} (hlow : low ≤ place.depth) (hhigh : place.depth ≤ maxDepth) :
    c.Passed low (c.goTo place) :=
  ⟨[place], rfl, by simp [hlow, hhigh]⟩

end Cursor

namespace Run

/-! ## Steps -/

section Steps

variable {α β : Type} {p : α → Prop} {q : β → Prop} {tokens : List Token}

theorem guarded_pure {result : α} (h : p result) : Guarded p (pure result : Run α) :=
  fun c _ => ⟨h, rfl, .refl _ c⟩

theorem guarded_fail (fault : ParseFault) : Guarded p (fail tokens fault : Run α) :=
  fun c _ => .refl _ c

theorem guarded_exhausted : Guarded p (fun _ => .exhausted : Run α) := fun _ _ => trivial

theorem guarded_current : Guarded (fun _ => True) (current tokens) :=
  fun c _ => ⟨trivial, rfl, .refl _ c⟩

/-- Guarded parts are guarded one after the other. -/
theorem Guarded.bind {run : Run α} {next : α → Run β} (hrun : Guarded p run)
    (hnext : ∀ result, p result → Guarded q (next result)) : Guarded q (run >>= next) := by
  intro c hc
  have h := hrun c hc
  rw [bind_apply]
  cases hdone : run c with
  | done result c' =>
    rw [hdone] at h
    obtain ⟨hresult, hdepth, hpassed⟩ := h
    have h' := hnext result hresult c' (by omega)
    rw [Ending.andThen_done]
    cases hdone' : next result c' with
    | done result' c'' =>
      rw [hdone'] at h'
      obtain ⟨hresult', hdepth', hpassed'⟩ := h'
      exact ⟨hresult', hdepth'.trans hdepth, hpassed.trans (hdepth ▸ hpassed')⟩
    | failed error c'' =>
      rw [hdone'] at h'
      exact hpassed.trans (hdepth ▸ h')
    | exhausted => trivial
  | failed error c' =>
    rw [hdone] at h
    exact h
  | exhausted => trivial

theorem Guarded.ite {condition : Prop} [Decidable condition] {yes no : Run α}
    (hyes : Guarded p yes) (hno : Guarded p no) : Guarded p (if condition then yes else no) := by
  by_cases h : condition
  · rwa [if_pos h]
  · rwa [if_neg h]

theorem guarded_advance : Guarded (fun _ => True) (advance tokens) :=
  guarded_current.bind fun _ _ => (guarded_fail _).ite fun c hc =>
    ⟨trivial, rfl, c.passed_goTo (Int.le_refl _) hc⟩

theorem guarded_expect (kind : TokenKind) : Guarded (fun _ => True) (expect tokens kind) :=
  guarded_current.bind fun _ _ => guarded_advance.ite (guarded_fail _)

/-- The check of the height lets only trees through that keep the limit. -/
theorem guarded_node {term : Term} {height : Nat} (h : height = term.height) :
    Guarded Node.Measured (node tokens term height) := by
  by_cases hlimit : maxDepth < height
  · rw [node, if_pos hlimit]
    exact guarded_fail _
  · rw [node, if_neg hlimit]
    exact guarded_pure ⟨h, Nat.not_lt.1 hlimit⟩

/-- One level down the counter is one higher, and behind the part it is as before. -/
theorem Guarded.nested {p : Node → Prop} {body : Run Node} (h : Guarded p body) :
    Guarded p (Run.nested tokens body) := by
  intro c hc
  by_cases hlimit : (maxDepth : Int) ≤ c.place.depth
  · rw [nested_of_le hlimit]
    exact guarded_fail _ c hc
  · rw [nested_of_lt (Int.not_le.1 hlimit)]
    obtain ⟨down, hdown⟩ : ∃ down, c.goTo ⟨c.place.index, c.place.depth + 1⟩ = down := ⟨_, rfl⟩
    have hdepth : down.place.depth = c.place.depth + 1 := by rw [← hdown]; rfl
    have hpassed : c.Passed c.place.depth down := by
      rw [← hdown]
      exact c.passed_goTo (Int.le_add_one (Int.le_refl _)) (Int.not_le.1 hlimit)
    have hbody := h down (by omega)
    rw [hdown]
    cases hdone : body down with
    | done result c' =>
      rw [hdone] at hbody
      obtain ⟨hresult, hdepth', hpassed'⟩ := hbody
      have hup : c'.place.depth - 1 = c.place.depth := by omega
      refine ⟨hresult, hup, (hpassed.trans (hpassed'.mono (by omega))).trans ?_⟩
      exact c'.passed_goTo (Int.le_of_eq hup.symm) (Int.le_trans (Int.le_of_eq hup) hc)
    | failed error c' =>
      rw [hdone] at hbody
      exact hpassed.trans (hbody.mono (by omega))
    | exhausted => trivial

end Steps

/-! ## Phrases -/

section Phrases

variable {scope : Scope} {tokens : List Token} {operator? : TokenKind → Option BinaryOp}
  {operand inner : Run Node}

theorem guarded_reference (name : String) (span : Span) :
    Guarded Node.Measured (reference scope name span) := by
  intro c _
  have hheight := reference_height scope name span
  have hmeasured : Node.Measured
      ⟨(LengthFormula.reference scope name span).term,
        (LengthFormula.reference scope name span).height⟩ :=
    ⟨by rw [hheight, reference_term, height_nameTerm], hheight ▸ (by decide : 1 ≤ maxDepth)⟩
  exact ⟨hmeasured, rfl, [], rfl, by simp⟩

theorem Guarded.chainFrom (h : Guarded Node.Measured operand) (fuel : Nat) {left : Node}
    (hleft : left.Measured) :
    Guarded Node.Measured (Run.chainFrom tokens operator? operand fuel left) := by
  induction fuel generalizing left with
  | zero => exact guarded_exhausted
  | succ fuel ih =>
    refine guarded_current.bind fun token _ => ?_
    cases operator? token.kind with
    | none => exact guarded_pure hleft
    | some op =>
      refine guarded_advance.bind fun _ _ => h.bind fun right hright => ?_
      refine (guarded_node ?_).bind fun joined hjoined => ih hjoined
      rw [hleft.1, hright.1]
      rfl

theorem Guarded.chain (h : Guarded Node.Measured operand) (fuel : Nat) :
    Guarded Node.Measured (Run.chain tokens operator? operand fuel) :=
  h.bind fun _ hfirst => h.chainFrom fuel hfirst

/-- The arguments of a call are guarded. -/
theorem guarded_call (h : Guarded Node.Measured inner) (name : String) :
    Guarded Node.Measured (call tokens name inner) := by
  refine .ite ?_ (.ite ?_ (.ite ?_ (guarded_fail _)))
  · exact (guarded_expect _).bind fun _ _ => guarded_pure ⟨rfl, (by decide : 1 ≤ maxDepth)⟩
  · exact h.bind fun argument hargument => (guarded_expect _).bind fun _ _ =>
      guarded_node (by rw [hargument.1]; rfl)
  · exact h.bind fun first hfirst => (guarded_expect _).bind fun _ _ => h.bind fun second hsecond =>
      (guarded_expect _).bind fun _ _ => guarded_node (by rw [hfirst.1, hsecond.1]; rfl)

theorem Guarded.atom (h : Guarded Node.Measured inner) :
    Guarded Node.Measured (Run.atom scope tokens inner) := by
  refine guarded_current.bind fun token _ => ?_
  cases token.kind with
  | number value =>
    exact guarded_advance.bind fun _ _ => guarded_pure ⟨rfl, (by decide : 1 ≤ maxDepth)⟩
  | name name =>
    exact guarded_advance.bind fun _ _ => guarded_current.bind fun _ _ =>
      .ite (guarded_advance.bind fun _ _ => (guarded_call h name).nested) (guarded_reference _ _)
  | minus =>
    exact guarded_advance.bind fun _ _ => h.nested.bind fun operand hoperand =>
      guarded_node (by rw [hoperand.1]; rfl)
  | plus => exact guarded_advance.bind fun _ _ => h.nested
  | leftParen =>
    exact guarded_advance.bind fun _ _ => Guarded.nested <| h.bind fun _ hnode =>
      (guarded_expect _).bind fun _ _ => guarded_pure hnode
  | percent | star | slash | caret | comma | rightParen | doubledSign | finish =>
    exact guarded_fail _

/-- The phrases of every rank are guarded. -/
theorem guarded_phrase (h : Guarded Node.Measured inner) (fuel : Nat) (r : Rank) :
    Guarded Node.Measured (phrase scope tokens inner fuel r) := by
  match r with
  | .atom => exact h.atom
  | .chain .power => exact h.atom.chain fuel
  | .chain .product => exact (h.atom.chain fuel).chain fuel
  | .chain .sum => exact ((h.atom.chain fuel).chain fuel).chain fuel

theorem guarded_sum (scope : Scope) (tokens : List Token) (fuel : Nat) :
    Guarded Node.Measured (sum scope tokens fuel) := by
  induction fuel with
  | zero => exact guarded_exhausted
  | succ fuel ih => exact guarded_phrase ih fuel _

theorem guarded_whole (scope : Scope) (tokens : List Token) (fuel : Nat) :
    Guarded Node.Measured (whole scope tokens fuel) :=
  (guarded_sum scope tokens fuel).bind fun _ hnode => guarded_current.bind fun _ _ =>
    .ite (guarded_pure hnode) (guarded_fail _)

/-- In a whole run the counter stays between zero and the limit. -/
theorem depth_of_parsed {fuel : Nat} {result : Except ParseError Phrase} {places : List Place}
    (h : (whole scope tokens fuel .start).parsed = some (result, places)) :
    ∀ place ∈ places, 0 ≤ place.depth ∧ place.depth ≤ maxDepth := by
  have hend : ∀ {c : Cursor}, Cursor.start.Passed 0 c →
      ∀ place ∈ c.passed, 0 ≤ place.depth ∧ place.depth ≤ maxDepth := by
    rintro c ⟨places, hpassed, hbounds⟩
    rw [hpassed]
    exact List.forall_mem_append.2 ⟨hbounds, by simp [Cursor.start]⟩
  have hwhole := guarded_whole scope tokens fuel .start (by decide)
  cases hdone : whole scope tokens fuel .start with
  | done node c =>
    rw [hdone] at h hwhole
    cases h
    exact hend hwhole.2.2
  | failed error c =>
    rw [hdone] at h hwhole
    cases h
    exact hend hwhole
  | exhausted =>
    rw [hdone] at h
    cases h

end Phrases

end Run

end LengthFormula
