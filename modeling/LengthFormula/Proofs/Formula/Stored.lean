import LengthFormula.Length.Reading
import LengthFormula.Proofs.Formula.Acceptance
import LengthFormula.Proofs.Scope.Shown
import LengthFormula.Proofs.Term.Storage

/-!
# Formulas are stored and read back

The numbers in the tree of a formula are the literals of its text and the values of fixed variables.
So, in a scope of finite values, the tree of a formula is read back from its stored text just if
every literal is finite and the tree does not nest deeper than the reader allows
(`Formula.read?_stored_of_parse`).  Neither is a matter of course: `1e999` is a formula whose tree
holds an infinity, and a sum of 65 names nests too deeply (`Formula.read?_stored_not_kept`).
-/

namespace LengthFormula

/-- Every number literal among the tokens is finite. -/
def literalsFinite (ks : List TokenKind) : Bool :=
  ks.all fun
    | .number x => Double.isFinite x
    | _ => true

@[simp]
theorem literalsFinite_number (x : Float) (ks : List TokenKind) :
    literalsFinite (.number x :: ks) = (Double.isFinite x && literalsFinite ks) := by
  simp [literalsFinite]

/-- A token that is no number makes no difference. -/
theorem literalsFinite_cons {k : TokenKind} (h : ∀ x, k ≠ .number x) (ks : List TokenKind) :
    literalsFinite (k :: ks) = literalsFinite ks := by
  cases k with
  | number x => exact absurd rfl (h x)
  | _ => simp [literalsFinite]

theorem Chain.ne_number_of_operator? {c : Chain} {k : TokenKind} {op : BinaryOp}
    (h : c.operator? k = some op) (x : Float) : k ≠ .number x := by
  rintro rfl
  cases c <;> cases h

section Trees

variable {scope : Scope} {levels : Nat} {r : Rank} {ks rest : List TokenKind} {t : Term}

/-- What stands for a name in a tree is no number or the finite value of a fixed variable. -/
theorem Scope.FixesFinite.numbersFinite_nameTerm (h : scope.FixesFinite) (name : String) :
    (scope.nameTerm name).numbersFinite = true := by
  unfold nameTerm
  split
  · rfl
  split
  · next hfixed =>
    cases hvalue : scope.value? name with
    | none => decide +kernel
    | some x => exact h name x hfixed hvalue
  · rfl

/-- The literals of a phrase are the numbers of its tree, but for fixed variables. -/
theorem Derives.literalsFinite_eq (hscope : scope.FixesFinite)
    (h : Derives scope levels r ks t rest) :
    literalsFinite ks = (t.numbersFinite && literalsFinite rest) := by
  induction h with
  | operand _ ih => exact ih
  | join _ hop _ ihl ihr =>
    rw [ihl, literalsFinite_cons (Chain.ne_number_of_operator? hop), ihr, Term.numbersFinite,
      Bool.and_assoc]
  | number => rw [literalsFinite_number, Term.numbersFinite]
  | name =>
    rw [literalsFinite_cons (by simp), hscope.numbersFinite_nameTerm, Bool.true_and]
  | random => simp [literalsFinite_cons, Term.numbersFinite]
  | call _ _ ih => simp [literalsFinite_cons, Term.numbersFinite, ih]
  | call2 _ _ _ ihf ihs => simp [literalsFinite_cons, Term.numbersFinite, ihf, ihs, Bool.and_assoc]
  | minus _ _ ih => simp [literalsFinite_cons, Term.numbersFinite, ih]
  | plus _ _ ih => simp [literalsFinite_cons, ih]
  | paren _ ih => simp [literalsFinite_cons, ih]

end Trees

namespace Formula

/-- The tree of a formula is read back from its stored text just if all number literals of the text
are finite and the tree nests no deeper than the reader allows; otherwise no tree is read. -/
theorem read?_stored_of_parse {scope : Scope} {convert : Converter} {text : String} {f : Formula}
    (hscope : scope.HoldsFinite) (h : parse scope convert text = .ok f) :
    ∃ tokens, tokenize convert text.toList = .ok tokens ∧
      Term.read? f.term.toJson.render
        = if literalsFinite (kindsOf tokens) && f.term.toJson.nesting ≤ Json.maxNesting
          then some f.term else none := by
  obtain ⟨ls, trail, htext, hcut, hderives, -, -⟩ := exists_of_parse h
  have hnumbers := hderives.literalsFinite_eq hscope.fixesFinite
  have htokens : tokenize convert text.toList = .ok (tokensFrom 0 ls trail) := by
    rw [htext]
    exact tokenize_of_cut hcut
  refine ⟨_, htokens, ?_⟩
  rw [Term.read?_render, kindsOf_tokensFrom, hnumbers]
  simp [literalsFinite]

/-- The tree of `max(a,1')*(-(b+1))` is read back. -/
theorem read?_stored_of_parse_product :
    Scope.empty.HoldsFinite ∧
      parse Scope.empty readLength? "max(a,1')*(-(b+1))" = .ok
        ⟨.binary .mul (.call2 "max" (.var "a") (.number 12.0))
          (.negate (.binary .add (.var "b") (.number 1.0))), "max(a,1')*(-(b+1))"⟩ ∧
      Term.read? (Term.binary .mul (.call2 "max" (.var "a") (.number 12.0))
          (.negate (.binary .add (.var "b") (.number 1.0)))).toJson.render
        = some (.binary .mul (.call2 "max" (.var "a") (.number 12.0))
          (.negate (.binary .add (.var "b") (.number 1.0)))) := by
  have hparse : parse Scope.empty readLength? "max(a,1')*(-(b+1))" = .ok
      ⟨.binary .mul (.call2 "max" (.var "a") (.number 12.0))
        (.negate (.binary .add (.var "b") (.number 1.0))), "max(a,1')*(-(b+1))"⟩ :=
    eq_ok_of_toOption (by decide +kernel)
  obtain ⟨tokens, htokens, hread⟩ := read?_stored_of_parse Scope.holdsFinite_empty hparse
  have hliterals : (tokenize readLength? "max(a,1')*(-(b+1))".toList).toOption.all
      (fun tokens => literalsFinite (kindsOf tokens)) = true := by decide +kernel
  rw [htokens] at hliterals
  have hfinite : literalsFinite (kindsOf tokens) = true := by
    simpa [Except.toOption] using hliterals
  refine ⟨Scope.holdsFinite_empty, hparse, hread.trans ?_⟩
  rw [hfinite]
  rfl

/-- What holds of the tree of the tokens holds of the tree of the formula. -/
theorem exists_parse_term (scope : Scope) (convert : Converter) (cs : List Char)
    (p : Term → Bool) (h : ((tokenize convert cs).bind (parseTokens scope)).toOption.any
      (fun phrase => p phrase.term) = true) :
    ∃ f, parse scope convert (String.ofList cs) = .ok f ∧ p f.term = true := by
  obtain ⟨phrase, hphrase, hp⟩ := (Option.any_eq_true _ _).1 h
  rw [parse_ofList, eq_ok_of_toOption hphrase]
  exact ⟨_, rfl, hp⟩

/-- Not every formula is read back in a scope of finite values: the literal `1e999` is an infinity,
which is written as `null`, and a sum of 65 names nests 129 arrays and objects. -/
theorem read?_stored_not_kept :
    Scope.empty.HoldsFinite ∧
      (∃ f, parse Scope.empty readLength? "1e999" = .ok f ∧
        Term.read? f.term.toJson.render = none) ∧
      (∃ f, parse Scope.empty readLength?
          (String.ofList ('x' :: (List.replicate 64 ['+', 'x']).flatten)) = .ok f ∧
        Term.read? f.term.toJson.render = none) := by
  refine ⟨Scope.holdsFinite_empty, ?_, ?_⟩
  · have hparse : parse Scope.empty readLength? "1e999" = .ok
        ⟨.number (Double.ofMagnitude false Double.infinityMagnitude), "1e999"⟩ :=
      eq_ok_of_toOption (by decide +kernel)
    have hinfinite :
        Double.isFinite (Double.ofMagnitude false Double.infinityMagnitude) = false := by
      decide +kernel
    refine ⟨_, hparse, ?_⟩
    rw [Term.read?_render, Term.numbersFinite, hinfinite]
    rfl
  · obtain ⟨f, hf, hdeep⟩ := exists_parse_term Scope.empty readLength?
      ('x' :: (List.replicate 64 ['+', 'x']).flatten)
      (fun t => t.toJson.nesting == 129) (by decide +kernel)
    refine ⟨f, hf, ?_⟩
    rw [beq_iff_eq] at hdeep
    rw [Term.read?_render, hdeep, if_neg]
    simp [Json.maxNesting]

end Formula

end LengthFormula
