import LengthFormula.Formula.Phrase

/-!
# The grammar of formulas

`Derives` is the grammar as a relation between kinds of tokens and terms:

* a sum is products joined by `+` and `-`, a product is powers joined by `*`, `/` and `%`, and a
  power is atoms joined by `^`, all grouped from the left;
* an atom is a number, a name that no `(` follows, a call, a sum in parentheses, or a sign with a
  sum that reaches as far as it can: no operator follows it.

A derivation takes a phrase off the front of a list and names the rest.  It also bounds how many
parentheses, calls and prefix signs are open at once.  Nothing here mentions a parser.
-/

namespace LengthFormula

/-! ## Ranks -/

/-- The chains of operators, loosest first. -/
inductive Chain where
  | sum
  | product
  | power
  deriving DecidableEq, Repr

/-- What a phrase is: a chain of operands, or an atom. -/
inductive Rank where
  | chain (c : Chain)
  | atom
  deriving DecidableEq, Repr

/-- The operators that join the operands of a chain. -/
def Chain.operator? : Chain → TokenKind → Option BinaryOp
  | sum => sumOperator?
  | product => productOperator?
  | power => powerOperator?

/-- What the operands of a chain are. -/
def Chain.operand : Chain → Rank
  | sum => .chain .product
  | product => .chain .power
  | power => .atom

/-- How tightly the operators of a chain bind. -/
def Chain.level : Chain → Nat
  | sum => 1
  | product => 2
  | power => 3

/-- How tightly a phrase holds together: more than this binds an operator that can reach into it. -/
def Rank.level : Rank → Nat
  | chain c => c.level
  | atom => 4

/-- How tightly a token binds the phrases beside it; zero if it is no operator. -/
def TokenKind.binding : TokenKind → Nat
  | .plus | .minus => 1
  | .star | .slash | .percent => 2
  | .caret => 3
  | _ => 0

/-- How tightly the first of these tokens binds what stands in front of it. -/
def bindingOf : List TokenKind → Nat
  | [] => 0
  | k :: _ => k.binding

@[simp]
theorem bindingOf_nil : bindingOf [] = 0 := rfl

@[simp]
theorem bindingOf_cons (k : TokenKind) (ks : List TokenKind) :
    bindingOf (k :: ks) = k.binding := rfl

theorem Chain.level_operand (c : Chain) : c.operand.level = c.level + 1 := by
  cases c <;> rfl

theorem Chain.level_pos (c : Chain) : 0 < c.level := by
  cases c <;> decide

/-- The operators of a chain are the tokens that bind as tightly as it does. -/
theorem Chain.binding_of_operator? {c : Chain} {k : TokenKind} {op : BinaryOp}
    (h : c.operator? k = some op) : k.binding = c.level := by
  cases c <;> cases k <;> first | rfl | cases h

theorem binding_le_three (ks : List TokenKind) : bindingOf ks ≤ 3 := by
  cases ks with
  | nil => decide
  | cons k ks => cases k <;> simp [TokenKind.binding]

/-! ## Derivations -/

/-- What a name that is not called stands for: a random draw, the value of a fixed variable, or a
variable. -/
def Scope.nameTerm (scope : Scope) (name : String) : Term :=
  if name = Builtin.randomName then .random
  else if scope.isFixed name then .number ((scope.value? name).getD 0.0)
  else .var name

/-- `Derives scope levels r ks t rest`: a phrase of rank `r` at the front of `ks` has the tree `t`
and is followed by `rest`, and at most `levels` parentheses, calls and prefix signs are open at
once. -/
inductive Derives (scope : Scope) : Nat → Rank → List TokenKind → Term → List TokenKind → Prop
  /-- A chain of one operand. -/
  | operand {levels : Nat} {c : Chain} {ks rest : List TokenKind} {t : Term} :
      Derives scope levels c.operand ks t rest → Derives scope levels (.chain c) ks t rest
  /-- A chain, one more operator and its right operand. -/
  | join {levels : Nat} {c : Chain} {ks behind rest : List TokenKind} {k : TokenKind}
      {op : BinaryOp} {left right : Term} :
      Derives scope levels (.chain c) ks left (k :: behind) → c.operator? k = some op →
      Derives scope levels c.operand behind right rest →
      Derives scope levels (.chain c) ks (.binary op left right) rest
  | number {levels : Nat} {value : Float} {rest : List TokenKind} :
      Derives scope levels .atom (.number value :: rest) (.number value) rest
  | name {levels : Nat} {name : String} {rest : List TokenKind} :
      rest.head? ≠ some .leftParen →
      Derives scope levels .atom (.name name :: rest) (scope.nameTerm name) rest
  | random {levels : Nat} {rest : List TokenKind} :
      Derives scope (levels + 1) .atom
        (.name Builtin.randomName :: .leftParen :: .rightParen :: rest) .random rest
  | call {levels : Nat} {name : String} {ks rest : List TokenKind} {t : Term} :
      (Builtin.unary? name).isSome →
      Derives scope levels (.chain .sum) ks t (.rightParen :: rest) →
      Derives scope (levels + 1) .atom (.name name :: .leftParen :: ks) (.call name t) rest
  | call2 {levels : Nat} {name : String} {ks behind rest : List TokenKind} {first second : Term} :
      (Builtin.binary? name).isSome →
      Derives scope levels (.chain .sum) ks first (.comma :: behind) →
      Derives scope levels (.chain .sum) behind second (.rightParen :: rest) →
      Derives scope (levels + 1) .atom (.name name :: .leftParen :: ks)
        (.call2 name first second) rest
  | minus {levels : Nat} {ks rest : List TokenKind} {t : Term} :
      Derives scope levels (.chain .sum) ks t rest → bindingOf rest = 0 →
      Derives scope (levels + 1) .atom (.minus :: ks) (.negate t) rest
  | plus {levels : Nat} {ks rest : List TokenKind} {t : Term} :
      Derives scope levels (.chain .sum) ks t rest → bindingOf rest = 0 →
      Derives scope (levels + 1) .atom (.plus :: ks) t rest
  | paren {levels : Nat} {ks rest : List TokenKind} {t : Term} :
      Derives scope levels (.chain .sum) ks t (.rightParen :: rest) →
      Derives scope (levels + 1) .atom (.leftParen :: ks) t rest

/-- The tokens of a whole formula, with the end of the text at the end, are a sum with this tree. -/
def DerivesFormula (scope : Scope) (ks : List TokenKind) (t : Term) : Prop :=
  ∃ levels, Derives scope levels (.chain .sum) ks t [.finish]

namespace Derives

variable {scope : Scope} {levels : Nat} {r : Rank} {ks rest : List TokenKind} {t : Term}

/-- A derivation takes at least one token. -/
theorem length_lt (h : Derives scope levels r ks t rest) : rest.length < ks.length := by
  induction h <;> grind

/-- A derivation takes its tokens from the front. -/
theorem isSuffix (h : Derives scope levels r ks t rest) : rest <:+ ks := by
  have tail : ∀ {k : TokenKind} {a b : List TokenKind}, k :: a <:+ b → a <:+ b :=
    fun h => (List.suffix_cons _ _).trans h
  induction h with
  | operand _ ih => exact ih
  | join _ _ _ ihl ihr => exact ihr.trans (tail ihl)
  | number => exact List.suffix_cons _ _
  | name => exact List.suffix_cons _ _
  | random => exact tail (tail (List.suffix_cons _ _))
  | call _ _ ih => exact tail (ih.trans (tail (List.suffix_cons _ _)))
  | call2 _ _ _ ihf ihs => exact tail (ihs.trans (tail (ihf.trans (tail (List.suffix_cons _ _)))))
  | minus _ _ ih => exact ih.trans (List.suffix_cons _ _)
  | plus _ _ ih => exact ih.trans (List.suffix_cons _ _)
  | paren _ ih => exact tail (ih.trans (List.suffix_cons _ _))

/-- A derivation within some levels is one within more levels. -/
theorem mono (h : Derives scope levels r ks t rest) {more : Nat} (hle : levels ≤ more) :
    Derives scope more r ks t rest := by
  induction h generalizing more with
  | operand _ ih => exact .operand (ih hle)
  | join _ hop _ ihl ihr => exact .join (ihl hle) hop (ihr hle)
  | number => exact .number
  | name hhead => exact .name hhead
  | random =>
    obtain ⟨m, rfl⟩ : ∃ m, more = m + 1 := ⟨more - 1, by omega⟩
    exact .random
  | call hf _ ih =>
    obtain ⟨m, rfl⟩ : ∃ m, more = m + 1 := ⟨more - 1, by omega⟩
    exact .call hf (ih (by omega))
  | call2 hf _ _ ihf ihs =>
    obtain ⟨m, rfl⟩ : ∃ m, more = m + 1 := ⟨more - 1, by omega⟩
    exact .call2 hf (ihf (by omega)) (ihs (by omega))
  | minus _ hrest ih =>
    obtain ⟨m, rfl⟩ : ∃ m, more = m + 1 := ⟨more - 1, by omega⟩
    exact .minus (ih (by omega)) hrest
  | plus _ hrest ih =>
    obtain ⟨m, rfl⟩ : ∃ m, more = m + 1 := ⟨more - 1, by omega⟩
    exact .plus (ih (by omega)) hrest
  | paren _ ih =>
    obtain ⟨m, rfl⟩ : ∃ m, more = m + 1 := ⟨more - 1, by omega⟩
    exact .paren (ih (by omega))

/-- No derivation takes a doubled sign: what stands behind it is never a phrase. -/
theorem doubledSign_notMem (h : Derives scope levels r ks t rest)
    (hrest : TokenKind.doubledSign ∉ rest) : TokenKind.doubledSign ∉ ks := by
  induction h with
  | operand _ ih => exact ih hrest
  | @join _ c _ _ _ k _ _ _ _ hop _ ihl ihr =>
    refine ihl ?_
    have hk : k ≠ .doubledSign := by
      rintro rfl
      cases c <;> cases hop
    simp [Ne.symm hk, ihr hrest]
  | number => simpa using hrest
  | name => simpa using hrest
  | random => simpa using hrest
  | call _ _ ih => simpa using ih (by simpa using hrest)
  | call2 _ _ _ ihf ihs => simpa using ihf (by simpa using ihs (by simpa using hrest))
  | minus _ _ ih => simpa using ih hrest
  | plus _ _ ih => simpa using ih hrest
  | paren _ ih => simpa using ih (by simpa using hrest)

end Derives

end LengthFormula
