import LengthFormula.Decimal.Basic

/-!
# The shortest decimal that reads back

For 1, 2, … 17 digits the two neighbours of a double on the grid of decimals with that many digits
are read back; the first grid on which one of them gives the double again has the shortest decimals,
and of two the nearer one is taken.  The exact expansion of the double stands in should no grid
have one, so what is found always reads back.
-/

namespace LengthFormula

/-- Which of two decimals is taken when the double lies halfway between them. -/
inductive Tie where
  | away
  | even
  deriving DecidableEq, Repr

namespace Decimal

/-- The exponent of the leading decimal digit of a finite magnitude that is not zero. -/
def leadingExponent (k : Nat) : Int :=
  let u := Double.unitsOf k
  if Double.unitsPerOne ≤ u then
    ((Nat.toDigits 10 (u / Double.unitsPerOne)).length : Int) - 1
  else -((Nat.toDigits 10 (Double.unitsPerOne / u)).length : Int)

/-- Numerator of the value of a magnitude, times `10 ^ p`. -/
def scaledNumerator (k : Nat) (p : Int) : Nat := Double.unitsOf k * 10 ^ p.toNat

/-- Denominator of the value of a magnitude, times `10 ^ p`. -/
def scaledDenominator (p : Int) : Nat := Double.unitsPerOne * 10 ^ (-p).toNat

/-- Of the neighbours `low` and `low + 1` of `num / den`, the upper one is the nearer, or is taken
in a tie. -/
def prefersUpper (tie : Tie) (low num den : Nat) : Bool :=
  let twice := 2 * (num % den)
  match compare twice den with
  | .lt => false
  | .gt => true
  | .eq => match tie with
    | .away => true
    | .even => low % 2 == 1

/-- The decimal with `n` digits that is next to the double of magnitude `k` and reads back as it. -/
def withDigits? (tie : Tie) (k n : Nat) : Option Decimal :=
  let p := (n : Int) - 1 - leadingExponent k
  let num := scaledNumerator k p
  let den := scaledDenominator p
  let low := num / den
  let lower : Decimal := ⟨low, -p⟩
  let upper : Decimal := ⟨low + 1, -p⟩
  if lower.magnitude = k then
    if upper.magnitude = k && prefersUpper tie low num den then some upper else some lower
  else if upper.magnitude = k then some upper
  else none

/-- The value of a finite magnitude: units of `2 ^ (-1074)` are units of `10 ^ (-1074)` times
`5 ^ 1074`. -/
def exact (k : Nat) : Decimal := ⟨Double.unitsOf k * 5 ^ 1074, -1074⟩

/-- The shortest decimal that reads back as the double of magnitude `k`. -/
def shortest (tie : Tie) (k : Nat) : Decimal :=
  if k = 0 then ⟨0, 0⟩
  else ((List.range 17).findSome? fun i => withDigits? tie k (i + 1)).getD (exact k)

/-- A neighbour that was taken reads back. -/
theorem magnitude_of_withDigits? {tie : Tie} {k n : Nat} {d : Decimal}
    (h : withDigits? tie k n = some d) : d.magnitude = k := by
  simp only [withDigits?] at h
  split at h
  · split at h <;> simp_all
  · split at h <;> simp_all

end Decimal

end LengthFormula
