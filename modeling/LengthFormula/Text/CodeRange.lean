/-!
# Sets of characters given by ranges of code points

A property of characters that is fixed by a standard is a list of closed ranges of code points, in
ascending order.  `CodeRanges.has` tells whether a character lies in one of them.
-/

namespace LengthFormula

/-- A set of code points: closed ranges, in ascending order and apart from each other. -/
abbrev CodeRanges := List (Nat × Nat)

namespace CodeRanges

/-- Whether the code point of `c` lies in one of the ranges. -/
def has (ranges : CodeRanges) (c : Char) : Bool :=
  ranges.any fun r => r.1 ≤ c.toNat && c.toNat ≤ r.2

theorem has_iff {ranges : CodeRanges} {c : Char} :
    ranges.has c = true ↔ ∃ r ∈ ranges, r.1 ≤ c.toNat ∧ c.toNat ≤ r.2 := by
  simp [has]

@[simp]
theorem has_nil (c : Char) : has [] c = false := rfl

end CodeRanges

end LengthFormula
