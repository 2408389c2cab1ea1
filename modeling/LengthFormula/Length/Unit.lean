/-!
# Units of length

Lengths are kept in inches.
-/

namespace LengthFormula

/-- The units in which a length is written. -/
inductive LengthUnit where
  | inch
  | foot
  deriving DecidableEq, Repr

/-- A number of units, in inches. -/
def LengthUnit.toInches : LengthUnit → Float → Float
  | inch, x => x
  | foot, x => x * 12

end LengthFormula
