import LengthFormula.Double.Nearest
import LengthFormula.Draws.Keystream

/-!
# Random draws

Random numbers come from an endless stream of draws together with the number of draws used up.
Evaluation takes the next one and hands the rest on, so it is a function of the stream.
-/

namespace LengthFormula

/-- A stream of draws, of which the first `used` are taken. -/
structure Draws where
  stream : Nat → Float
  used : Nat

namespace Draws

/-- The next draw. -/
def head (d : Draws) : Float := d.stream d.used

/-- The draws after the next one. -/
def tail (d : Draws) : Draws := { d with used := d.used + 1 }

/-- All draws of a stream. -/
def ofStream (stream : Nat → Float) : Draws := ⟨stream, 0⟩

/-- The draws of a list, over and over again; zeros if the list is empty. -/
def cycle (xs : List Float) : Draws :=
  ofStream fun i => xs.getD (i % xs.length) 0.0

/-- Draws from `0` up to but not including `1`, fixed by a seed: the upper 53 bits of each pair of
words of the keystream. -/
def ofSeed (seed : UInt64) : Draws :=
  ofStream fun i => Double.nearest false (Keystream.wordPair seed i / 2 ^ 11) (2 ^ 53)

/-- Takes the next `count` draws. -/
def take : (count : Nat) → Draws → List Float × Draws
  | 0, d => ([], d)
  | count + 1, d =>
    let (later, rest) := d.tail.take count
    (d.head :: later, rest)

@[simp]
theorem stream_tail (d : Draws) : d.tail.stream = d.stream := rfl

@[simp]
theorem used_tail (d : Draws) : d.tail.used = d.used + 1 := rfl

end Draws

end LengthFormula
