import LengthFormula.Double.Bits

/-!
# A keystream of random words

Random words are cut from the ChaCha stream with twelve rounds.  Its key is grown from a 64-bit seed
by a permuted congruential generator, and its blocks are numbered from zero, so every word can be
found from the seed and its place alone.
-/

namespace LengthFormula.Keystream

/-- The bits of a word, moved up by `n` places and around. -/
def rotateLeft (x n : UInt32) : UInt32 := (x <<< n) ||| (x >>> (32 - n))

/-- The bits of a word, moved down by `n` places and around. -/
def rotateRight (x n : UInt32) : UInt32 := (x >>> n) ||| (x <<< ((32 - n) % 32))

/-- The next state of the congruential generator. -/
def nextState (state : UInt64) : UInt64 :=
  state * 6364136223846793005 + 11634580027462260723

/-- The word of a state of the congruential generator: its upper bits, folded and rotated. -/
def stateWord (state : UInt64) : UInt32 :=
  rotateRight (((state >>> 18) ^^^ state) >>> 27).toUInt32 (state >>> 59).toUInt32

/-- The words of `count` states that follow a state. -/
def stateWords : (count : Nat) → UInt64 → List UInt32
  | 0, _ => []
  | count + 1, state =>
    let state := nextState state
    stateWord state :: stateWords count state

/-- The sixteen words that are mixed into the block with the given number: four constants, the key,
the number of the block and an empty nonce. -/
def blockInput (seed : UInt64) (block : Nat) : Array UInt32 :=
  #[0x61707865, 0x3320646e, 0x79622d32, 0x6b206574] ++ (stateWords 8 seed).toArray
    ++ #[UInt32.ofNat block, UInt32.ofNat (block / 2 ^ 32), 0, 0]

/-- One step of a quarter round: adds word `b` to word `a`, and turns word `d` with the sum. -/
def mixStep (a b d : Nat) (turn : UInt32) (words : Array UInt32) : Array UInt32 :=
  let sum := words.getD a 0 + words.getD b 0
  (words.setIfInBounds a sum).setIfInBounds d (rotateLeft (words.getD d 0 ^^^ sum) turn)

/-- A quarter round on four of the words. -/
def quarterRound (words : Array UInt32) (places : Nat × Nat × Nat × Nat) : Array UInt32 :=
  let (a, b, c, d) := places
  mixStep c d b 7 (mixStep a b d 8 (mixStep c d b 12 (mixStep a b d 16 words)))

/-- The places of the quarter rounds of two rounds: the columns and the diagonals. -/
def doubleRoundPlaces : List (Nat × Nat × Nat × Nat) :=
  [(0, 4, 8, 12), (1, 5, 9, 13), (2, 6, 10, 14), (3, 7, 11, 15),
   (0, 5, 10, 15), (1, 6, 11, 12), (2, 7, 8, 13), (3, 4, 9, 14)]

/-- The block with the given number: its input, mixed by twelve rounds and added to itself. -/
def block (seed : UInt64) (number : Nat) : Array UInt32 :=
  let input := blockInput seed number
  let mixed :=
    (List.range 6).foldl (fun words _ => doubleRoundPlaces.foldl quarterRound words) input
  mixed.zipWith (· + ·) input

/-- The `i`-th pair of words of the stream as one number below `2 ^ 64`, the first word at the low
end. -/
def wordPair (seed : UInt64) (i : Nat) : Nat :=
  let words := block seed (i / 8)
  (words.getD (2 * (i % 8)) 0).toNat + (words.getD (2 * (i % 8) + 1) 0).toNat * 2 ^ 32

theorem wordPair_lt (seed : UInt64) (i : Nat) : wordPair seed i < 2 ^ 64 := by
  have low := ((block seed (i / 8)).getD (2 * (i % 8)) 0).toNat_lt
  have high := ((block seed (i / 8)).getD (2 * (i % 8) + 1) 0).toNat_lt
  simp only [wordPair]
  omega

end LengthFormula.Keystream
