/-!
# Keys from seeds

A 64-bit seed is stretched to a key of eight words by a linear congruential generator, whose state is
permuted into each word: the upper bits are folded into the lower, and the topmost five say how far
to rotate.
-/

namespace DenseMatmul.Random

def stretchMultiplier : UInt64 := 6364136223846793005

def stretchIncrement : UInt64 := 11634580027462260723

def rotateRight (x r : UInt32) : UInt32 := (x >>> r) ||| (x <<< (32 - r))

/-- The word of a state. -/
def permute (state : UInt64) : UInt32 :=
  rotateRight (((state >>> 18) ^^^ state) >>> 27).toUInt32 (state >>> 59).toUInt32

def advance (state : UInt64) : UInt64 := state * stretchMultiplier + stretchIncrement

/-- The key of a seed; the state is advanced before each word. -/
def keyOfSeed (seed : UInt64) : Vector UInt32 8 :=
  .ofFn fun i => permute (Nat.repeat advance (i.val + 1) seed)

end DenseMatmul.Random
