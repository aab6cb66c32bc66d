/-!
# Machine words

Extents, lengths and counts of operations are 64-bit words. They are held as natural numbers, and
each product or sum says for itself what happens past the limit.
-/

namespace DenseMatmul

/-- The first number that is no word, two to the power 64. -/
def wordLimit : Nat := 0x10000000000000000

/-- The product, held at the largest word. -/
def saturatingMul (x y : Nat) : Nat := min (x * y) (wordLimit - 1)

end DenseMatmul
