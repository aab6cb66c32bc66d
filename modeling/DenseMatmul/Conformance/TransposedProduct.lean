import DenseMatmul.Conformance.Error
import DenseMatmul.Logged
import DenseMatmul.Single.Double
import DenseMatmul.Transpose
/-!
# The product by way of transposes

The product of two matrices is also the transpose of the product of their transposes. Made that way,
row by row in double precision and narrowed at the end, it shares nothing with the reference, and
agrees with it only up to rounding.
-/

namespace DenseMatmul.Conformance

namespace TransposedProduct

/-- Adds the multiple of row `p` of `right` by element `(i, p)` of `left` to a row of sums. -/
def addRow (left right : Buffer) (width depth i : Nat) (sums : Array Float) (p : Nat) :
    Except Fault (Array Float) := do
  let factor ← left.read (← offset i p depth)
  let start ← offset p 0 width
  let row ← right.slice start (start + width)
  return Array.zipWith (fun sum x => sum + factor.toDouble * x.toDouble) sums row

/-- Row `i` of the product of `left` and `right`. -/
def row (left right : Buffer) (width depth i : Nat) : Except Fault (Array Float) :=
  (List.range depth).foldlM (addRow left right width depth i) (.replicate width 0)

/-- The product of `left`, which has `height` rows, and `right`, which has `width` columns. -/
def product (left right : Buffer) (height width depth : Nat) : Except Fault (Array Float) := do
  if wordLimit ≤ height * width then throw .wordOverflow
  let rows ← (List.range height).mapM (row left right width depth)
  return rows.toArray.flatten

/-- The product of operands that are long enough: both are transposed, multiplied in the other order
and narrowed, and the result is transposed back. -/
def transposed (s : Shape) (a b : Buffer) : Except Fault Buffer := do
  let bFlipped ← (← b.slice 0 (s.k * s.n)).transpose s.k s.n
  let aFlipped ← (← a.slice 0 (s.m * s.k)).transpose s.m s.k
  let cFlipped ← product bFlipped aFlipped s.n s.m s.k
  Buffer.transpose (cFlipped.map Single.ofDouble) s.n s.m

/-- Checks the lengths of A and B, both before either buffer. -/
def validate (s : Shape) (aSize bSize : Nat) : Except MatmulError Unit := do
  let aLen ← s.aLen
  let bLen ← s.bLen
  checkLength .a aLen aSize
  checkLength .b bLen bSize

/-- Multiplies A by B by way of their transposes. -/
def multiply (s : Shape) (a b : Buffer) : Logged CheckError Buffer := do
  (Logged.ofExcept (validate s a.size b.size)).mapError .kernel
  .ofFault (transposed s a b)

end TransposedProduct

end DenseMatmul.Conformance
