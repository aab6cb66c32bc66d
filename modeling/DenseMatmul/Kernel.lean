import DenseMatmul.Buffer
import DenseMatmul.Logged
import DenseMatmul.Shape
/-!
# Kernels

A kernel multiplies row-major buffers into an output buffer of the caller. It may write any element
of that buffer or none, fail or stop; the one thing it cannot do is change the buffer's size.
-/

namespace DenseMatmul

/-- What a call leaves: its answer, and the output buffer whatever the answer is. -/
structure Call where
  answer : Logged MatmulError Unit
  c : Buffer

structure Kernel where
  name : String
  /-- Whether every output element is summed in the order of the reference, so that its bits can be
  compared. -/
  bitExact : Bool := true
  /-- Multiplies A by B into C. -/
  multiplyInto : Shape → Buffer → Buffer → Buffer → Call
  size_c : ∀ s a b c, (multiplyInto s a b c).c.size = c.size

/-- Multiplies into a new buffer of zeros, as long as the shape needs. -/
def Kernel.multiply (kernel : Kernel) (s : Shape) (a b : Buffer) : Logged MatmulError Buffer := do
  let length ← .ofExcept s.cLen
  let call := kernel.multiplyInto s a b (.replicate length .zero)
  call.answer
  return call.c

end DenseMatmul
