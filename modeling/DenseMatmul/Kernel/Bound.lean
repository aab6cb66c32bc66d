import DenseMatmul.Kernel.Reference
/-!
# Bound kernels

A kernel bound to one shape: the extents are given once, each call then gives three buffers.
-/

namespace DenseMatmul

/-- A kernel with its shape and the lengths the shape needs. -/
structure Bound where
  shape : Shape
  kernel : Kernel
  aLen : Nat
  bLen : Nat
  cLen : Nat
  aLen_eq : shape.aLen = .ok aLen
  bLen_eq : shape.bLen = .ok bLen
  cLen_eq : shape.cLen = .ok cLen

namespace Bound

/-- Binds a kernel to a shape, unless one of the lengths of A, B and C is no word. -/
def ofKernel (shape : Shape) (kernel : Kernel) : Logged MatmulError Bound :=
  match ha : shape.aLen, hb : shape.bLen, hc : shape.cLen with
  | .error e, _, _ => .refuse e
  | .ok _, .error e, _ => .refuse e
  | .ok _, .ok _, .error e => .refuse e
  | .ok aLen, .ok bLen, .ok cLen => do
    .emit .debug s!"binding {kernel.name} kernel to {shape}"
    return { shape, kernel, aLen, bLen, cLen, aLen_eq := ha, bLen_eq := hb, cLen_eq := hc }

/-- Multiplies with the bound shape. -/
def invoke (bound : Bound) (a b c : Buffer) : Call :=
  bound.kernel.multiplyInto bound.shape a b c

end Bound

end DenseMatmul
