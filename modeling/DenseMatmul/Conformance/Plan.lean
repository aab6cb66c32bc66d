import DenseMatmul.Comparison
import DenseMatmul.Conformance.Error
import DenseMatmul.Kernel
import DenseMatmul.Random
/-!
# Plans of a check

A plan says on which shapes a kernel is checked, from which seed its inputs are drawn, how its output
is judged, and what output buffers hold before the call. A harness is a plan with at least one shape.
-/

namespace DenseMatmul.Conformance

structure Plan where
  seed : UInt64
  shapes : List Shape
  mode : Mode
  /-- Fills output buffers before a call, so that an element never written shows. -/
  sentinel : Single
  deriving DecidableEq

namespace Plan

/-- Squares, small and empty products, a row, and products on both sides of the banding cut-off, the
largest with bands that come out uneven. -/
def standardShapes : List Shape :=
  [.square 20, .square 1, ⟨2, 2, 3⟩, ⟨3, 5, 0⟩, ⟨0, 4, 3⟩, ⟨4, 0, 3⟩, ⟨1, 33, 17⟩, ⟨13, 17, 11⟩,
    ⟨64, 48, 96⟩, ⟨161, 101, 64⟩]

/-- The number nearest to minus ten to the thirtieth. -/
def standardSentinel : Single := ⟨0xf149f2ca⟩

def standard : Plan where
  seed := Generator.standardSeed
  shapes := standardShapes
  mode := .bitExact
  sentinel := standardSentinel

/-- The standard plan, by the bits only if the kernel sums in the order of the reference. -/
def forKernel (kernel : Kernel) : Plan :=
  { standard with mode := if kernel.bitExact then .bitExact else .within .standard }

end Plan

structure Harness extends Plan where
  shapes_ne_nil : shapes ≠ []

namespace Harness

def ofPlan (plan : Plan) : Except CheckError Harness :=
  if h : plan.shapes = [] then .error .noShapes else .ok { plan with shapes_ne_nil := h }

def standard : Harness := { Plan.standard with shapes_ne_nil := by decide }

end Harness

end DenseMatmul.Conformance
