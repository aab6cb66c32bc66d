import DenseMatmul.Single
/-!
# Tolerances

Two numbers match under a tolerance if their distance is small, or small against the larger of them,
or if few numbers lie between them. Special numbers are judged by kind alone, whatever the bounds:
a NaN matches any NaN and nothing else, an infinity matches only itself.
-/

namespace DenseMatmul

/-- Bounds on the difference of two numbers. `ulps` counts steps from one number to the next. -/
structure Tolerance where
  abs : Single
  rel : Single
  ulps : Nat
  deriving DecidableEq

namespace Tolerance

/-- A hundred-thousandth of either kind, and four steps. -/
def standard : Tolerance := ⟨⟨0x3727c5ac⟩, ⟨0x3727c5ac⟩, 4⟩

def distance (x y : Single) : Single := (x - y).abs

/-- The distance is at most `abs`. -/
def absClose (t : Tolerance) (x y : Single) : Bool := (distance x y).atMost t.abs

/-- The larger absolute value. -/
def larger (x y : Single) : Single := if y.abs.atMost x.abs then x.abs else y.abs

/-- The numbers are equal, or close as a part of the larger one. -/
def relClose (t : Tolerance) (x y : Single) : Bool :=
  x.equal y || t.absClose x y || (distance x y).atMost (larger x y * t.rel)

/-- Steps from one number to the other, for numbers of one sign. -/
def steps (x y : Single) : Nat :=
  max (x.bits.toNat - y.bits.toNat) (y.bits.toNat - x.bits.toNat)

/-- The signs agree, of zeros too, and few steps lead from one to the other. -/
def ulpsClose (t : Tolerance) (x y : Single) : Bool :=
  t.absClose x y || (x.isNegative == y.isNegative && steps x y ≤ t.ulps)

def accepts (t : Tolerance) (expected actual : Single) : Bool :=
  if expected.isNaN || actual.isNaN then expected.isNaN && actual.isNaN
  else if expected.isInfinite || actual.isInfinite then expected.equal actual
  else t.absClose expected actual || t.relClose expected actual || t.ulpsClose expected actual

end Tolerance

end DenseMatmul
