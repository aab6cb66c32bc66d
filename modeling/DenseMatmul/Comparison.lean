import DenseMatmul.Buffer
import DenseMatmul.Single.Text
import DenseMatmul.Tolerance
/-!
# Comparing buffers

Two buffers are compared element by element over their common length, either by the very bits or
under a tolerance. The report keeps every mismatch in index order, and the largest difference of all
pairs, matching or not, that have one.
-/

namespace DenseMatmul

/-! ## Modes -/

/-- How one element is judged against another. -/
inductive Mode where
  | bitExact
  | within (tolerance : Tolerance)
  deriving DecidableEq

namespace Mode

def accepts (mode : Mode) (expected actual : Single) : Bool :=
  match mode with
  | .bitExact => expected = actual
  | .within t => t.accepts expected actual

instance : ToString Mode where
  toString
    | .bitExact => "bit-exact"
    | .within t => s!"tolerance(abs={t.abs.plainText}, rel={t.rel.plainText}, ulps={t.ulps})"

end Mode

/-! ## Reports -/

/-- A pair that does not match. -/
structure Mismatch where
  index : Nat
  expected : Single
  actual : Single
  deriving DecidableEq

structure Comparison where
  expectedSize : Nat
  actualSize : Nat
  mismatches : List Mismatch
  /-- The largest absolute difference that is a number. -/
  maxAbsDiff : Single
  deriving DecidableEq

namespace Comparison

/-- Compares the buffers in the given mode. -/
def of (mode : Mode) (expected actual : Buffer) : Comparison :=
  let pairs := (expected.zip actual).toList
  { expectedSize := expected.size
    actualSize := actual.size
    mismatches := pairs.zipIdx.filterMap fun ((e, a), index) =>
      if mode.accepts e a then none else some ⟨index, e, a⟩
    maxAbsDiff := pairs.foldl (fun largest (e, a) => largest.max (e - a).abs) .zero }

def isMatch (c : Comparison) : Bool := c.expectedSize == c.actualSize && c.mismatches.isEmpty

def first? (c : Comparison) : Option Mismatch := c.mismatches.head?

instance : ToString Comparison where
  toString c :=
    if c.expectedSize ≠ c.actualSize then
      s!"length mismatch: expected {c.expectedSize}, got {c.actualSize}"
    else
      let diff := c.maxAbsDiff.scientificText
      match c.first? with
      | none => s!"match (max abs diff {diff})"
      | some m =>
        let expected := m.expected.scientificText
        let actual := m.actual.scientificText
        s!"{c.mismatches.length} mismatches, first at {m.index}: expected {expected}, got {actual} (max abs diff {diff})"

end Comparison

end DenseMatmul
