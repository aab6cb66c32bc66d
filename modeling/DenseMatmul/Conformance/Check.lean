import DenseMatmul.Conformance.Plan
import DenseMatmul.Conformance.Report
import DenseMatmul.Conformance.TransposedProduct
import DenseMatmul.Kernel.Reference
/-!
# Checking kernels

A candidate and the reference multiply the same seeded matrices into equal buffers of sentinels, which
go on past the output. What the two leave is compared. All shapes draw from one stream, each where the
one before left off, so a case can be replayed from the seed and the shapes before it.

The cross-check compares the reference with the product by way of transposes instead.
-/

namespace DenseMatmul.Conformance

/-- Sentinels past the output of every call. -/
def guardLength : Nat := 16

/-! ## Inputs -/

/-- Draws A, then B. -/
def drawInputs (s : Shape) (g : Generator) : Except MatmulError (Buffer × Buffer × Generator) := do
  let (a, g) := g.draw (← s.aLen)
  let (b, g) := g.draw (← s.bLen)
  return (a, b, g)

/-- An output buffer of sentinels with its guard. Their number must be a word. -/
def guarded (sentinel : Single) (length : Nat) : Except Fault Buffer :=
  if length + guardLength < wordLimit then .ok (.replicate (length + guardLength) sentinel)
  else .error .wordOverflow

/-! ## Findings -/

/-- Elements that hold the sentinel in `actual` but not in `expected`. -/
def countUnwritten (sentinel : Single) (expected actual : Buffer) : Nat :=
  (expected.zip actual).countP fun (e, a) => a = sentinel && e ≠ sentinel

/-- Elements that do not hold the sentinel. -/
def countWrites (sentinel : Single) (guard : Buffer) : Nat :=
  guard.countP fun x => x ≠ sentinel

/-- Judges the buffers two calls left. -/
def judge (mode : Mode) (sentinel : Single) (s : Shape) (length : Nat) (expected actual : Buffer) :
    Case :=
  let wanted := expected.extract 0 length
  let output := actual.extract 0 length
  { shape := s
    comparison := .of mode wanted output
    unwritten := countUnwritten sentinel wanted output
    guardWrites := countWrites sentinel (actual.extract length actual.size) }

/-! ## Runs -/

/-- The event of a finished case. -/
def report (candidate : String) (c : Case) : Logged CheckError Unit :=
  if c.passed then .emit .debug s!"{candidate} {c.shape}: {c.comparison}"
  else .emit .warn s!"{candidate} {c.detail}"

/-- Checks one shape. The generator afterwards depends on the shape alone. -/
def checkCase (mode : Mode) (sentinel : Single) (candidate : Kernel) (s : Shape) (g : Generator) :
    Logged CheckError (Case × Generator) := do
  let (a, b, g) ← (Logged.ofExcept (drawInputs s g)).mapError .kernel
  let length ← (Logged.ofExcept s.cLen).mapError .kernel
  let blank ← .ofFault (guarded sentinel length)
  let expected := Kernel.reference.multiplyInto s a b blank
  expected.answer.mapError .kernel
  let actual := candidate.multiplyInto s a b blank
  actual.answer.mapError .kernel
  let found := judge mode sentinel s length expected.c actual.c
  report candidate.name found
  return (found, g)

/-- Compares the reference with the product by way of transposes on one shape. -/
def crossCheckCase (tolerance : Tolerance) (s : Shape) (g : Generator) :
    Logged CheckError (Case × Generator) := do
  let (a, b, g) ← (Logged.ofExcept (drawInputs s g)).mapError .kernel
  let expected ← (Kernel.reference.multiply s a b).mapError .kernel
  let actual ← TransposedProduct.multiply s a b
  let comparison := Comparison.of (.within tolerance) expected actual
  .emit .debug s!"transpose cross-check {s}: {comparison}"
  return ({ shape := s, comparison, unwritten := 0, guardWrites := 0 }, g)

/-- One case for each shape, each drawing where the one before left off. -/
def runCases (check : Shape → Generator → Logged CheckError (Case × Generator)) :
    List Shape → Generator → Logged CheckError (List Case)
  | [], _ => pure []
  | s :: rest, g => do
    let (found, g) ← check s g
    return found :: (← runCases check rest g)

namespace Harness

/-- Checks a candidate on every shape. The first call that fails ends the run. -/
def run (h : Harness) (candidate : Kernel) : Logged CheckError Report := do
  let count := h.shapes.length
  .emit .info
    s!"checking {candidate.name} against reference ({h.mode}, seed {h.seed}, {count} shapes)"
  let cases ← runCases (checkCase h.mode h.sentinel candidate) h.shapes (.seeded h.seed)
  return { kernel := candidate.name, mode := h.mode, cases }

/-- Cross-checks the reference on every shape, whatever the mode of the harness. -/
def crossCheck (h : Harness) (tolerance : Tolerance) : Logged CheckError Report := do
  let cases ← runCases (crossCheckCase tolerance) h.shapes (.seeded h.seed)
  return { kernel := "transpose", mode := .within tolerance, cases }

end Harness

end DenseMatmul.Conformance
