import DenseMatmul.Comparison
import DenseMatmul.Shape
/-!
# Reports of a check

One case for each shape, and what the whole says. A case passes if the outputs match, every element
was written, and nothing past the output was.
-/

namespace DenseMatmul.Conformance

structure Case where
  shape : Shape
  comparison : Comparison
  /-- Elements that still hold the sentinel where the reference wrote something else. -/
  unwritten : Nat
  /-- Elements past the output that no longer hold the sentinel. -/
  guardWrites : Nat
  deriving DecidableEq

namespace Case

def passed (c : Case) : Bool := c.comparison.isMatch && c.unwritten == 0 && c.guardWrites == 0

/-- Everything the case has to tell. -/
def detail (c : Case) : String :=
  s!"{c.shape}: {c.comparison} ({c.unwritten} unwritten, {c.guardWrites} guard writes)"

end Case

structure Report where
  kernel : String
  mode : Mode
  cases : List Case
  deriving DecidableEq

namespace Report

def passed (r : Report) : Bool := r.cases.all Case.passed

def failures (r : Report) : List Case := r.cases.filter fun c => !c.passed

/-- A line for the whole, and an indented one for each failure. -/
instance : ToString Report where
  toString r :=
    let total := r.cases.length
    let summary := s!"{r.kernel} [{r.mode}]: {total - r.failures.length}/{total} cases passed\n"
    r.failures.foldl (fun text c => s!"{text}  {c.detail}\n") summary

end Report

end DenseMatmul.Conformance
