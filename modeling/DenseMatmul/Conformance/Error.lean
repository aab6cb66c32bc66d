import DenseMatmul.Error
/-!
# Errors of a check

A check has nothing to do without shapes; every other error is one of a kernel.
-/

namespace DenseMatmul.Conformance

inductive CheckError where
  | kernel (error : MatmulError)
  | noShapes
  deriving DecidableEq

def CheckError.message : CheckError → String
  | .kernel error => s!"kernel error: {error.message}"
  | .noShapes => "harness has no shapes to check"

end DenseMatmul.Conformance
