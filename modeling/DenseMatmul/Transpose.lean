import DenseMatmul.Kernel.Store
import DenseMatmul.Shape
/-!
# Transposition

A buffer is transposed by taking its elements in order and storing each at its new place.
-/

namespace DenseMatmul

namespace Transpose

/-- The store that takes element `cell` of a matrix with `rows` rows to its place in the transpose. -/
def step (b : Buffer) (rows cols cell : Nat) : Step := do
  let row := cell / cols
  let col := cell % cols
  let value ← b.read (← offset row col cols)
  return ⟨← offset col row rows, value⟩

def steps (b : Buffer) (rows cols : Nat) : List Step :=
  (List.range (rows * cols)).map (step b rows cols)

end Transpose

/-- The transpose of the `rows` by `cols` matrix that `b` starts with. -/
def Buffer.transpose (b : Buffer) (rows cols : Nat) : Except Fault Buffer :=
  if wordLimit ≤ rows * cols then .error .wordOverflow
  else
    let run := Step.run (Transpose.steps b rows cols) (.replicate (rows * cols) .zero)
    run.result.map fun _ => run.c

end DenseMatmul
