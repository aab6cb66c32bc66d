import DenseMatmul.Kernel
import DenseMatmul.Kernel.Store
/-!
# The reference product

Row by row, each element of C is summed from left to right in one single-precision accumulator that
starts at positive zero, and is then stored. So all of `C[..m*n]` is written, with zeros when `k` is
zero, and nothing past it. Other kernels are judged against this one, so the order is fixed.

The checked form refuses short buffers. The unchecked form faults on them before it stores anything.
The raw form takes operands that may be absent where their length is zero.
-/

namespace DenseMatmul

namespace Reference

/-! ## Elements -/

/-- Adds the next `count` products to `sum`: along a row of A from `i`, down a column of B from `j`. -/
def accumulate (a b : Buffer) (stride : Nat) : Nat → Nat → Nat → Single → Except Fault Single
  | 0, _, _, sum => .ok sum
  | count + 1, i, j, sum =>
    if hi : i < a.size then
      if hj : j < b.size then
        accumulate a b stride count (i + 1) (j + stride) (sum + a[i] * b[j])
      else .error .pastEnd
    else .error .pastEnd

/-- The sum for one cell of C, cells being counted row by row. -/
def entry (s : Shape) (a b : Buffer) (cell : Nat) : Except Fault Single :=
  accumulate a b s.n s.k (cell / s.n * s.k) (cell % s.n) .zero

/-! ## The unchecked form -/

/-- Demands of a buffer that it holds `rows * cols` elements. -/
def demand (operand : Operand) (rows cols got : Nat) : Except Fault Unit :=
  if wordLimit ≤ rows * cols then .error .wordOverflow
  else if got < rows * cols then .error (.operandTooShort operand (rows * cols) got)
  else .ok ()

/-- Demands lengths of A, B and C, in this order. -/
def demandAll (s : Shape) (aSize bSize cSize : Nat) : Except Fault Unit := do
  demand .a s.m s.k aSize
  demand .b s.k s.n bSize
  demand .c s.m s.n cSize

/-- The stores of a product into a buffer of `cSize` elements. -/
def steps (s : Shape) (a b : Buffer) (cSize : Nat) : List Step :=
  match demandAll s a.size b.size cSize with
  | .error f => [.error f]
  | .ok _ => (List.range (s.m * s.n)).map fun cell => (entry s a b cell).map (Store.mk cell)

def multiply (s : Shape) (a b c : Buffer) : Run :=
  Step.run (steps s a b c.size) c

/-! ## The checked form -/

def multiplyChecked (s : Shape) (a b c : Buffer) : Call :=
  match s.validate a.size b.size c.size with
  | .error e => { answer := .refuse e, c }
  | .ok _ =>
    let run := multiply s a b c
    { answer := do
        .emit .trace s!"reference matmul {s}"
        .ofFault run.result
      c := run.c }

theorem size_multiplyChecked (s : Shape) (a b c : Buffer) :
    (multiplyChecked s a b c).c.size = c.size := by
  unfold multiplyChecked
  split
  · rfl
  · exact Step.size_run _ _

/-! ## The raw form -/

/-- The first `length` elements of an operand. An operand that is absent or shorter breaks the
caller's promise, unless nothing is needed of it. -/
def borrow (operand : Option Buffer) (length : Nat) : Except Fault Buffer :=
  if length = 0 then .ok #[]
  else match operand with
    | some data => data.slice 0 length
    | none => .error .pastEnd

/-- Multiplies into an output that may be absent; the answer holds the output afterwards. -/
def multiplyRaw (s : Shape) (a b c : Option Buffer) : Except Fault Unit × Option Buffer :=
  let operands : Except Fault (Buffer × Buffer × Nat) := do
    let a ← borrow a (← wordProduct s.m s.k)
    let b ← borrow b (← wordProduct s.k s.n)
    return (a, b, ← wordProduct s.m s.n)
  match operands, c with
  | .error f, c => (.error f, c)
  | .ok (_, _, 0), c => (.ok (), c)
  | .ok (_, _, _), none => (.error .pastEnd, none)
  | .ok (a, b, length), some data =>
    let run := Step.run (steps s a b length) data
    (run.result, some run.c)

end Reference

/-! ## As a kernel -/

/-- The kernel that others are compared with. -/
def Kernel.reference : Kernel where
  name := "reference"
  multiplyInto := Reference.multiplyChecked
  size_c := Reference.size_multiplyChecked

end DenseMatmul
