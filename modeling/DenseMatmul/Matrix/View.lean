import DenseMatmul.Buffer
import DenseMatmul.Shape
/-!
# Views

A view reads and writes the start of a buffer as rows of a matrix. The buffer may go on past the view;
what lies there is neither seen nor changed.
-/

namespace DenseMatmul

/-- A matrix laid over the first `extent` elements of a buffer. -/
structure View where
  buffer : Buffer
  extent : Nat
  rows : Nat
  cols : Nat
  deriving DecidableEq

namespace View

/-- A view of `rows * cols` elements, which the buffer must hold. -/
def ofBuffer (buffer : Buffer) (rows cols : Nat) : Except MatmulError View := do
  let extent ← elementCount rows cols
  checkLength .view extent buffer.size
  return { buffer, extent, rows, cols }

/-- The elements in the view. -/
def elements (v : View) : Buffer := v.buffer.extract 0 v.extent

/-- The place of an element, which must have a row and a column of the matrix. -/
def locate (v : View) (row col : Nat) : Except Fault Nat := do
  if row < v.rows ∧ col < v.cols then
    let place ← offset row col v.cols
    if place < v.extent then return place else throw .pastEnd
  else throw (.indexOutOfRange row col)

def get (v : View) (row col : Nat) : Except Fault Single := do
  v.buffer.read (← v.locate row col)

/-- The elements of a row. Only the place of its elements is checked, so a matrix without columns has
an empty row at any number. -/
def row (v : View) (row : Nat) : Except Fault Buffer := do
  let start ← offset row 0 v.cols
  let stop ← offset row v.cols v.cols
  if stop ≤ v.extent then v.buffer.slice start stop else throw .pastEnd

/-- Replaces one element by a function of it. -/
def modify (v : View) (row col : Nat) (f : Single → Single) : Except Fault View := do
  let place ← v.locate row col
  let old ← v.buffer.read place
  return { v with buffer := v.buffer.setIfInBounds place (f old) }

def set (v : View) (row col : Nat) (value : Single) : Except Fault View :=
  v.modify row col fun _ => value

def add (v : View) (row col : Nat) (value : Single) : Except Fault View :=
  v.modify row col (· + value)

/-- Gives every element of the view one value. -/
def fill (v : View) (value : Single) : View :=
  { v with buffer := v.buffer.mapIdx fun i x => if i < v.extent then value else x }

end View

end DenseMatmul
