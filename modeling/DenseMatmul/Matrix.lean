import DenseMatmul.Kernel
import DenseMatmul.Matrix.View
/-!
# Matrices

A matrix owns its elements, row by row without gaps. The ways to make one check that there are as
many as its rows and columns say; reading and writing goes through a view of the whole.
-/

namespace DenseMatmul

structure Matrix where
  data : Buffer
  rows : Nat
  cols : Nat
  deriving DecidableEq

namespace Matrix

/-! ## Making matrices -/

/-- A matrix of exactly the elements given. -/
def ofData (data : Buffer) (rows cols : Nat) : Except MatmulError Matrix := do
  let length ← elementCount rows cols
  if data.size = length then return { data, rows, cols }
  else throw (.invalidArgument (.dataLength data.size rows cols))

def zeros (rows cols : Nat) : Except MatmulError Matrix := do
  return { data := .replicate (← elementCount rows cols) .zero, rows, cols }

/-- Puts ones on the diagonal of a matrix with `n` columns, in its first `count` rows. -/
def setDiagonal (n count : Nat) (data : Buffer) : Buffer :=
  (List.range count).foldl (fun data i => data.setIfInBounds (i * n + i) .one) data

/-- Zeros, and then a one in every row where the column is the same. -/
def identity (n : Nat) : Except MatmulError Matrix := do
  let x ← zeros n n
  return { x with data := setDiagonal n n x.data }

/-- Appends rows of `cols` elements to `data`; `i` counts the rows before them. -/
def appendRows (cols : Nat) : List Buffer → Nat → Buffer → Except MatmulError Buffer
  | [], _, data => .ok data
  | row :: rest, i, data =>
    if row.size = cols then appendRows cols rest (i + 1) (data ++ row)
    else .error (.invalidArgument (.raggedRow i row.size cols))

/-- A matrix of the rows given, all of which must be as long as the first. -/
def ofRows (rows : List Buffer) : Except MatmulError Matrix := do
  let cols := (rows.head?.map Array.size).getD 0
  return { data := ← appendRows cols rows 0 #[], rows := rows.length, cols }

/-! ## Elements -/

/-- The whole matrix as a view. -/
def view (x : Matrix) : View :=
  { buffer := x.data, extent := x.data.size, rows := x.rows, cols := x.cols }

def get (x : Matrix) (row col : Nat) : Except Fault Single := x.view.get row col

def row (x : Matrix) (row : Nat) : Except Fault Buffer := x.view.row row

/-- A change made through the view of the whole matrix. -/
def through (x : Matrix) (change : View → Except Fault View) : Except Fault Matrix := do
  return { x with data := (← change x.view).buffer }

def set (x : Matrix) (row col : Nat) (value : Single) : Except Fault Matrix :=
  x.through (·.set row col value)

def add (x : Matrix) (row col : Nat) (value : Single) : Except Fault Matrix :=
  x.through (·.add row col value)

/-- The matrices have the same rows and columns, and equal numbers in every place. -/
def equal (x y : Matrix) : Bool :=
  x.rows == y.rows && x.cols == y.cols && x.data.size == y.data.size &&
    (x.data.zip y.data).all fun (a, b) => a.equal b

/-! ## Operations -/

/-- The transpose, each of whose elements is looked up in the matrix. -/
def transpose (x : Matrix) : Except Fault Matrix := do
  let data ← (List.range (x.cols * x.rows)).mapM fun cell => do
    x.data.read (← offset (cell % x.rows) (cell / x.rows) x.cols)
  return { data := data.toArray, rows := x.cols, cols := x.rows }

/-- The product, made by a kernel. -/
def multiply (kernel : Kernel) (x y : Matrix) : Logged MatmulError Matrix := do
  if x.cols = y.rows then
    let data ← kernel.multiply ⟨x.rows, y.cols, x.cols⟩ x.data y.data
    return { data, rows := x.rows, cols := y.cols }
  else .refuse (.innerMismatch x.rows x.cols y.rows y.cols)

end Matrix

end DenseMatmul
