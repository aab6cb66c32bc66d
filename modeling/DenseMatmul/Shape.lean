import DenseMatmul.Error
import DenseMatmul.Word
/-!
# Shapes of a product

A shape gives the extents of one product `C = A B`: A is `m` by `k`, B is `k` by `n`, C is `m` by
`n`, all row by row without gaps. Lengths are products of two extents and must be words; buffers may
be longer than their length.
-/

namespace DenseMatmul

/-! ## Row-major layout -/

/-- Number of elements of a matrix. -/
def elementCount (rows cols : Nat) : Except MatmulError Nat :=
  if rows * cols < wordLimit then .ok (rows * cols) else .error (.dimensionOverflow rows cols)

def checkLength (buffer : Operand) (required got : Nat) : Except MatmulError Unit :=
  if got < required then .error (.bufferTooShort buffer required got) else .ok ()

/-- Checks that the number of elements is a word, then that the buffer holds them. -/
def checkOperand (buffer : Operand) (rows cols got : Nat) : Except MatmulError Unit := do
  checkLength buffer (← elementCount rows cols) got

/-- Place of an element among rows of `stride` elements. -/
def offset (row col stride : Nat) : Except Fault Nat :=
  if row * stride < wordLimit ∧ row * stride + col < wordLimit then .ok (row * stride + col)
  else .error .wordOverflow

/-- A product of words, which must be a word. -/
def wordProduct (x y : Nat) : Except Fault Nat :=
  if x * y < wordLimit then .ok (x * y) else .error .wordOverflow

/-- A sum of words, which must be a word. -/
def wordSum (x y : Nat) : Except Fault Nat :=
  if x + y < wordLimit then .ok (x + y) else .error .wordOverflow

theorem elementCount_eq_ok_iff {rows cols n : Nat} :
    elementCount rows cols = .ok n ↔ rows * cols < wordLimit ∧ rows * cols = n := by
  unfold elementCount
  split
  · simp_all
  · simp only [reduceCtorEq, false_iff]
    omega

theorem checkOperand_eq_ok_iff {buffer : Operand} {rows cols got : Nat} :
    checkOperand buffer rows cols got = .ok () ↔ rows * cols < wordLimit ∧ rows * cols ≤ got := by
  unfold checkOperand elementCount checkLength
  by_cases h : rows * cols < wordLimit <;> by_cases h' : got < rows * cols <;>
    simp [h, h', bind, Except.bind]
  omega

theorem offset_eq_ok_iff {row col stride n : Nat} :
    offset row col stride = .ok n ↔ row * stride + col < wordLimit ∧ row * stride + col = n := by
  unfold offset
  split <;> simp_all
  omega

theorem wordProduct_of_lt {x y : Nat} (h : x * y < wordLimit) : wordProduct x y = .ok (x * y) :=
  if_pos h

theorem wordSum_of_lt {x y : Nat} (h : x + y < wordLimit) : wordSum x y = .ok (x + y) := if_pos h

/-! ## Shapes -/

/-- Extents of a product: `m` rows and `n` columns of sums over `k` products. -/
structure Shape where
  m : Nat
  n : Nat
  k : Nat
  deriving DecidableEq

namespace Shape

def square (n : Nat) : Shape := ⟨n, n, n⟩

/-- A shape from signed extents, of which the first negative one in the order `m`, `n`, `k` is
refused. -/
def ofSigned (m n k : Int) : Except MatmulError Shape := do
  return ⟨← extent .m m, ← extent .n n, ← extent .k k⟩
where
  extent (axis : Axis) (value : Int) : Except MatmulError Nat :=
    if 0 ≤ value then .ok value.toNat
    else .error (.invalidArgument (.negativeExtent axis value))

def aLen (s : Shape) : Except MatmulError Nat := elementCount s.m s.k

def bLen (s : Shape) : Except MatmulError Nat := elementCount s.k s.n

def cLen (s : Shape) : Except MatmulError Nat := elementCount s.m s.n

/-- Checks A, then B, then C: that its length is a word, then that the buffer has it. -/
def validate (s : Shape) (aSize bSize cSize : Nat) : Except MatmulError Unit := do
  checkOperand .a s.m s.k aSize
  checkOperand .b s.k s.n bSize
  checkOperand .c s.m s.n cSize

theorem validate_eq_ok_iff {s : Shape} {aSize bSize cSize : Nat} :
    s.validate aSize bSize cSize = .ok () ↔
      (s.m * s.k < wordLimit ∧ s.m * s.k ≤ aSize) ∧ (s.k * s.n < wordLimit ∧ s.k * s.n ≤ bSize) ∧
        s.m * s.n < wordLimit ∧ s.m * s.n ≤ cSize := by
  rw [← @checkOperand_eq_ok_iff .a, ← @checkOperand_eq_ok_iff .b, ← @checkOperand_eq_ok_iff .c]
  unfold validate
  cases checkOperand .a s.m s.k aSize <;> cases checkOperand .b s.k s.n bSize <;>
    simp [bind, Except.bind]

/-- Additions and multiplications of the product, held at the largest word. -/
def flops (s : Shape) : Nat :=
  saturatingMul (saturatingMul (saturatingMul s.m s.n) s.k) 2

instance : ToString Shape := ⟨fun s => s!"[{s.m}x{s.k}] @ [{s.k}x{s.n}]"⟩

end Shape

end DenseMatmul
