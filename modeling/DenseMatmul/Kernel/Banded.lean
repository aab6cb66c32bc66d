import DenseMatmul.Kernel.Reference
/-!
# The row-banded kernel

The rows of C are cut into bands, and each band is the reference product of its rows of A by B. Bands
share no element of C, so they can run side by side; each element is still summed by one accumulator
in the order of the reference.

How many threads: one for a small product, else one for every `minRows` rows, and never more than
allowed. The rows are shared out evenly, rounded up, so the last band may have fewer than the others,
and there may be fewer bands than threads.
-/

namespace DenseMatmul

/-- How a product is cut: into one band under `minFlops` operations, else for one thread to every
`minRows` rows, but for `maxThreads` at most. -/
structure Banding where
  maxThreads : Nat
  minFlops : Nat := 2000000
  minRows : Nat := 16
  one_le_maxThreads : 1 ≤ maxThreads := by decide
  one_le_minRows : 1 ≤ minRows := by decide

/-- The rows of one band. -/
structure Band where
  firstRow : Nat
  rows : Nat
  deriving DecidableEq

namespace Banding

/-- The usual cut-offs, with at least one thread. -/
def ofThreads (threads : Nat) : Banding where
  maxThreads := max threads 1
  one_le_maxThreads := Nat.le_max_right _ _

/-- Other cut-offs; the least number of rows is taken as one at the least. -/
def withSplit (p : Banding) (minFlops minRows : Nat) : Banding :=
  { p with minFlops, minRows := max minRows 1, one_le_minRows := Nat.le_max_right _ _ }

/-! ## The plan -/

/-- Threads for a product. -/
def threads (p : Banding) (s : Shape) : Nat :=
  if s.flops < p.minFlops then 1 else min (max (s.m / p.minRows) 1) p.maxThreads

/-- Rows of every band but the last, which may have fewer. -/
def rowsPerBand (p : Banding) (s : Shape) : Nat := (s.m + p.threads s - 1) / p.threads s

/-- The bands from the first row on: C is cut into runs of the elements of `rowsPerBand` rows, whose
number must be a word, and not zero. -/
def bands (p : Banding) (s : Shape) : Except Fault (List Band) := do
  let size ← wordProduct (p.rowsPerBand s) s.n
  if size = 0 then throw .emptyBand
  return (List.range ((s.m * s.n + size - 1) / size)).map fun i =>
    { firstRow := i * p.rowsPerBand s, rows := min size (s.m * s.n - i * size) / s.n }

end Banding

/-! ## One band -/

namespace Band

/-- The shape of the band's own product. -/
def shape (band : Band) (s : Shape) : Shape := { s with m := band.rows }

/-- The band's rows of A. The row past the last must be a word, and so must both ends of the rows. -/
def slice (band : Band) (s : Shape) (a : Buffer) : Except Fault Buffer := do
  let pastRow ← wordSum band.firstRow band.rows
  a.slice (← wordProduct band.firstRow s.k) (← wordProduct pastRow s.k)

/-- The stores of the band, at their places in the whole of C. -/
def steps (band : Band) (s : Shape) (a b : Buffer) : List Step :=
  match band.slice s a with
  | .error f => [.error f]
  | .ok rows =>
    (Reference.steps (band.shape s) rows b (band.rows * s.n)).map
      (Except.map (Store.shift (band.firstRow * s.n)))

end Band

/-! ## The product -/

namespace Banding

/-- The steps of every band, in the order of the bands. -/
def bandSteps (p : Banding) (s : Shape) (a b : Buffer) : Except Fault (List (List Step)) :=
  return (← p.bands s).map fun band => band.steps s a b

/-- Multiplies. `runBands` makes the steps of the bands where there is more than one. -/
def multiplyBy (runBands : List (List Step) → Buffer → Run) (p : Banding) (s : Shape)
    (a b c : Buffer) : Call :=
  match s.validate a.size b.size c.size with
  | .error e => { answer := .refuse e, c }
  | .ok _ =>
    if s.m = 0 ∨ s.n = 0 then { answer := pure (), c }
    else if p.threads s = 1 then
      let run := Reference.multiply s a b c
      { answer := .ofFault run.result, c := run.c }
    else
      let run : Run := match p.bandSteps s a b with
        | .error f => ⟨.error f, c⟩
        | .ok lists => runBands lists c
      { answer := do
          .emit .debug
            s!"row-parallel matmul {s}: {p.threads s} threads, {p.rowsPerBand s} rows per band"
          .ofFault run.result
        c := run.c }

/-- Multiplies, with one band after the other. -/
def multiplyInto : Banding → Shape → Buffer → Buffer → Buffer → Call := multiplyBy Step.runAll

theorem size_multiplyInto (p : Banding) (s : Shape) (a b c : Buffer) :
    (p.multiplyInto s a b c).c.size = c.size := by
  unfold multiplyInto multiplyBy
  split
  · rfl
  · split
    · rfl
    · split
      · exact Step.size_run _ _
      · dsimp only
        split
        · rfl
        · exact Step.size_runAll _ _

end Banding

/-- The kernel that cuts its product as `p` says. -/
def Kernel.rowParallel (p : Banding) : Kernel where
  name := "row-parallel"
  multiplyInto := p.multiplyInto
  size_c := p.size_multiplyInto

end DenseMatmul
